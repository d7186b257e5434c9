import DeconzRest.Ddf.Bundle
import DeconzRest.Ddf.GenericItems
import DeconzRest.Lib.MapOption

/-!
# `DDF_MergeGenericBundleItems`

The generic items of a bundle are merged as those of the raw JSON files are, and the scripts of the
bundle are put in the place of their names.  A script that does not compile is searched for `let`,
which becomes `var`; the search stays where it is at a `let` inside of another word.

What an item says wins over the generic item as far as the merge sees that it was said.  Of
`implicit` and `managed` it does not (`given_wins_iff`).
-/

namespace DeconzRest
namespace DeviceObject

open Option
open QString (ofLatin1)
open QVariant (value contains)
open Ddf (ExtfChunk tag)

variable {D : Type}

/-! ## Scripts -/

structure BundleFile where
  data : List UInt8
  extChunks : List ExtfChunk

/-- What Qt and the JavaScript engine do -/
structure ScriptEnv (D : Type) where
  /-- `QVariant::toString` -/
  toText : QVariant D → QString
  /-- `DeviceJs::testCompile` gives `JsEvalResult::Ok`. -/
  testCompile : QString → Bool

/-- The loop that looks for the last `/` of a path, from the octet behind it down to the second. -/
def fnameStart (octet : Nat → UInt8) : Nat → Nat
  | 0 => 0
  | n + 1 => if octet (n + 1) = 0x2F then n + 1 else fnameStart octet n

/-- The text ends in the file name of the external file. -/
def BundleFile.names (bundle : BundleFile) (extf : ExtfChunk) (script : List UInt8) : Bool :=
  let start := fnameStart (fun i => bundle.data.getD (extf.path + i) 0) extf.pathLength
  ((bundle.data.drop (extf.path + start)).take (extf.pathLength - start)).isSuffixOf script

def BundleFile.script? (bundle : BundleFile) (script : List UInt8) : Option QString :=
  (bundle.extChunks.find? fun extf =>
    extf.fileType == tag "SCJS" && decide (4 ≤ extf.pathLength) &&
      bundle.names extf script).map fun extf =>
    QString.fromUtf8 ((bundle.data.drop extf.fileData).take extf.fileSize)

def letText : QString := ofLatin1 "let"

def varText : QString := ofLatin1 "var"

/-- A `let` behind this character is replaced; `none` is the start of the text. -/
def replaceable : Option QChar → Bool
  | none => true
  | some c => QString.isSpace c || c == QString.unit '('

/-- The loop of `DDF_TryCompileAndFixJavascript`, with the character in front of the rest: the text
and the number of fixes.  The search goes on behind the character after a `let` that was replaced;
at one that is not, it finds the same again, and does not end. -/
def fixLets : Option QChar → QString → Option (QString × Nat)
  | prev, l :: e :: t :: c :: rest =>
    if [l, e, t] = letText then
      if replaceable prev then
        (fixLets (some c) rest).map fun r => (varText ++ c :: r.1, r.2 + 1)
      else none
    else (fixLets (some l) (e :: t :: c :: rest)).map fun r => (l :: r.1, r.2)
  | prev, [l, e, t] =>
    if [l, e, t] = letText then
      if replaceable prev then some (varText, 1) else none
    else some ([l, e, t], 0)
  | _, rest => some (rest, 0)

section Scripts

variable (js : ScriptEnv D) (bundle : BundleFile)

/-- `DDF_TryCompileAndFixJavascript`; `none` is a search that does not end. -/
def tryCompileAndFix (expr : QString) : Option QString :=
  if js.testCompile expr then some expr
  else
    (fixLets none expr).map fun fix =>
      if 0 < fix.2 && js.testCompile fix.1 then fix.1 else expr

def loadScript (map : JsonObject D) : JsonObject D :=
  if contains map "script" then
    match bundle.script? (QString.toUtf8 (js.toText (value map "script"))) with
    | some content =>
      if content = [] then map else Json.insert (ofLatin1 "eval") (.string content) map
    | none => map
  else map

/-- The expression of the parameters, if they have one -/
def expression? (map : JsonObject D) : Option QString :=
  if contains map "eval" && js.toText (value map "eval") ≠ [] then
    some (js.toText (value map "eval"))
  else none

/-- `DDF_ResolveBundleParamScript` -/
def resolveBundleParamScript (param : Option (JsonObject D)) : Option (Option (JsonObject D)) :=
  match param with
  | none => some none
  | some map =>
    match expression? js (loadScript js bundle map) with
    | none => some param
    | some content =>
      (tryCompileAndFix js content).map fun content =>
        some (Json.insert (ofLatin1 "eval") (.string content) (loadScript js bundle map))

def Item.resolved (item : Item D) : Option (Item D) := do
  let parseParameters ← resolveBundleParamScript js bundle item.parseParameters
  let readParameters ← resolveBundleParamScript js bundle item.readParameters
  let writeParameters ← resolveBundleParamScript js bundle item.writeParameters
  return { item with parseParameters, readParameters, writeParameters }

def mergeBundleItem (gen item : Item D) : Option (Item D) :=
  let item := item.unmarked gen
  (if item.isStatic then some item else (item.withParameters gen).resolved js bundle).map
    fun item => item.withDefaults gen

def mergeGenericBundle (genericItems : List (Item D)) (item : Item D) : Option (Item D) :=
  match genericItem? genericItems item.descriptor.suffix with
  | some gen => mergeBundleItem js bundle gen item
  | none => some item

/-- The loop over the items of a sub-device -/
def mergeBundleSubDevice (genericItems : List (Item D)) (sub : SubDevice D) :
    Option (SubDevice D) :=
  (sub.items.mapM (mergeGenericBundle js bundle genericItems)).map fun items =>
    { sub with items }

/-- `DDF_MergeGenericBundleItems`, with the generic items that were read of the bundle -/
def mergeGenericBundleItems (genericItems : List (Item D)) (ddf : DeviceDescription D) :
    Option (DeviceDescription D) :=
  (ddf.subDevices.mapM (mergeBundleSubDevice js bundle genericItems)).map fun subDevices =>
    { ddf with subDevices }

end Scripts

/-- Every `let` that the search finds is replaceable. -/
def LetsStand : Option QChar → QString → Prop
  | prev, l :: e :: t :: c :: rest =>
    if [l, e, t] = letText then replaceable prev = true ∧ LetsStand (some c) rest
    else LetsStand (some l) (e :: t :: c :: rest)
  | prev, [l, e, t] => [l, e, t] = letText → replaceable prev = true
  | _, _ => True

/-- The expression compiles, or every `let` that the search finds is replaceable. -/
def Ends (js : ScriptEnv D) (expr : QString) : Prop :=
  js.testCompile expr = true ∨ LetsStand none expr

/-- The expression of the parameters, if they have one, is such. -/
def ScriptEnds (js : ScriptEnv D) (bundle : BundleFile) (param : Option (JsonObject D)) : Prop :=
  ∀ map, param = some map → ∀ content, expression? js (loadScript js bundle map) = some content →
    Ends js content

theorem isSome_fixLets_iff (prev : Option QChar) (s : QString) :
    (fixLets prev s).isSome = true ↔ LetsStand prev s := by
  fun_induction fixLets prev s with
  | case1 prev l e t c rest hlet hprev ih =>
    rw [LetsStand, if_pos hlet, isSome_map, ih]
    exact ⟨fun h => ⟨hprev, h⟩, fun h => h.2⟩
  | case2 prev l e t c rest hlet hprev =>
    rw [LetsStand, if_pos hlet]
    exact ⟨fun h => absurd h Bool.false_ne_true, fun h => absurd h.1 hprev⟩
  | case3 prev l e t c rest hlet ih =>
    rw [LetsStand, if_neg hlet, isSome_map, ih]
  | case4 prev l e t hlet hprev =>
    rw [LetsStand]
    exact ⟨fun _ _ => hprev, fun _ => rfl⟩
  | case5 prev l e t hlet hprev =>
    rw [LetsStand]
    exact ⟨fun h => absurd h Bool.false_ne_true, fun h => absurd (h hlet) hprev⟩
  | case6 prev l e t hlet =>
    rw [LetsStand]
    exact ⟨fun _ h => absurd h hlet, fun _ => rfl⟩
  | case7 prev s hfour hthree =>
    rw [LetsStand]
    · exact ⟨fun _ => trivial, fun _ => rfl⟩
    · exact hfour
    · exact hthree

section Ends

variable {js : ScriptEnv D} {bundle : BundleFile}

theorem isSome_tryCompileAndFix_iff {expr : QString} :
    (tryCompileAndFix js expr).isSome = true ↔ Ends js expr := by
  unfold tryCompileAndFix Ends
  cases js.testCompile expr with
  | true => exact ⟨fun _ => .inl rfl, fun _ => rfl⟩
  | false =>
    rw [if_neg Bool.false_ne_true, isSome_map, isSome_fixLets_iff]
    exact ⟨.inr, fun h => h.resolve_left Bool.false_ne_true⟩

theorem isSome_resolve_iff {param : Option (JsonObject D)} :
    (resolveBundleParamScript js bundle param).isSome = true ↔ ScriptEnds js bundle param := by
  unfold resolveBundleParamScript ScriptEnds
  cases param with
  | none => exact ⟨fun _ _ h => (nomatch h), fun _ => rfl⟩
  | some map =>
    simp only [Option.some.injEq, forall_eq']
    cases expression? js (loadScript js bundle map) with
    | none => exact ⟨fun _ _ h => (nomatch h), fun _ => rfl⟩
    | some content =>
      simp only [isSome_map, isSome_tryCompileAndFix_iff, Option.some.injEq, forall_eq']

theorem resolve_eq_none_iff {param loaded : Option (JsonObject D)}
    (h : resolveBundleParamScript js bundle param = some loaded) :
    param = none ↔ loaded = none := by
  unfold resolveBundleParamScript at h
  cases param with
  | none =>
    rw [← some_inj.mp h]
  | some map =>
    simp only at h
    refine ⟨fun hnone => (nomatch hnone), fun hnone => ?_⟩
    rw [hnone] at h
    split at h
    · exact some_inj.mp h
    · obtain ⟨content, -, hloaded⟩ := map_eq_some_iff.mp h
      cases hloaded

end Ends

/-! ## What a merge gives -/

/-- What a merge makes of parameters: they stay what they are, or get their script. -/
structure Keeps (loads : Option (JsonObject D) → Option (JsonObject D) → Prop) : Prop where
  absent : loads none none
  iff : ∀ param loaded, loads param loaded → (param = none ↔ loaded = none)

/-- The merged item, field by field -/
structure MergedFrom (loads : Option (JsonObject D) → Option (JsonObject D) → Prop)
    (gen item merged : Item D) : Prop where
  isPublic : merged.isPublic = if item.hasIsPublic then item.isPublic else gen.isPublic
  isImplicit : merged.isImplicit = gen.isImplicit
  isManaged : merged.isManaged = gen.isManaged
  awake : merged.awake = item.awake
  isStatic : merged.isStatic = item.isStatic
  defaultValue : merged.defaultValue = item.defaultValue.or gen.defaultValue
  access : merged.descriptor.access = if item.descriptor.access =
    .unknown then gen.descriptor.access else item.descriptor.access
  refreshInterval : merged.refreshInterval = if item.isStatic = false ∧ item.refreshInterval =
    -1 then gen.refreshInterval
    else item.refreshInterval
  parse : loads (if item.isStatic then item.parseParameters
    else item.parseParameters.or gen.parseParameters) merged.parseParameters
  read : loads (if item.isStatic then item.readParameters
    else item.readParameters.or gen.readParameters) merged.readParameters
  write : loads (if item.isStatic then item.writeParameters
    else item.writeParameters.or gen.writeParameters) merged.writeParameters

def WithScript (js : ScriptEnv D) (bundle : BundleFile) (param loaded : Option (JsonObject D)) :
    Prop :=
  loaded = param ∨ resolveBundleParamScript js bundle param = some loaded

theorem keeps_eq : Keeps (D := D) Eq :=
  ⟨rfl, fun _ _ h => by rw [h]⟩

theorem keeps_withScript (js : ScriptEnv D) (bundle : BundleFile) :
    Keeps (WithScript js bundle) := by
  refine ⟨.inl rfl, fun param loaded h => ?_⟩
  rcases h with rfl | hresolved
  · exact Iff.rfl
  · exact resolve_eq_none_iff hresolved

theorem access_withDefaults (item gen : Item D) : (item.withDefaults gen).descriptor.access =
    if item.descriptor.access = .unknown then gen.descriptor.access
    else item.descriptor.access := by
  unfold Item.withDefaults
  simp only
  split <;> rfl

theorem refreshInterval_eq (item gen : Item D) : (item.withParameters gen).refreshInterval =
    if item.refreshInterval = -1 then gen.refreshInterval else item.refreshInterval := by
  unfold Item.withParameters
  simp only
  -- an interval is set in place of one that differs, which makes no difference to the result
  by_cases hnone : item.refreshInterval = -1
  · rw [if_pos hnone]
    by_cases hother : gen.refreshInterval ≠ item.refreshInterval
    · exact if_pos ⟨hnone, hother⟩
    · rw [if_neg fun h => hother h.2]
      exact (not_not.mp hother).symm
  · rw [if_neg hnone]
    exact if_neg fun h => hnone h.1

theorem mergedFrom_mergeItem (gen item : Item D) : MergedFrom Eq gen item (mergeItem gen item) := by
  cases hstatic : item.isStatic with
  | true =>
    rw [mergeItem_of_static gen hstatic]
    refine ⟨rfl, rfl, rfl, rfl, rfl, rfl, access_withDefaults _ gen, ?_, ?_, ?_, ?_⟩
    · rw [if_neg fun h => Bool.false_ne_true (h.1.symm.trans hstatic)]
      rfl
    all_goals
      rw [if_pos hstatic]
      rfl
  | false =>
    have hnot : ¬ item.isStatic = true := fun h => Bool.false_ne_true (hstatic.symm.trans h)
    rw [mergeItem_of_not_static gen hstatic]
    refine ⟨rfl, rfl, rfl, rfl, rfl, rfl, access_withDefaults _ gen, ?_, ?_, ?_, ?_⟩
    · refine (refreshInterval_eq (item.unmarked gen) gen).trans ?_
      simp only [hstatic, true_and]
      rfl
    all_goals
      rw [if_neg hnot]
      rfl

/-- The scripts that an item has or takes end. -/
structure ScriptsEnd (js : ScriptEnv D) (bundle : BundleFile) (gen item : Item D) : Prop where
  parse : ScriptEnds js bundle (item.parseParameters.or gen.parseParameters)
  read : ScriptEnds js bundle (item.readParameters.or gen.readParameters)
  write : ScriptEnds js bundle (item.writeParameters.or gen.writeParameters)

section BundleItem

variable {js : ScriptEnv D} {bundle : BundleFile} {gen item merged : Item D}

theorem resolved_eq_some (h : item.resolved js bundle = some merged) :
    ∃ parseParameters readParameters writeParameters,
      resolveBundleParamScript js bundle item.parseParameters = some parseParameters ∧
      resolveBundleParamScript js bundle item.readParameters = some readParameters ∧
      resolveBundleParamScript js bundle item.writeParameters = some writeParameters ∧
      merged = { item with parseParameters, readParameters, writeParameters } := by
  unfold Item.resolved at h
  obtain ⟨parseParameters, hparse, h⟩ := bind_eq_some_iff.mp h
  obtain ⟨readParameters, hread, h⟩ := bind_eq_some_iff.mp h
  obtain ⟨writeParameters, hwrite, h⟩ := bind_eq_some_iff.mp h
  exact ⟨parseParameters, readParameters, writeParameters, hparse, hread, hwrite,
    (some_inj.mp h).symm⟩

theorem isSome_resolved_iff : (item.resolved js bundle).isSome = true ↔
    ScriptEnds js bundle item.parseParameters ∧ ScriptEnds js bundle item.readParameters ∧
      ScriptEnds js bundle item.writeParameters := by
  rw [← isSome_resolve_iff, ← isSome_resolve_iff, ← isSome_resolve_iff]
  constructor
  · intro h
    obtain ⟨loaded, hloaded⟩ := isSome_iff_exists.mp h
    obtain ⟨parse, read, write, hparse, hread, hwrite, -⟩ := resolved_eq_some hloaded
    rw [hparse, hread, hwrite]
    exact ⟨rfl, rfl, rfl⟩
  · rintro ⟨hparse, hread, hwrite⟩
    obtain ⟨parse, hparse⟩ := isSome_iff_exists.mp hparse
    obtain ⟨read, hread⟩ := isSome_iff_exists.mp hread
    obtain ⟨write, hwrite⟩ := isSome_iff_exists.mp hwrite
    unfold Item.resolved
    rw [hparse, hread, hwrite]
    rfl

theorem isSome_mergeBundleItem_iff : (mergeBundleItem js bundle gen item).isSome = true ↔
    (item.isStatic = false → ScriptsEnd js bundle gen item) := by
  unfold mergeBundleItem
  simp only
  rw [isSome_map]
  cases hstatic : item.isStatic with
  | true =>
    rw [if_pos (show (item.unmarked gen).isStatic = true from hstatic)]
    exact ⟨fun _ h => (nomatch h), fun _ => rfl⟩
  | false =>
    have hnot : ¬ (item.unmarked gen).isStatic = true := fun h =>
      Bool.false_ne_true (hstatic.symm.trans h)
    rw [if_neg hnot, isSome_resolved_iff]
    exact ⟨fun h _ => ⟨h.1, h.2.1, h.2.2⟩, fun h => ⟨(h rfl).parse, (h rfl).read, (h rfl).write⟩⟩

theorem mergedFrom_mergeBundleItem (h : mergeBundleItem js bundle gen item = some merged) :
    MergedFrom (WithScript js bundle) gen item merged := by
  unfold mergeBundleItem at h
  simp only at h
  obtain ⟨loaded, hloaded, rfl⟩ := map_eq_some_iff.mp h
  cases hstatic : item.isStatic with
  | true =>
    rw [if_pos (show (item.unmarked gen).isStatic = true from hstatic)] at hloaded
    rw [← some_inj.mp hloaded]
    refine ⟨rfl, rfl, rfl, rfl, rfl, rfl, access_withDefaults _ gen, ?_, ?_, ?_, ?_⟩
    · rw [if_neg fun h => Bool.false_ne_true (h.1.symm.trans hstatic)]
      rfl
    all_goals
      rw [if_pos hstatic]
      exact .inl rfl
  | false =>
    have hnot : ¬ item.isStatic = true := fun h => Bool.false_ne_true (hstatic.symm.trans h)
    rw [if_neg (show ¬ (item.unmarked gen).isStatic = true from hnot)] at hloaded
    obtain ⟨parse, read, write, hparse, hread, hwrite, rfl⟩ := resolved_eq_some hloaded
    refine ⟨rfl, rfl, rfl, rfl, rfl, rfl, access_withDefaults _ gen, ?_, ?_, ?_, ?_⟩
    · refine (refreshInterval_eq (item.unmarked gen) gen).trans ?_
      simp only [hstatic, true_and]
      rfl
    all_goals rw [if_neg hnot]
    · exact .inr hparse
    · exact .inr hread
    · exact .inr hwrite

end BundleItem

/-! ## What the object says -/

/-- What `DDF_ParseItem` reads of the properties that the object has is there. -/
structure HasGiven (loads : Option (JsonObject D) → Option (JsonObject D) → Prop)
    (obj : JsonObject D) (given item : Item D) : Prop where
  isPublic : contains obj "public" = true → item.isPublic = given.isPublic
  isImplicit : contains obj "implicit" = true → item.isImplicit = given.isImplicit
  isManaged : contains obj "managed" = true → item.isManaged = given.isManaged
  awake : contains obj "awake" = true → item.awake = given.awake
  isStatic : contains obj "static" = true → item.isStatic = given.isStatic ∧ item.defaultValue =
    given.defaultValue
  defaultValue : contains obj "default" = true → item.defaultValue = given.defaultValue
  parse : contains obj "parse" = true → loads given.parseParameters item.parseParameters
  read : contains obj "read" = true → loads given.readParameters item.readParameters
  write : contains obj "write" = true → loads given.writeParameters item.writeParameters
  refreshInterval : contains obj "refresh.interval" = true → item.refreshInterval =
    given.refreshInterval
  access : contains obj "access" = true → item.descriptor.access = given.descriptor.access

/-- The generic item does not overrule what the object says. -/
structure Agrees (env : DdfEnv D) (obj : JsonObject D) (rid : Descriptor) (gen : Item D) :
    Prop where
  isImplicit : contains obj "implicit" = true → gen.isImplicit = boolOf (value obj "implicit")
  isManaged : contains obj "managed" = true → gen.isManaged = boolOf (value obj "managed")
  parse : contains obj "static" = false → contains obj "parse" = true →
    objectOf? (value obj "parse") = none → gen.parseParameters = none
  read : contains obj "static" = false → contains obj "read" = true → objectOf? (value obj "read") =
    none → gen.readParameters = none
  write : contains obj "static" = false → contains obj "write" = true →
    objectOf? (value obj "write") = none → gen.writeParameters = none
  refreshInterval : contains obj "static" = false → contains obj "refresh.interval" = true →
    intOf env 0 (value obj "refresh.interval") = -1 → gen.refreshInterval = -1
  access : contains obj "access" = true → (accessOf obj rid).access = .unknown →
    gen.descriptor.access = .unknown

section Given

variable {env : DdfEnv D} {loads : Option (JsonObject D) → Option (JsonObject D) → Prop}
  {obj : JsonObject D} {name : String} {rid : Descriptor} {gen item merged : Item D}

/-- An item whose descriptor was found, field by field -/
structure Described (env : DdfEnv D) (obj : JsonObject D) (rid : Descriptor) (item : Item D) :
    Prop where
  descriptor : item.descriptor = accessOf obj rid
  isPublic : item.isPublic = boolOf (value obj "public")
  hasIsPublic : item.hasIsPublic = contains obj "public"
  isImplicit : item.isImplicit = boolOf (value obj "implicit")
  isManaged : item.isManaged = boolOf (value obj "managed")
  isStatic : item.isStatic = contains obj "static"
  defaultValue : contains obj "static" = true ∨ contains obj "default" = true → item.defaultValue ≠
    none
  parameters : contains obj "static" = false → item.parseParameters =
    objectOf? (value obj "parse") ∧ item.readParameters = objectOf? (value obj "read") ∧
      item.writeParameters = objectOf? (value obj "write")
  refreshInterval : contains obj "static" = false → contains obj "refresh.interval" = true →
    item.refreshInterval = intOf env 0 (value obj "refresh.interval")

theorem described_describedItem (env : DdfEnv D) (obj : JsonObject D) (name : String)
    (rid : Descriptor) : Described env obj rid (describedItem env obj name rid) := by
  unfold describedItem
  simp only
  cases hstatic : contains obj "static" with
  | true =>
    exact ⟨rfl, rfl, rfl, rfl, rfl, hstatic.symm, fun _ h => (nomatch h),
      fun h => absurd (hstatic.symm.trans h) Bool.true_eq_false.mp,
      fun h => absurd (hstatic.symm.trans h) Bool.true_eq_false.mp⟩
  | false =>
    refine ⟨rfl, rfl, rfl, rfl, rfl, hstatic.symm, fun h => ?_, fun _ => ⟨rfl, rfl, rfl⟩,
      fun _ h => ?_⟩
    · have hdefault := h.resolve_left fun h => Bool.false_ne_true (hstatic.symm.trans h)
      rw [if_neg Bool.false_ne_true]
      simp only
      rw [if_pos hdefault]
      exact some_ne_none _
    · exact if_pos h

theorem loads_given_iff (hkeeps : Keeps loads) {isStatic : Bool}
    {given taken loaded : Option (JsonObject D)}
    (h : loads (if isStatic then given else given.or taken) loaded) :
    loads given loaded ↔ (isStatic = false → given = none → taken = none) := by
  cases isStatic with
  | true =>
    rw [if_pos rfl] at h
    exact ⟨fun _ hstatic => (nomatch hstatic), fun _ => h⟩
  | false =>
    rw [if_neg Bool.false_ne_true] at h
    -- parameters that were read stay, and none are taken from the generic item
    cases given with
    | some map => exact ⟨fun _ _ h => (nomatch h), fun _ => h⟩
    | none =>
      rw [none_or] at h
      constructor
      · intro hnone _ _
        exact (hkeeps.iff _ _ h).mpr ((hkeeps.iff _ _ hnone).mp rfl)
      · intro htaken
        rw [(hkeeps.iff _ _ h).mp (htaken rfl rfl)]
        exact hkeeps.absent

theorem access_given_iff (hitem : Described env obj rid item)
    (hmerged : MergedFrom loads gen item merged) :
    merged.descriptor.access = item.descriptor.access ↔
      ((accessOf obj rid).access = .unknown → gen.descriptor.access = .unknown) := by
  rw [hmerged.access, hitem.descriptor]
  split
  · rename_i hunknown
    rw [hunknown]
    exact ⟨fun h _ => h, fun h => h rfl⟩
  · rename_i hknown
    exact ⟨fun _ h => absurd h hknown, fun _ => rfl⟩

theorem refreshInterval_given_iff (hmerged : MergedFrom loads gen item merged) :
    merged.refreshInterval = item.refreshInterval ↔
      (item.isStatic = false → item.refreshInterval = -1 → gen.refreshInterval = -1) := by
  rw [hmerged.refreshInterval]
  split
  · rename_i htaken
    rw [htaken.2]
    exact ⟨fun h _ _ => h, fun h => h htaken.1 rfl⟩
  · rename_i hkept
    exact ⟨fun _ hstatic hnone => absurd ⟨hstatic, hnone⟩ hkept, fun _ => rfl⟩

/-- **An item and its generic item**: what the object says is there exactly if the generic item
agrees where the merge does not see it. -/
theorem hasGiven_iff (hkeeps : Keeps loads) (hitem : Described env obj rid item)
    (hmerged : MergedFrom loads gen item merged) :
    HasGiven loads obj item merged ↔ Agrees env obj rid gen := by
  have haccess := access_given_iff hitem hmerged
  have hrefresh := refreshInterval_given_iff hmerged
  have hparse := loads_given_iff hkeeps hmerged.parse
  have hread := loads_given_iff hkeeps hmerged.read
  have hwrite := loads_given_iff hkeeps hmerged.write
  rw [hitem.isStatic] at hrefresh hparse hread hwrite
  constructor
  · intro h
    refine ⟨fun hsaid => ?_, fun hsaid => ?_, fun hstatic hsaid => ?_, fun hstatic hsaid => ?_,
      fun hstatic hsaid => ?_, fun hstatic hsaid => ?_, fun hsaid => haccess.mp (h.access hsaid)⟩
    · rw [← hitem.isImplicit, ← h.isImplicit hsaid, hmerged.isImplicit]
    · rw [← hitem.isManaged, ← h.isManaged hsaid, hmerged.isManaged]
    · rw [← (hitem.parameters hstatic).1]
      exact hparse.mp (h.parse hsaid) hstatic
    · rw [← (hitem.parameters hstatic).2.1]
      exact hread.mp (h.read hsaid) hstatic
    · rw [← (hitem.parameters hstatic).2.2]
      exact hwrite.mp (h.write hsaid) hstatic
    · rw [← hitem.refreshInterval hstatic hsaid]
      exact hrefresh.mp (h.refreshInterval hsaid) hstatic
  · intro h
    have hdefault : contains obj "static" = true ∨ contains obj "default" = true →
        merged.defaultValue = item.defaultValue := by
      intro hsaid
      obtain ⟨v, hv⟩ := ne_none_iff_exists'.mp (hitem.defaultValue hsaid)
      rw [hmerged.defaultValue, hv]
      rfl
    refine ⟨fun hsaid => ?_, fun hsaid => ?_, fun hsaid => ?_, fun _ => hmerged.awake,
      fun hsaid => ⟨hmerged.isStatic, hdefault (.inl hsaid)⟩, fun hsaid => hdefault (.inr hsaid),
      fun hsaid => hparse.mpr fun hstatic => ?_, fun hsaid => hread.mpr fun hstatic => ?_,
      fun hsaid => hwrite.mpr fun hstatic => ?_, fun hsaid => hrefresh.mpr fun hstatic => ?_,
      fun hsaid => haccess.mpr (h.access hsaid)⟩
    · rw [hmerged.isPublic, hitem.hasIsPublic, if_pos hsaid]
    · rw [hmerged.isImplicit, hitem.isImplicit, h.isImplicit hsaid]
    · rw [hmerged.isManaged, hitem.isManaged, h.isManaged hsaid]
    · rw [(hitem.parameters hstatic).1]
      exact h.parse hstatic hsaid
    · rw [(hitem.parameters hstatic).2.1]
      exact h.read hstatic hsaid
    · rw [(hitem.parameters hstatic).2.2]
      exact h.write hstatic hsaid
    · rw [hitem.refreshInterval hstatic hsaid]
      exact h.refreshInterval hstatic hsaid

/-- No generic item of the suffix overrules what the object says. -/
def NotOverruled (env : DdfEnv D) (genericItems : List (Item D)) (obj : JsonObject D) : Prop :=
  ∀ rid gen, env.descriptor (itemName obj) = some rid → genericItem? genericItems rid.suffix =
    some gen → Agrees env obj rid gen

theorem described_of_isValid (h : (parseItem env obj).isValid = true) :
    ∃ rid, env.descriptor (itemName obj) = some rid ∧ Described env obj rid (parseItem env obj) ∧
      (parseItem env obj).descriptor.suffix = rid.suffix := by
  obtain ⟨-, rid, hrid, -, hitem⟩ := parseItem_of_isValid h
  rw [hitem, descriptor_describedItem, suffix_accessOf]
  exact ⟨rid, hrid, described_describedItem env obj (itemName obj) rid, rfl⟩

theorem hasGiven_self (hloads : ∀ param, loads param param) (obj : JsonObject D)
    (item : Item D) : HasGiven loads obj item item :=
  ⟨fun _ => rfl, fun _ => rfl, fun _ => rfl, fun _ => rfl, fun _ => ⟨rfl, rfl⟩, fun _ => rfl,
    fun _ => hloads _, fun _ => hloads _, fun _ => hloads _, fun _ => rfl, fun _ => rfl⟩

variable {genericItems : List (Item D)}

theorem notOverruled_iff (hrid : env.descriptor (itemName obj) = some rid)
    (hgen : genericItem? genericItems rid.suffix = some gen) :
    NotOverruled env genericItems obj ↔ Agrees env obj rid gen := by
  constructor
  · exact fun hall => hall rid gen hrid hgen
  · intro hagrees rid' gen' hrid' hgen'
    obtain rfl := some_inj.mp (hrid.symm.trans hrid')
    obtain rfl := some_inj.mp (hgen.symm.trans hgen')
    exact hagrees

theorem notOverruled_of_none (hrid : env.descriptor (itemName obj) = some rid)
    (hgen : genericItem? genericItems rid.suffix = none) :
    NotOverruled env genericItems obj := by
  intro rid' gen' hrid' hgen'
  obtain rfl := some_inj.mp (hrid.symm.trans hrid')
  exact absurd (hgen.symm.trans hgen') (some_ne_none gen').symm

theorem hasGiven_mergeGeneric_iff (h : (parseItem env obj).isValid = true) :
    HasGiven Eq obj (parseItem env obj) (mergeGeneric genericItems (parseItem env obj)) ↔
      NotOverruled env genericItems obj := by
  obtain ⟨rid, hrid, hdescribed, hsuffix⟩ := described_of_isValid h
  unfold mergeGeneric
  rw [hsuffix]
  cases hgen : genericItem? genericItems rid.suffix with
  | none =>
    exact iff_of_true (hasGiven_self (fun _ => rfl) obj _) (notOverruled_of_none hrid hgen)
  | some gen =>
    rw [notOverruled_iff hrid hgen]
    exact hasGiven_iff keeps_eq hdescribed (mergedFrom_mergeItem gen _)

theorem hasGiven_mergeGenericBundle_iff {js : ScriptEnv D} {bundle : BundleFile}
    (h : (parseItem env obj).isValid = true)
    (hmerged : mergeGenericBundle js bundle genericItems (parseItem env obj) = some merged) :
    HasGiven (WithScript js bundle) obj (parseItem env obj) merged ↔
      NotOverruled env genericItems obj := by
  obtain ⟨rid, hrid, hdescribed, hsuffix⟩ := described_of_isValid h
  unfold mergeGenericBundle at hmerged
  rw [hsuffix] at hmerged
  cases hgen : genericItem? genericItems rid.suffix with
  | none =>
    rw [hgen] at hmerged
    rw [← some_inj.mp hmerged]
    exact iff_of_true (hasGiven_self (fun _ => .inl rfl) obj _) (notOverruled_of_none hrid hgen)
  | some gen =>
    rw [hgen] at hmerged
    rw [notOverruled_iff hrid hgen]
    exact hasGiven_iff (keeps_withScript js bundle) hdescribed
      (mergedFrom_mergeBundleItem hmerged)

end Given

/-! ## Descriptions -/

def DeviceDescription.itemAt (ddf : DeviceDescription D) (i j : Nat) : Option (Item D) :=
  ddf.subDevices[i]?.bind fun sub => sub.items[j]?

def AllScriptsEnd (js : ScriptEnv D) (bundle : BundleFile) (genericItems : List (Item D))
    (ddf : DeviceDescription D) : Prop :=
  ∀ sub ∈ ddf.subDevices, ∀ item ∈ sub.items, ∀ gen,
    genericItem? genericItems item.descriptor.suffix = some gen → item.isStatic = false →
    ScriptsEnd js bundle gen item

section Description

variable {js : ScriptEnv D} {bundle : BundleFile} {genericItems : List (Item D)}
  {ddf merged : DeviceDescription D}

theorem itemAt_mergeGenericItems (genericItems : List (Item D)) (ddf : DeviceDescription D)
    (i j : Nat) :
    (mergeGenericItems genericItems ddf).itemAt i j =
      (ddf.itemAt i j).map (mergeGeneric genericItems) := by
  unfold mergeGenericItems DeviceDescription.itemAt
  simp only
  rw [List.getElem?_map]
  cases ddf.subDevices[i]? with
  | none => rfl
  | some sub => exact List.getElem?_map

theorem itemAt_mergeGenericBundleItems
    (h : mergeGenericBundleItems js bundle genericItems ddf = some merged) (i j : Nat) :
    merged.itemAt i j = (ddf.itemAt i j).bind (mergeGenericBundle js bundle genericItems) := by
  unfold mergeGenericBundleItems at h
  obtain ⟨subs, hsubs, rfl⟩ := map_eq_some_iff.mp h
  unfold DeviceDescription.itemAt
  simp only
  rw [getElem?_of_mapM hsubs i]
  cases hsub : ddf.subDevices[i]? with
  | none => rfl
  | some sub =>
    simp only [bind_some]
    have hall := isSome_mapM_iff.mp (isSome_of_eq_some hsubs) sub
      (List.mem_of_getElem? hsub)
    obtain ⟨sub', hsub'⟩ := isSome_iff_exists.mp hall
    rw [hsub', bind_some]
    unfold mergeBundleSubDevice at hsub'
    obtain ⟨items, hitems, rfl⟩ := map_eq_some_iff.mp hsub'
    exact getElem?_of_mapM hitems j

theorem isSome_mergeGenericBundle_iff {item : Item D} :
    (mergeGenericBundle js bundle genericItems item).isSome = true ↔
      ∀ gen, genericItem? genericItems item.descriptor.suffix = some gen → item.isStatic = false →
        ScriptsEnd js bundle gen item := by
  unfold mergeGenericBundle
  cases genericItem? genericItems item.descriptor.suffix with
  | none => exact ⟨fun _ gen h => (nomatch h), fun _ => rfl⟩
  | some gen =>
    simp only [Option.some.injEq, forall_eq']
    exact isSome_mergeBundleItem_iff

theorem isSome_mergeGenericBundleItems_iff :
    (mergeGenericBundleItems js bundle genericItems ddf).isSome = true ↔
      AllScriptsEnd js bundle genericItems ddf := by
  unfold mergeGenericBundleItems AllScriptsEnd
  rw [isSome_map, isSome_mapM_iff]
  refine forall₂_congr fun sub _ => ?_
  unfold mergeBundleSubDevice
  rw [isSome_map, isSome_mapM_iff]
  exact forall₂_congr fun item _ => isSome_mergeGenericBundle_iff

/-- **What a description says wins** over the generic items, in both merges, exactly if no generic
item overrules it; and the merge of a bundle ends exactly if the scripts do. -/
theorem given_wins_iff (env : DdfEnv D) (js : ScriptEnv D) (bundle : BundleFile)
    (genericItems : List (Item D)) (ddf : DeviceDescription D) {i j : Nat} {obj : JsonObject D}
    (hitem : ddf.itemAt i j = some (parseItem env obj))
    (hvalid : (parseItem env obj).isValid = true) :
    ((∃ item, (mergeGenericItems genericItems ddf).itemAt i j = some item ∧
        HasGiven Eq obj (parseItem env obj) item) ↔ NotOverruled env genericItems obj) ∧
      ((∃ merged item, mergeGenericBundleItems js bundle genericItems ddf = some merged ∧
          merged.itemAt i j = some item ∧
          HasGiven (WithScript js bundle) obj (parseItem env obj) item) ↔
        NotOverruled env genericItems obj ∧ AllScriptsEnd js bundle genericItems ddf) := by
  constructor
  · rw [itemAt_mergeGenericItems, hitem, map_some]
    simp only [Option.some.injEq, exists_eq_left']
    exact hasGiven_mergeGeneric_iff hvalid
  · constructor
    · rintro ⟨merged, item, hmerged, hat, hgiven⟩
      rw [itemAt_mergeGenericBundleItems hmerged, hitem] at hat
      exact ⟨(hasGiven_mergeGenericBundle_iff hvalid hat).mp hgiven,
        isSome_mergeGenericBundleItems_iff.mp (isSome_of_eq_some hmerged)⟩
    · rintro ⟨hnot, hends⟩
      obtain ⟨merged, hmerged⟩ :=
        isSome_iff_exists.mp (isSome_mergeGenericBundleItems_iff.mpr hends)
      obtain ⟨sub, hsub, hmem⟩ := bind_eq_some_iff.mp hitem
      -- all scripts end, so those of this item do
      have hends' := hends sub (List.mem_of_getElem? hsub) _ (List.mem_of_getElem? hmem)
      obtain ⟨item, hat⟩ := isSome_iff_exists.mp (isSome_mergeGenericBundle_iff.mpr hends')
      refine ⟨merged, item, hmerged, ?_, (hasGiven_mergeGenericBundle_iff hvalid hat).mpr hnot⟩
      rw [itemAt_mergeGenericBundleItems hmerged, hitem]
      exact hat

end Description

def onlyOn : DdfEnv Unit where
  toInt _ := none
  ofInt _ := ()
  reread := id
  descriptor name :=
    if name = "state/on" then some { suffix := "state/on", isValid := true } else none

def noScripts : ScriptEnv Unit := { toText := textOf, testCompile := fun _ => true }

def emptyBundle : BundleFile := { data := [], extChunks := [] }

/-- `state/on` with one more property -/
def stateOnWith (key : String) (v : QVariant Unit) : JsonObject Unit :=
  [(ofLatin1 "name", .string (ofLatin1 "state/on")), (ofLatin1 key, v)]

def lightOf (obj : JsonObject Unit) : DeviceDescription Unit :=
  { onOffLight with
      subDevices := onOffLight.subDevices.map fun sub =>
        { sub with items := [parseItem onlyOn obj] } }

theorem publicOn_not_overruled :
    NotOverruled onlyOn [genericOn] (stateOnWith "public" (.bool true)) := fun _ _ _ _ =>
  ⟨fun h => absurd h (by decide), fun h => absurd h (by decide),
    fun _ h => absurd h (by decide), fun _ h => absurd h (by decide),
    fun _ h => absurd h (by decide), fun _ h => absurd h (by decide),
    fun h => absurd h (by decide)⟩

theorem publicOn_wins :
    ∃ item, (mergeGenericItems [genericOn]
        (lightOf (stateOnWith "public" (.bool true)))).itemAt 0 0 = some item ∧
      HasGiven Eq (stateOnWith "public" (.bool true))
        (parseItem onlyOn (stateOnWith "public" (.bool true))) item :=
  (given_wins_iff onlyOn noScripts emptyBundle [genericOn] (lightOf _) rfl
    (by decide +kernel)).1.mpr publicOn_not_overruled

/-- An item that says that it is implicit is not, if the generic item does not say it. -/
theorem implicitOn_overruled :
    ¬ ∀ (genericItems : List (Item Unit)) (ddf : DeviceDescription Unit) (i j : Nat)
      (obj : JsonObject Unit), ddf.itemAt i j = some (parseItem onlyOn obj) →
      (parseItem onlyOn obj).isValid = true →
      ∃ item, (mergeGenericItems genericItems ddf).itemAt i j = some item ∧
        HasGiven Eq obj (parseItem onlyOn obj) item := by
  intro hall
  obtain ⟨item, hat, hgiven⟩ := hall [genericOn] (lightOf (stateOnWith "implicit" (.bool true)))
    0 0 (stateOnWith "implicit" (.bool true)) rfl (by decide +kernel)
  rw [itemAt_mergeGenericItems] at hat
  have himplicit := hgiven.isImplicit (by decide)
  rw [← some_inj.mp hat] at himplicit
  exact absurd himplicit (by decide +kernel)

end DeviceObject
end DeconzRest

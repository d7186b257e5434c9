import DeconzRest.Ddf.Atoms
import DeconzRest.Ddf.Handles

/-!
# The selection of a description

`DeviceDescriptions::get` collects the descriptions whose identifiers and match expression fit a
resource, splits them up into raw JSON files and bundles with a stable signature, a beta signature
and neither, and picks one by the policy of the device.  When no further description is found, the
files for the identifiers are loaded, once, and the search starts again.
-/

namespace DeconzRest
namespace Ddf

open List Option

/-- The values of `attr/ddf_policy` -/
inductive Policy where
  | latestPreferStable
  | latest
  | pin
  | rawJson
  | other
deriving DecidableEq, Repr

/-- `DDF_MatchControl` -/
inductive MatchControl where
  | evalMatchExpr
  | ignoreMatchExpr
deriving DecidableEq, Repr

/-- What `get` reads of a resource: the atoms of the model identifier and the manufacturer name, the
type, and the policy and hash of the parent resource, or its own when it has none. -/
structure DdfResource where
  modelid : Nat
  mfname : Nat
  type : Option (List UInt8) := none
  policy : Option Policy := none
  ddfHash : Option (List UInt8) := none
deriving DecidableEq, Repr

/-- What `get` asks for: the strings of the atoms, whether a match expression evaluates to true for
the resource, the 32 bytes of a hash written in hex, and the files to be loaded. -/
structure DdfSources where
  atomString : Nat → List UInt8
  evaluates : String → Bool
  hexBytes : List UInt8 → List UInt8
  raw : RawJson
  bundles : List BundleFile

structure DdfState where
  table : DescriptionTable
  ddfLoadRecords : List LoadRecord := []

/-- What `get` returns: a description of the table by its index, or the invalid description; or it
indexes outside of the table. -/
inductive GetResult where
  | found (index : Nat)
  | invalid
  | outside
deriving DecidableEq, Repr

/-- The size of `matchedIndices` -/
def maxMatches : Nat := 16

/-- The predicate of `find_if` -/
def identifierMatches (atomString : Nat → List UInt8) (modelid mfname : Nat)
    (ddf : DeviceDescription) : Bool :=
  if ddf.mfnameAtomIndices.length ≠ ddf.modelidAtomIndices.length then false
  else
    (ddf.mfnameAtomIndices.zip ddf.modelidAtomIndices).any fun pair =>
      pair.2 == modelid &&
        (pair.1 == mfname ||
          atomLowerCaseStringHash atomString mfname == atomLowerCaseStringHash atomString pair.1)

/-- The match expression is empty, or not to be evaluated, or holds. -/
def exprHolds (src : DdfSources) (control : MatchControl) (ddf : DeviceDescription) : Bool :=
  if ¬ ddf.matchExpr = "" ∧ control = .evalMatchExpr then src.evaluates ddf.matchExpr else true

/-- The loop over the descriptions, from the one that `i` points at on -/
def matchLoop (src : DdfSources) (control : MatchControl) (r : DdfResource) :
    List Int → List DeviceDescription → List Int
  | matched, [] => matched
  | matched, ddf :: rest =>
    if matched.length < maxMatches then
      if identifierMatches src.atomString r.modelid r.mfname ddf && exprHolds src control ddf then
        matchLoop src control r (matched ++ [ddf.handle]) rest
      else matchLoop src control r matched rest
    else matched

/-- `DeviceDescriptions::readAll` -/
def readAll (src : DdfSources) (d : DescriptionTable) : DescriptionTable :=
  readAllBundles src.raw.atomOf src.bundles (readAllRawJson src.raw d)

/-- `DeviceDescriptions::loadDDFAndBundlesFromDisc` -/
def loadDDFAndBundlesFromDisc (src : DdfSources) (r : DdfResource) (s : DdfState) :
    Bool × DdfState :=
  if r.modelid = 0 ∨ r.mfname = 0 then (false, s)
  else
    let mfnameLowerCaseHash := atomLowerCaseStringHash src.atomString r.mfname
    if s.ddfLoadRecords.any fun loadRecord =>
        (loadRecord.mfnameLowerCaseHash == mfnameLowerCaseHash && loadRecord.modelid == r.modelid) ||
          (loadRecord.mfname == r.mfname && loadRecord.modelid == r.modelid) then
      (false, s)
    else
      let loadRecord : LoadRecord :=
        { modelid := r.modelid, mfname := r.mfname, mfnameLowerCaseHash }
      let table := readAll src s.table
      (decide (s.table.descriptions.length < table.descriptions.length),
        { table, ddfLoadRecords := s.ddfLoadRecords ++ [loadRecord] })

/-! ## Selection -/

abbrev Entry := Nat × DeviceDescription

/-- The index variables of the categories -/
structure Best where
  rawJson : Option Entry := none
  latestStable : Option Entry := none
  latestBeta : Option Entry := none
  latestUser : Option Entry := none

/-- A bundle replaces an older one of its category. -/
def newer (best : Option Entry) (e : Entry) : Option Entry :=
  match best with
  | none => some e
  | some e0 => if e0.2.lastModified < e.2.lastModified then some e else some e0

/-- A raw JSON file replaces a draft, and one of the user one of the system. -/
def betterRawJson (best : Option Entry) (e : Entry) : Option Entry :=
  match best with
  | none => some e
  | some e0 =>
    if e0.2.status = "Draft" then some e
    else if e.2.storageLocation = some .ddfUserLocation ∧ e0.2.storageLocation =
        some .ddfLocation then
      some e
    else some e0

/-- One turn of the loop that splits the matches up -/
def classify (best : Best) (e : Entry) : Best :=
  match e.2.storageLocation with
  | some .ddfLocation | some .ddfUserLocation =>
    { best with rawJson := betterRawJson best.rawJson e }
  | some .ddfBundleUserLocation | some .ddfBundleLocation =>
    { best with
      latestStable := if e.2.signedBy.getLsbD 0 then newer best.latestStable e else best.latestStable
      latestBeta := if e.2.signedBy.getLsbD 1 then newer best.latestBeta e else best.latestBeta
      latestUser :=
        if ¬ e.2.signedBy.getLsbD 0 ∧ ¬ e.2.signedBy.getLsbD 1 then newer best.latestUser e
        else best.latestUser }
  | none => best

/-- The loop over the categories: it compares with the description at the number `i` of the
category. -/
def bestMatchLoop (descriptions : List DeviceDescription) : Nat → Nat → Nat → GetResult
  | 0, _, bestMatch => .found bestMatch
  | n + 1, i, bestMatch =>
    match descriptions[bestMatch]?, descriptions[i]? with
    | some ddf0, some ddf1 =>
      bestMatchLoop descriptions n (i + 1)
        (if ddf0.lastModified < ddf1.lastModified then i else bestMatch)
    | _, _ => .outside

def newestBundle (descriptions : List DeviceDescription) (best : Best) : Option GetResult :=
  match [best.latestStable, best.latestBeta, best.latestUser].filterMap id with
  | [] => none
  | first :: others => some (bestMatchLoop descriptions others.length 1 first.1)

def found (e : Entry) : GetResult := .found e.1

/-- The hash in `attr/ddf_hash`; it must have 64 digits. -/
def pinnedHash (src : DdfSources) (r : DdfResource) : Option (List UInt8) :=
  match r.ddfHash with
  | none => none
  | some str => if str.length = 64 then some (src.hexBytes str) else none

def choose (policy : Policy) (hash : Option (List UInt8)) (descriptions : List DeviceDescription)
    (entries : List Entry) : GetResult :=
  let best := entries.foldl classify {}
  let rawJsonChoice := if policy = .rawJson then best.rawJson.map found else none
  let stableChoice := if policy = .latestPreferStable then best.latestStable.map found else none
  let latestChoice :=
    if policy = .latest ∨ policy = .latestPreferStable then newestBundle descriptions best else none
  let pinChoice :=
    if policy = .pin then
      hash.bind fun hash => (entries.find? fun e => e.2.sha256Hash == hash).map found
    else none
  let fallback :=
    (best.latestStable.or (best.latestBeta.or (best.latestUser.or best.rawJson))).map found
  (rawJsonChoice.or (stableChoice.or (latestChoice.or (pinChoice.or fallback)))).getD .invalid

/-- The description that an index from `matchedIndices` refers to -/
def entryAt (descriptions : List DeviceDescription) (index : Int) : Option Entry :=
  if index < 0 then none else (descriptions[index.toNat]?).map fun ddf => (index.toNat, ddf)

/-- The part of `get` behind the search -/
def select (src : DdfSources) (r : DdfResource) (descriptions : List DeviceDescription)
    (matched : List Int) : GetResult :=
  match matched.mapM (entryAt descriptions) with
  | none => .outside
  | some entries =>
    choose (r.policy.getD .latestPreferStable) (pinnedHash src r) descriptions entries

/-- The types that have no description: ZGP devices, and the configuration tool -/
def isFiltered (type : List UInt8) : Bool :=
  [0x5A, 0x47].isPrefixOf type || [0x43, 0x6F, 0x6E].isPrefixOf type

/-- `DeviceDescriptions::get` -/
def get (src : DdfSources) (control : MatchControl) (r : DdfResource) (s : DdfState) :
    DdfState × GetResult :=
  if (r.type.map isFiltered).getD false then (s, .invalid)
  else if r.modelid = 0 ∨ r.mfname = 0 then (s, .invalid)
  else
    let matched := matchLoop src control r [] s.table.descriptions
    if matched.length < maxMatches then
      let (loaded, s) := loadDDFAndBundlesFromDisc src r s
      -- What is loaded once is not loaded again at the end of the second search.
      let matched := if loaded then matchLoop src control r matched s.table.descriptions else matched
      (s, select src r s.table.descriptions matched)
    else (s, select src r s.table.descriptions matched)

def isRawJson (ddf : DeviceDescription) : Bool :=
  ddf.storageLocation == some .ddfLocation || ddf.storageLocation == some .ddfUserLocation

def isBundle (ddf : DeviceDescription) : Bool :=
  ddf.storageLocation == some .ddfBundleLocation ||
    ddf.storageLocation == some .ddfBundleUserLocation

def isStable (ddf : DeviceDescription) : Bool := isBundle ddf && ddf.signedBy.getLsbD 0

def isBeta (ddf : DeviceDescription) : Bool := isBundle ddf && ddf.signedBy.getLsbD 1

def isUser (ddf : DeviceDescription) : Bool :=
  isBundle ddf && !ddf.signedBy.getLsbD 0 && !ddf.signedBy.getLsbD 1

/-- One of the matching descriptions is of a kind. -/
def Has (matching : List Entry) (kind : DeviceDescription → Bool) : Prop :=
  ∃ e ∈ matching, kind e.2 = true

/-- The result is a description of a kind, and none of this kind is newer. -/
def IsNewest (matching : List Entry) (kind : DeviceDescription → Bool) (result : GetResult) :
    Prop :=
  ∃ e ∈ matching, kind e.2 = true ∧ result = .found e.1 ∧ ∀ e' ∈ matching, kind e'.2 = true →
    e'.2.lastModified ≤ e.2.lastModified

/-- The result honours the policy for the matching descriptions.  The newest bundle of all kinds is
only spoken of where `settled` holds, and the bundle with the pinned hash where `own` holds of the
hash. -/
structure Honours (settled : Prop) (own : List UInt8 → Prop) (matching : List Entry)
    (policy : Policy) (hash : Option (List UInt8)) (result : GetResult) : Prop where
  latest : policy = .latest → settled → Has matching isBundle → IsNewest matching isBundle result
  stable : policy = .latestPreferStable → Has matching isStable → IsNewest matching isStable result
  notStable : policy = .latestPreferStable → settled → ¬ Has matching isStable →
    Has matching isBundle → IsNewest matching isBundle result
  pin : policy = .pin → ∀ h, hash = some h → own h →
    (∃ e ∈ matching, isBundle e.2 = true ∧ e.2.sha256Hash = h) → ∃ e ∈ matching, isBundle e.2 =
      true ∧ e.2.sha256Hash = h ∧ result = .found e.1
  rawJson : policy = .rawJson → Has matching isRawJson → ∃ e ∈ matching, isRawJson e.2 = true ∧
    result = .found e.1
  invalid : result = .invalid → matching = []

/-- The bundles are all in one of the categories, stable, beta and neither. -/
def SingleCategory (matching : List Entry) : Prop :=
  ¬ (Has matching isStable ∧ Has matching isBeta) ∧
    ¬ (Has matching isStable ∧ Has matching isUser) ∧
    ¬ (Has matching isBeta ∧ Has matching isUser)

/-! ## The categories -/

/-- A category takes what is of its kind. -/
def newerOf (kind : DeviceDescription → Bool) (best : Option Entry) (e : Entry) : Option Entry :=
  if kind e.2 then newer best e else best

theorem classify_eq (best : Best) (e : Entry) : classify best e =
    { rawJson := if isRawJson e.2 then betterRawJson best.rawJson e else best.rawJson
      latestStable := newerOf isStable best.latestStable e
      latestBeta := newerOf isBeta best.latestBeta e
      latestUser := newerOf isUser best.latestUser e } := by
  unfold classify newerOf isStable isBeta isUser isBundle isRawJson
  cases hlocation : e.2.storageLocation with
  | none => rfl
  | some location =>
    cases location with
    | ddfLocation | ddfUserLocation => rfl
    | ddfBundleLocation | ddfBundleUserLocation => simp

variable (entries : List Entry)

theorem foldl_classify (best : Best) : entries.foldl classify best =
    { rawJson := entries.foldl
        (fun best e => if isRawJson e.2 then betterRawJson best e else best) best.rawJson
      latestStable := entries.foldl (newerOf isStable) best.latestStable
      latestBeta := entries.foldl (newerOf isBeta) best.latestBeta
      latestUser := entries.foldl (newerOf isUser) best.latestUser } := by
  induction entries generalizing best with
  | nil => rfl
  | cons e entries ih =>
    simp only [foldl_cons]
    rw [ih, classify_eq]

/-- The variable of a category holds its newest entry. -/
structure NewestIn (kind : DeviceDescription → Bool) (entries : List Entry)
    (best : Option Entry) : Prop where
  none : best = none → ¬ Has entries kind
  some : ∀ e, best = some e → e ∈ entries ∧ kind e.2 = true ∧ ∀ e' ∈ entries, kind e'.2 = true →
    e'.2.lastModified ≤ e.2.lastModified

variable {kind : DeviceDescription → Bool} {best : Option Entry}

theorem newestIn_step {entries : List Entry} (h : NewestIn kind entries best) (e : Entry) :
    NewestIn kind (entries ++ [e]) (newerOf kind best e) := by
  unfold newerOf
  by_cases hkind : kind e.2 = true
  · rw [if_pos hkind]
    cases best with
    | none =>
      have hnone := h.none rfl
      refine ⟨fun heq => absurd heq (by simp [newer]), fun e' heq => ?_⟩
      rw [newer, Option.some.injEq] at heq
      subst heq
      refine ⟨mem_append_right _ (mem_singleton_self _), hkind, ?_⟩
      intro e' hmem hkind'
      rcases mem_append.mp hmem with hmem | hmem
      · exact absurd ⟨e', hmem, hkind'⟩ hnone
      · exact Int.le_of_eq (by rw [mem_singleton.mp hmem])
    | some e0 =>
      obtain ⟨hmem0, hkind0, hnewest0⟩ := h.some e0 rfl
      unfold newer
      by_cases hnewer : e0.2.lastModified < e.2.lastModified
      · simp only [hnewer, if_true]
        refine ⟨fun heq => absurd heq (by simp), fun e' heq => ?_⟩
        rw [Option.some.injEq] at heq
        subst heq
        refine ⟨mem_append_right _ (mem_singleton_self _), hkind, ?_⟩
        intro e' hmem hkind'
        rcases mem_append.mp hmem with hmem | hmem
        · exact Int.le_of_lt (Int.lt_of_le_of_lt (hnewest0 e' hmem hkind') hnewer)
        · exact Int.le_of_eq (by rw [mem_singleton.mp hmem])
      · simp only [hnewer, if_false]
        refine ⟨fun heq => absurd heq (by simp), fun e' heq => ?_⟩
        rw [Option.some.injEq] at heq
        subst heq
        refine ⟨mem_append_left _ hmem0, hkind0, ?_⟩
        intro e' hmem hkind'
        rcases mem_append.mp hmem with hmem | hmem
        · exact hnewest0 e' hmem hkind'
        · rw [mem_singleton.mp hmem]
          exact Int.not_lt.mp hnewer
  · rw [if_neg hkind]
    have hother : ∀ e' ∈ entries ++ [e], kind e'.2 = true → e' ∈ entries := by
      intro e' hmem hkind'
      rcases mem_append.mp hmem with hmem | hmem
      · exact hmem
      · rw [mem_singleton.mp hmem] at hkind'
        exact absurd hkind' hkind
    refine ⟨?_, ?_⟩
    · rintro heq ⟨e', hmem, hkind'⟩
      exact h.none heq ⟨e', hother e' hmem hkind', hkind'⟩
    · intro e' heq
      obtain ⟨hmem, hkind', hnewest⟩ := h.some e' heq
      exact ⟨mem_append_left _ hmem, hkind',
        fun e'' hmem' hkind'' => hnewest e'' (hother e'' hmem' hkind'') hkind''⟩

theorem newestIn (kind : DeviceDescription → Bool) (entries : List Entry) :
    NewestIn kind entries (entries.foldl (newerOf kind) none) := by
  have hstart : NewestIn kind [] none :=
    ⟨fun _ h => absurd h (by simp [Has]), fun _ h => absurd h (by simp)⟩
  exact Transition.run_history (P := NewestIn kind) (fun _ _ e h => newestIn_step h e) hstart entries

/-- The variable for raw JSON files holds one, if there is one. -/
structure SomeRawJson (entries : List Entry) (best : Option Entry) : Prop where
  none : best = none → ¬ Has entries isRawJson
  some : ∀ e, best = some e → e ∈ entries ∧ isRawJson e.2 = true

theorem betterRawJson_cases (best : Option Entry) (e : Entry) :
    betterRawJson best e = some e ∨ ∃ e0, best = some e0 ∧ betterRawJson best e = some e0 := by
  cases best with
  | none => exact .inl rfl
  | some e0 =>
    unfold betterRawJson
    simp only
    split
    · exact .inl rfl
    · split
      · exact .inl rfl
      · exact .inr ⟨e0, rfl, rfl⟩

theorem someRawJson_step {entries : List Entry} (h : SomeRawJson entries best) (e : Entry) :
    SomeRawJson (entries ++ [e]) (if isRawJson e.2 then betterRawJson best e else best) := by
  by_cases hraw : isRawJson e.2 = true
  · rw [if_pos hraw]
    obtain hnew | ⟨e0, hbest, hold⟩ := betterRawJson_cases best e
    · rw [hnew]
      refine ⟨fun heq => absurd heq (by simp), fun e' heq => ?_⟩
      rw [← some.inj heq]
      exact ⟨mem_append_right _ (mem_singleton_self _), hraw⟩
    · rw [hold]
      refine ⟨fun heq => absurd heq (by simp), fun e' heq => ?_⟩
      rw [← some.inj heq]
      obtain ⟨hmem, hraw0⟩ := h.some e0 hbest
      exact ⟨mem_append_left _ hmem, hraw0⟩
  · rw [if_neg hraw]
    refine ⟨?_, fun e' heq => ⟨mem_append_left _ (h.some e' heq).1, (h.some e' heq).2⟩⟩
    rintro heq ⟨e', hmem, hraw'⟩
    rcases mem_append.mp hmem with hmem | hmem
    · exact h.none heq ⟨e', hmem, hraw'⟩
    · rw [mem_singleton.mp hmem] at hraw'
      exact hraw hraw'

theorem someRawJson :
    SomeRawJson entries (entries.foldl
      (fun best e => if isRawJson e.2 then betterRawJson best e else best) none) := by
  have hstart : SomeRawJson [] none :=
    ⟨fun _ h => absurd h (by simp [Has]), fun _ h => absurd h (by simp)⟩
  exact Transition.run_history (P := SomeRawJson) (fun _ _ e h => someRawJson_step h e) hstart entries

/-! ## The choice -/

/-- What the four variables hold after the loop -/
structure Split (entries : List Entry) (best : Best) : Prop where
  rawJson : SomeRawJson entries best.rawJson
  latestStable : NewestIn isStable entries best.latestStable
  latestBeta : NewestIn isBeta entries best.latestBeta
  latestUser : NewestIn isUser entries best.latestUser

theorem split_foldl : Split entries (entries.foldl classify {}) := by
  rw [foldl_classify]
  exact ⟨someRawJson entries, newestIn isStable entries, newestIn isBeta entries,
    newestIn isUser entries⟩

variable {ddf : DeviceDescription}

theorem category_of_bundle (h : isBundle ddf = true) :
    isStable ddf = true ∨ isBeta ddf = true ∨ isUser ddf = true := by
  unfold isStable isBeta isUser
  rw [h]
  cases ddf.signedBy.getLsbD 0 <;> cases ddf.signedBy.getLsbD 1 <;> simp

theorem bundle_of_stable (h : isStable ddf = true) :
    isBundle ddf = true := (Bool.and_eq_true_iff.mp h).1

theorem bundle_of_beta (h : isBeta ddf = true) :
    isBundle ddf = true := (Bool.and_eq_true_iff.mp h).1

theorem bundle_of_user (h : isUser ddf = true) :
    isBundle ddf = true := (Bool.and_eq_true_iff.mp (Bool.and_eq_true_iff.mp h).1).1

theorem NewestIn.isNewest {entries : List Entry} {e : Entry} (h : NewestIn kind entries (.some e)) :
    IsNewest entries kind (found e) := by
  obtain ⟨hmem, hkind, hnewest⟩ := h.some e rfl
  exact ⟨e, hmem, hkind, rfl, hnewest⟩

theorem NewestIn.eq_none {entries : List Entry} (h : NewestIn kind entries best)
    (hnone : ¬ Has entries kind) :
    best = .none := by
  cases best with
  | none => rfl
  | some e =>
    obtain ⟨hmem, hkind, -⟩ := h.some e rfl
    exact absurd ⟨e, hmem, hkind⟩ hnone

theorem IsNewest.bundle {entries : List Entry} {result : GetResult}
    (hall : ∀ e ∈ entries, isBundle e.2 = true → kind e.2 = true)
    (hkind : ∀ ddf, kind ddf = true → isBundle ddf = true) (h : IsNewest entries kind result) :
    IsNewest entries isBundle result := by
  obtain ⟨e, hmem, hkinde, hresult, hnewest⟩ := h
  exact ⟨e, hmem, hkind e.2 hkinde, hresult,
    fun e' hmem' hbundle => hnewest e' hmem' (hall e' hmem' hbundle)⟩

variable (descriptions : List DeviceDescription)

theorem newestBundle_of_single {entries : List Entry} {best : Best} (h : Split entries best)
    (hsingle : SingleCategory entries) (hbundle : Has entries isBundle) :
    ∃ result, newestBundle descriptions best = some result ∧ IsNewest entries isBundle result := by
  obtain ⟨hstableBeta, hstableUser, hbetaUser⟩ := hsingle
  unfold newestBundle
  by_cases hstable : Has entries isStable
  · have hbeta : ¬ Has entries isBeta := fun hbeta => hstableBeta ⟨hstable, hbeta⟩
    have huser : ¬ Has entries isUser := fun huser => hstableUser ⟨hstable, huser⟩
    rw [h.latestBeta.eq_none hbeta, h.latestUser.eq_none huser]
    cases hbest : best.latestStable with
    | none => exact absurd hstable (h.latestStable.none hbest)
    | some e =>
      refine ⟨found e, rfl, IsNewest.bundle ?_ (fun _ => bundle_of_stable)
        (hbest ▸ h.latestStable).isNewest⟩
      intro e' hmem hbundle'
      rcases category_of_bundle hbundle' with hkind | hkind | hkind
      · exact hkind
      · exact absurd ⟨e', hmem, hkind⟩ hbeta
      · exact absurd ⟨e', hmem, hkind⟩ huser
  · rw [h.latestStable.eq_none hstable]
    by_cases hbeta : Has entries isBeta
    · have huser : ¬ Has entries isUser := fun huser => hbetaUser ⟨hbeta, huser⟩
      rw [h.latestUser.eq_none huser]
      cases hbest : best.latestBeta with
      | none => exact absurd hbeta (h.latestBeta.none hbest)
      | some e =>
        refine ⟨found e, rfl, IsNewest.bundle ?_ (fun _ => bundle_of_beta)
          (hbest ▸ h.latestBeta).isNewest⟩
        intro e' hmem hbundle'
        rcases category_of_bundle hbundle' with hkind | hkind | hkind
        · exact absurd ⟨e', hmem, hkind⟩ hstable
        · exact hkind
        · exact absurd ⟨e', hmem, hkind⟩ huser
    · rw [h.latestBeta.eq_none hbeta]
      have hall : ∀ e ∈ entries, isBundle e.2 = true → isUser e.2 = true := by
        intro e hmem hbundle'
        rcases category_of_bundle hbundle' with hkind | hkind | hkind
        · exact absurd ⟨e, hmem, hkind⟩ hstable
        · exact absurd ⟨e, hmem, hkind⟩ hbeta
        · exact hkind
      cases hbest : best.latestUser with
      | none =>
        obtain ⟨e, hmem, hbundle'⟩ := hbundle
        exact absurd ⟨e, hmem, hall e hmem hbundle'⟩ (h.latestUser.none hbest)
      | some e =>
        exact ⟨found e, rfl, IsNewest.bundle hall (fun _ => bundle_of_user)
          (hbest ▸ h.latestUser).isNewest⟩

theorem bestMatchLoop_ne_invalid (n i bestMatch : Nat) :
    bestMatchLoop descriptions n i bestMatch ≠ .invalid := by
  induction n generalizing i bestMatch with
  | zero => exact fun h => absurd h (by simp [bestMatchLoop])
  | succ n ih =>
    unfold bestMatchLoop
    split
    · exact ih _ _
    · exact fun h => absurd h (by simp)

theorem Split.fallback {entries : List Entry} {best : Best} (h : Split entries best)
    (hstored : ∀ e ∈ entries, e.2.storageLocation.isSome = true) (hmem : entries ≠ []) :
    (best.latestStable.or (best.latestBeta.or (best.latestUser.or best.rawJson))).isSome = true := by
  obtain ⟨e, he⟩ := exists_mem_of_ne_nil entries hmem
  rw [isSome_or, isSome_or, isSome_or]
  simp only [Bool.or_eq_true, isSome_iff_ne_none]
  by_contra hnone
  simp only [not_or, not_not] at hnone
  obtain ⟨hstable, hbeta, huser, hraw⟩ := hnone
  have hbundle : ¬ isBundle e.2 = true := by
    intro hbundle
    rcases category_of_bundle hbundle with hkind | hkind | hkind
    · exact h.latestStable.none hstable ⟨e, he, hkind⟩
    · exact h.latestBeta.none hbeta ⟨e, he, hkind⟩
    · exact h.latestUser.none huser ⟨e, he, hkind⟩
  have hrawJson : ¬ isRawJson e.2 = true := fun hkind => h.rawJson.none hraw ⟨e, he, hkind⟩
  have hlocation := hstored e he
  unfold isBundle at hbundle
  unfold isRawJson at hrawJson
  cases hstorage : e.2.storageLocation with
  | none => simp [hstorage] at hlocation
  | some location => cases location <;> simp [hstorage] at hbundle hrawJson

def OfBundles (entries : List Entry) (hash : List UInt8) : Prop :=
  ∀ e ∈ entries, e.2.sha256Hash = hash → isBundle e.2 = true

section Choose

variable {hash : Option (List UInt8)} {descriptions : List DeviceDescription}
  {entries : List Entry}

theorem choose_latest (hsingle : SingleCategory entries) (hbundle : Has entries isBundle) :
    IsNewest entries isBundle (choose .latest hash descriptions entries) := by
  obtain ⟨result, hresult, hnewest⟩ :=
    newestBundle_of_single descriptions (split_foldl entries) hsingle hbundle
  unfold choose
  simp only [reduceCtorEq, if_false, true_or, if_true, none_or, hresult, some_or,
    getD_some]
  exact hnewest

theorem choose_stable (hstable : Has entries isStable) :
    IsNewest entries isStable (choose .latestPreferStable hash descriptions entries) := by
  have hsplit := (split_foldl entries).latestStable
  unfold choose
  cases hbest : (entries.foldl classify {}).latestStable with
  | none => exact absurd hstable (hsplit.none hbest)
  | some e =>
    simp only [reduceCtorEq, if_false, if_true, none_or, hbest, map_some,
      some_or, getD_some]
    exact (hbest ▸ hsplit).isNewest

theorem choose_notStable (hsingle : SingleCategory entries) (hstable : ¬ Has entries isStable)
    (hbundle : Has entries isBundle) :
    IsNewest entries isBundle (choose .latestPreferStable hash descriptions entries) := by
  have hsplit := split_foldl entries
  obtain ⟨result, hresult, hnewest⟩ :=
    newestBundle_of_single descriptions hsplit hsingle hbundle
  unfold choose
  simp only [reduceCtorEq, if_false, if_true, or_true, none_or,
    hsplit.latestStable.eq_none hstable, map_none, hresult, some_or,
    getD_some]
  exact hnewest

theorem choose_pin {h : List UInt8} (hown : OfBundles entries h)
    (hexists : ∃ e ∈ entries, isBundle e.2 = true ∧ e.2.sha256Hash = h) :
    ∃ e ∈ entries, isBundle e.2 = true ∧ e.2.sha256Hash = h ∧
      choose .pin (some h) descriptions entries = .found e.1 := by
  obtain ⟨e0, hmem0, -, hhash0⟩ := hexists
  cases hfind : entries.find? fun e => e.2.sha256Hash == h with
  | none =>
    have hnot := List.find?_eq_none.mp hfind e0 hmem0
    exact absurd (beq_iff_eq.mpr hhash0) hnot
  | some e =>
    have hhash : e.2.sha256Hash = h := by
      have hbeq := List.find?_some hfind
      exact beq_iff_eq.mp hbeq
    have hmem := mem_of_find?_eq_some hfind
    refine ⟨e, hmem, hown e hmem hhash, hhash, ?_⟩
    unfold choose
    simp only [reduceCtorEq, if_false, or_false, if_true, none_or, bind_some, hfind,
      map_some, some_or, getD_some]
    rfl

theorem choose_rawJson (hraw : Has entries isRawJson) :
    ∃ e ∈ entries, isRawJson e.2 = true ∧ choose .rawJson hash descriptions entries =
      .found e.1 := by
  have hsplit := (split_foldl entries).rawJson
  cases hbest : (entries.foldl classify {}).rawJson with
  | none => exact absurd hraw (hsplit.none hbest)
  | some e =>
    obtain ⟨hmem, hkind⟩ := hsplit.some e hbest
    refine ⟨e, hmem, hkind, ?_⟩
    unfold choose
    simp only [if_true, hbest, map_some, some_or, getD_some]
    rfl

theorem newestBundle_ne_invalid (descriptions : List DeviceDescription) (best : Best) :
    newestBundle descriptions best ≠ some .invalid := by
  unfold newestBundle
  split
  · simp
  · rw [ne_eq, Option.some.injEq]
    exact bestMatchLoop_ne_invalid _ _ _ _

theorem or_ne_invalid {first second : Option GetResult} (hfirst : first ≠ some .invalid)
    (hsecond : second ≠ some .invalid) : first.or second ≠ some .invalid := by
  cases first with
  | none => rwa [none_or]
  | some result => rwa [some_or]

theorem map_found_ne_invalid (best : Option Entry) : best.map found ≠ some .invalid := by
  cases best <;> simp [found]

theorem choose_invalid {policy : Policy}
    (hstored : ∀ e ∈ entries, e.2.storageLocation.isSome = true)
    (hresult : choose policy hash descriptions entries = .invalid) : entries = [] := by
  by_contra hmem
  have hfallback := (split_foldl entries).fallback hstored hmem
  unfold choose at hresult
  generalize entries.foldl classify {} = best at hresult hfallback
  simp only at hresult
  have hnone (p : Prop) [Decidable p] {choice : Option GetResult} (h : choice ≠ some .invalid) :
      (if p then choice else none) ≠ some .invalid := by
    split
    · exact h
    · simp
  have hpin : (hash.bind fun hash =>
      (entries.find? fun e => e.2.sha256Hash == hash).map found) ≠ some .invalid := by
    cases hash with
    | none => simp
    | some h => exact map_found_ne_invalid _
  have hchoice := or_ne_invalid (hnone (policy = .rawJson) (map_found_ne_invalid best.rawJson))
    (or_ne_invalid
      (hnone (policy = .latestPreferStable) (map_found_ne_invalid best.latestStable))
      (or_ne_invalid
        (hnone (policy = .latest ∨ policy = .latestPreferStable)
          (newestBundle_ne_invalid descriptions best))
        (or_ne_invalid (hnone (policy = .pin) hpin)
          (map_found_ne_invalid
            (best.latestStable.or (best.latestBeta.or (best.latestUser.or best.rawJson)))))))
  rw [Option.getD_eq_iff] at hresult
  rcases hresult with hsome | ⟨hempty, -⟩
  · exact hchoice hsome
  · simp only [Option.or_eq_none_iff, map_eq_none_iff] at hempty
    obtain ⟨-, -, -, -, hstable, hbeta, huser, hraw⟩ := hempty
    rw [hstable, hbeta, huser, hraw] at hfallback
    exact absurd hfallback Bool.false_ne_true

end Choose

theorem choose_honours (policy : Policy) (hash : Option (List UInt8))
    (descriptions : List DeviceDescription) {entries : List Entry}
    (hstored : ∀ e ∈ entries, e.2.storageLocation.isSome = true) :
    Honours (SingleCategory entries) (OfBundles entries) entries policy hash
      (choose policy hash descriptions entries) where
  latest := fun hpolicy hsingle hbundle => hpolicy ▸ choose_latest hsingle hbundle
  stable := fun hpolicy hstable => hpolicy ▸ choose_stable hstable
  notStable := fun hpolicy hsingle hstable hbundle =>
    hpolicy ▸ choose_notStable hsingle hstable hbundle
  pin := fun hpolicy _ hhash hown hexists => hpolicy ▸ hhash ▸ choose_pin hown hexists
  rawJson := fun hpolicy hraw => hpolicy ▸ choose_rawJson hraw
  invalid := choose_invalid hstored

/-! ## The search -/

/-- The description has a pair of a manufacturer name and a model identifier that fits the resource,
where manufacturer names are compared by a key, and its match expression holds. -/
def fits (key : List UInt8 → List UInt8) (src : DdfSources) (control : MatchControl)
    (r : DdfResource) (ddf : DeviceDescription) : Bool :=
  ddf.mfnameAtomIndices.length == ddf.modelidAtomIndices.length &&
    (ddf.mfnameAtomIndices.zip ddf.modelidAtomIndices).any (fun pair =>
      pair.2 == r.modelid && key (src.atomString pair.1) == key (src.atomString r.mfname)) &&
    exprHolds src control ddf

/-- The indices of the descriptions that fit -/
def fitting (p : DeviceDescription → Bool) (descriptions : List DeviceDescription) : List Nat :=
  (List.range descriptions.length).filter fun index => (descriptions[index]?).any p

/-- What every list of loaded descriptions is: each description has its index as handle and comes
from a known location. -/
structure Loaded (descriptions : List DeviceDescription) : Prop where
  handle : ∀ (index : Nat) (ddf : DeviceDescription), descriptions[index]? = some ddf → ddf.handle =
    index
  stored : ∀ ddf ∈ descriptions, ddf.storageLocation.isSome = true

theorem identifierMatches_eq {atomString : Nat → List UInt8} (hcollision : NoCollision atomString)
    (modelid mfname : Nat) (ddf : DeviceDescription) :
    identifierMatches atomString modelid mfname ddf =
      (ddf.mfnameAtomIndices.length == ddf.modelidAtomIndices.length &&
        (ddf.mfnameAtomIndices.zip ddf.modelidAtomIndices).any fun pair =>
          pair.2 == modelid && nameKey (atomString pair.1) == nameKey (atomString mfname)) := by
  have hname (a : Nat) : (a == mfname ||
      atomLowerCaseStringHash atomString mfname == atomLowerCaseStringHash atomString a) =
        (nameKey (atomString a) == nameKey (atomString mfname)) := by
    rw [Bool.eq_iff_iff, Bool.or_eq_true, beq_iff_eq, beq_iff_eq, beq_iff_eq,
      atomLowerCaseStringHash_eq, atomLowerCaseStringHash_eq]
    constructor
    · rintro (rfl | hhash)
      · rfl
      · exact (hcollision mfname a hhash).symm
    · exact fun hkey => .inr (by rw [hkey])
  unfold identifierMatches
  simp only [hname]
  by_cases hlength : ddf.mfnameAtomIndices.length = ddf.modelidAtomIndices.length
  · rw [if_neg (not_not.mpr hlength), beq_iff_eq.mpr hlength, Bool.true_and]
  · rw [if_pos hlength, beq_eq_false_iff_ne.mpr hlength, Bool.false_and]

variable {src : DdfSources}

theorem matches_eq_fits (hcollision : NoCollision src.atomString) (control : MatchControl)
    (r : DdfResource) (ddf : DeviceDescription) :
    (identifierMatches src.atomString r.modelid r.mfname ddf && exprHolds src control ddf) =
      fits nameKey src control r ddf := by
  rw [identifierMatches_eq hcollision]
  rfl

theorem matchLoop_eq (hcollision : NoCollision src.atomString) (control : MatchControl)
    (r : DdfResource) (descriptions : List DeviceDescription) :
    ∀ {matched : List Int}, matched.length ≤ maxMatches →
      matchLoop src control r matched descriptions =
        (matched ++ (descriptions.filter (fits nameKey src control r)).map
          DeviceDescription.handle).take maxMatches := by
  induction descriptions with
  | nil =>
    intro matched hlength
    rw [filter_nil, map_nil, append_nil, take_of_length_le hlength]
    rfl
  | cons ddf rest ih =>
    intro matched hlength
    -- a description that comes when the array is full is not taken
    unfold matchLoop
    rw [matches_eq_fits hcollision]
    by_cases hroom : matched.length < maxMatches
    · rw [if_pos hroom]
      by_cases hfits : fits nameKey src control r ddf = true
      · rw [if_pos hfits, ih (by rw [List.length_append]; exact hroom), filter_cons_of_pos hfits,
          map_cons, append_assoc]
        rfl
      · rw [if_neg hfits, ih hlength, filter_cons_of_neg hfits]
    · rw [if_neg hroom, take_append_of_le_length (Nat.not_lt.mp hroom), take_of_length_le hlength]

theorem map_handle_filter {descriptions : List DeviceDescription} (p : DeviceDescription → Bool)
    (h : ∀ (index : Nat) (ddf : DeviceDescription), descriptions[index]? = some ddf → ddf.handle =
      index) :
    (descriptions.filter p).map DeviceDescription.handle =
      (fitting p descriptions).map Int.ofNat := by
  unfold fitting
  -- the last description first: its handle is the number of those in front of it
  induction descriptions using List.reverseRecOn with
  | nil => rfl
  | append_singleton descriptions ddf ih =>
    have hearlier : ∀ (index : Nat) (ddf' : DeviceDescription), descriptions[index]? = some ddf' →
        ddf'.handle = index := fun index ddf' hget =>
      h index ddf' (List.getElem?_append_left (List.getElem?_eq_some_iff.mp hget).1 ▸ hget)
    have hlast : ddf.handle = descriptions.length := h descriptions.length ddf (by simp)
    have hrange : (List.range descriptions.length).filter
        (fun index => ((descriptions ++ [ddf])[index]?).any p) =
          (List.range descriptions.length).filter
            fun index => (descriptions[index]?).any p := by
      refine filter_congr fun index hmem => ?_
      rw [List.getElem?_append_left (mem_range.mp hmem)]
    rw [filter_append, map_append, ih hearlier, List.length_append, length_singleton, range_succ,
      filter_append, hrange, map_append]
    congr 1
    by_cases hfits : p ddf = true
    · rw [filter_cons_of_pos hfits, filter_cons_of_pos (by simpa using hfits)]
      simp [hlast]
    · rw [filter_cons_of_neg hfits, filter_cons_of_neg (by simpa using hfits)]
      rfl

def entriesAt (descriptions : List DeviceDescription) (indices : List Nat) : List Entry :=
  indices.filterMap fun index => (descriptions[index]?).map fun ddf => (index, ddf)

theorem mapM_entryAt {descriptions : List DeviceDescription} {indices : List Nat}
    (h : ∀ index ∈ indices, index < descriptions.length) :
    (indices.map Int.ofNat).mapM (entryAt descriptions) = some (entriesAt descriptions indices) := by
  induction indices with
  | nil => rfl
  | cons index indices ih =>
    obtain ⟨hfirst, hrest⟩ := forall_mem_cons.mp h
    have hentry : entryAt descriptions (Int.ofNat index) = some (index, descriptions[index]) := by
      unfold entryAt
      rw [if_neg (show ¬ Int.ofNat index < 0 from Int.not_lt.mpr (Int.natCast_nonneg index))]
      simp [List.getElem?_eq_getElem hfirst]
    have hentries : entriesAt descriptions (index :: indices) = (index, descriptions[index]) ::
        entriesAt descriptions indices := by
      unfold entriesAt
      rw [filterMap_cons, List.getElem?_eq_getElem hfirst]
      rfl
    rw [map_cons, mapM_cons, hentry, ih hrest, hentries]
    rfl

theorem mem_entriesAt {descriptions : List DeviceDescription} {indices : List Nat} {e : Entry} :
    e ∈ entriesAt descriptions indices ↔ e.1 ∈ indices ∧ descriptions[e.1]? = some e.2 := by
  unfold entriesAt
  rw [mem_filterMap]
  constructor
  · rintro ⟨index, hmem, hget⟩
    obtain ⟨ddf, hddf, rfl⟩ := map_eq_some_iff.mp hget
    exact ⟨hmem, hddf⟩
  · rintro ⟨hmem, hget⟩
    exact ⟨e.1, hmem, by rw [hget]; rfl⟩

/-- The later list keeps the descriptions of the earlier one at their places, up to what is merged
into their items. -/
structure Extends (earlier later : List DeviceDescription) : Prop where
  length : earlier.length ≤ later.length
  same : ∀ (index : Nat) (ddf0 : DeviceDescription), earlier[index]? = some ddf0 →
    ∃ ddf, later[index]? = some ddf ∧ { ddf with subDevices := [] } = { ddf0 with subDevices := [] }

theorem loaded_kept : KeptByReading Loaded where
  append := by
    intro loadCounter ddf descriptions hstored h
    refine ⟨?_, ?_⟩
    · intro index ddf' hget
      rw [List.getElem?_append] at hget
      split at hget
      · exact h.handle index ddf' hget
      · rename_i hlast
        have hbound := (List.getElem?_eq_some_iff.mp hget).1
        simp only [length_singleton] at hbound
        have hindex : index = descriptions.length := by omega
        subst hindex
        simp only [Nat.sub_self, List.getElem?_cons_zero, Option.some.injEq] at hget
        rw [← hget]
        rfl
    · intro ddf' hmem
      rcases mem_append.mp hmem with hmem | hmem
      · exact h.stored ddf' hmem
      · rw [mem_singleton.mp hmem]
        exact hstored
  mapItems := by
    intro f descriptions h
    refine ⟨?_, ?_⟩
    · intro index ddf hget
      rw [List.getElem?_map, map_eq_some_iff] at hget
      obtain ⟨ddf0, hget0, rfl⟩ := hget
      exact h.handle index ddf0 hget0
    · intro ddf hmem
      obtain ⟨ddf0, hmem0, rfl⟩ := mem_map.mp hmem
      exact h.stored ddf0 hmem0

theorem extends_kept (earlier : List DeviceDescription) : KeptByReading (Extends earlier) where
  append := by
    intro loadCounter ddf descriptions _ h
    refine ⟨?_, ?_⟩
    · rw [List.length_append]
      exact Nat.le_add_right_of_le h.length
    · intro index ddf0 hget0
      obtain ⟨ddf', hget, hsame⟩ := h.same index ddf0 hget0
      refine ⟨ddf', ?_, hsame⟩
      rw [List.getElem?_append_left (List.getElem?_eq_some_iff.mp hget).1]
      exact hget
  mapItems := by
    intro f descriptions h
    refine ⟨by rw [length_map]; exact h.length, ?_⟩
    intro index ddf0 hget0
    obtain ⟨ddf', hget, hsame⟩ := h.same index ddf0 hget0
    refine ⟨ddf'.mapItems (f ddf'), ?_, hsame⟩
    rw [List.getElem?_map, hget]
    rfl

theorem extends_refl : Extends descriptions descriptions :=
  ⟨Nat.le_refl _, fun _ ddf0 hget => ⟨ddf0, hget, rfl⟩⟩

theorem KeptByReading.readAll {P : List DeviceDescription → Prop} (hkept : KeptByReading P)
    {d : DescriptionTable} (h : P d.descriptions) :
    P (readAll src d).descriptions :=
  hkept.readAllBundles (hkept.readAllRawJson h)

theorem KeptByReading.load {P : List DeviceDescription → Prop} (hkept : KeptByReading P)
    {r : DdfResource} {s : DdfState} (h : P s.table.descriptions) :
    P (loadDDFAndBundlesFromDisc src r s).2.table.descriptions := by
  unfold loadDDFAndBundlesFromDisc
  split
  · exact h
  · simp only
    split
    · exact h
    · exact hkept.readAll h

/-! ## The result -/

/-- The resources that descriptions are for: no ZGP device and no configuration tool, and both names
are known. -/
structure DdfResource.Supported (r : DdfResource) : Prop where
  type : (r.type.map isFiltered).getD false = false
  modelid : r.modelid ≠ 0
  mfname : r.mfname ≠ 0

/-- The indices that the search comes across: those of the descriptions that fit, and all of them
again when files were loaded. -/
def searched (p : DeviceDescription → Bool) (before after : List DeviceDescription) : List Nat :=
  fitting p before ++ if before.length < after.length then fitting p after else []

/-- The matches that are considered, the first sixteen that the search comes across -/
def considered (p : DeviceDescription → Bool) (before after : List DeviceDescription) :
    List Entry :=
  entriesAt after ((searched p before after).take maxMatches)

theorem mem_fitting {p : DeviceDescription → Bool} {descriptions : List DeviceDescription}
    {index : Nat} :
    index ∈ fitting p descriptions ↔ ∃ ddf, descriptions[index]? = some ddf ∧ p ddf = true := by
  unfold fitting
  rw [mem_filter, mem_range, Option.any_eq_true]
  constructor
  · exact fun h => h.2
  · rintro ⟨ddf, hget, hp⟩
    exact ⟨(List.getElem?_eq_some_iff.mp hget).1, ddf, hget, hp⟩

section Search

variable {src : DdfSources} {control : MatchControl} {r : DdfResource}

variable {key : List UInt8 → List UInt8}

theorem fits_of_same {ddf ddf0 : DeviceDescription}
    (h : { ddf with subDevices := [] } = { ddf0 with subDevices := [] }) :
    fits key src control r ddf = fits key src control r ddf0 := by
  show fits key src control r { ddf with subDevices := [] } =
    fits key src control r { ddf0 with subDevices := [] }
  rw [h]

variable {before after : List DeviceDescription}

theorem of_mem_searched (h : Extends before after) {index : Nat}
    (hmem : index ∈ searched (fits key src control r) before after) :
    ∃ ddf, after[index]? = some ddf ∧ fits key src control r ddf = true := by
  rcases mem_append.mp hmem with hfirst | hsecond
  · obtain ⟨ddf0, hget0, hfits⟩ := mem_fitting.mp hfirst
    obtain ⟨ddf, hget, hsame⟩ := h.same index ddf0 hget0
    exact ⟨ddf, hget, (fits_of_same hsame).trans hfits⟩
  · split at hsecond
    · exact mem_fitting.mp hsecond
    · exact absurd hsecond not_mem_nil

theorem mem_searched (h : Extends before after) {index : Nat} {ddf : DeviceDescription}
    (hget : after[index]? = some ddf) (hfits : fits key src control r ddf = true) :
    index ∈ searched (fits key src control r) before after := by
  unfold searched
  by_cases hgrown : before.length < after.length
  · rw [if_pos hgrown]
    exact mem_append_right _ (mem_fitting.mpr ⟨ddf, hget, hfits⟩)
  · have hbound := (List.getElem?_eq_some_iff.mp hget).1
    have hbefore : index < before.length := by omega
    obtain ⟨ddf', hget', hsame⟩ := h.same index _ (List.getElem?_eq_getElem hbefore)
    rw [hget, Option.some.injEq] at hget'
    subst hget'
    refine mem_append_left _ (mem_fitting.mpr ⟨_, List.getElem?_eq_getElem hbefore, ?_⟩)
    rw [← fits_of_same hsame]
    exact hfits

theorem entriesAt_fst_lt {p : DeviceDescription → Bool}
    (h : ∀ index ∈ searched p before after, ∃ ddf, after[index]? = some ddf ∧ p ddf = true) :
    ∀ index ∈ (searched p before after).take maxMatches, index < after.length := by
  intro index hmem
  obtain ⟨ddf, hget, -⟩ := h index (mem_of_mem_take hmem)
  exact (List.getElem?_eq_some_iff.mp hget).1

theorem loadDDFAndBundlesFromDisc_fst (src : DdfSources) (r : DdfResource) (s : DdfState) :
    (loadDDFAndBundlesFromDisc src r s).1 =
      decide (s.table.descriptions.length <
        (loadDDFAndBundlesFromDisc src r s).2.table.descriptions.length) := by
  unfold loadDDFAndBundlesFromDisc
  split
  · simp
  · simp only
    split
    · simp
    · rfl

theorem searched_same (p : DeviceDescription → Bool) (descriptions : List DeviceDescription) :
    searched p descriptions descriptions = fitting p descriptions := by
  unfold searched
  rw [if_neg (Nat.lt_irrefl _), append_nil]

theorem get_eq (control : MatchControl) {s : DdfState} (hloaded : Loaded s.table.descriptions)
    (hcollision : NoCollision src.atomString) (hsupported : r.Supported) :
    Extends s.table.descriptions (get src control r s).1.table.descriptions ∧
      Loaded (get src control r s).1.table.descriptions ∧
      (get src control r s).2 =
        select src r (get src control r s).1.table.descriptions
          (((searched (fits nameKey src control r) s.table.descriptions
            (get src control r s).1.table.descriptions).take maxMatches).map Int.ofNat) := by
  have hfirst : matchLoop src control r [] s.table.descriptions =
      ((fitting (fits nameKey src control r) s.table.descriptions).take maxMatches).map
        Int.ofNat := by
    rw [matchLoop_eq hcollision control r _ (Nat.zero_le _), nil_append,
      map_handle_filter _ hloaded.handle, map_take]
  unfold get
  rw [hsupported.type, if_neg Bool.false_ne_true,
    if_neg (not_or.mpr ⟨hsupported.modelid, hsupported.mfname⟩)]
  simp only
  by_cases hroom : (matchLoop src control r [] s.table.descriptions).length < maxMatches
  · rw [if_pos hroom]
    have hextends : Extends s.table.descriptions
        (loadDDFAndBundlesFromDisc src r s).2.table.descriptions :=
      (extends_kept s.table.descriptions).load (extends_refl s.table.descriptions)
    have hlater : Loaded (loadDDFAndBundlesFromDisc src r s).2.table.descriptions :=
      loaded_kept.load hloaded
    have hgrown := loadDDFAndBundlesFromDisc_fst src r s
    generalize loadDDFAndBundlesFromDisc src r s = outcome at hextends hlater hgrown
    obtain ⟨loaded, s'⟩ := outcome
    simp only at hextends hlater hgrown
    refine ⟨hextends, hlater, ?_⟩
    simp only
    congr 1
    unfold searched
    rw [hgrown]
    by_cases hgrows : s.table.descriptions.length < s'.table.descriptions.length
    · -- the search starts again behind the indices that it has, and comes across these once more
      have hshort : (fitting (fits nameKey src control r) s.table.descriptions).length ≤
          maxMatches := by
        rw [hfirst, length_map, length_take] at hroom
        omega
      rw [decide_eq_true hgrows, if_pos rfl, if_pos hgrows,
        matchLoop_eq hcollision control r _ (Nat.le_of_lt hroom), hfirst,
        take_of_length_le hshort, map_handle_filter _ hlater.handle, ← map_append,
        map_take]
    · rw [decide_eq_false hgrows, if_neg Bool.false_ne_true, if_neg hgrows, append_nil]
      exact hfirst
  · rw [if_neg hroom]
    refine ⟨extends_refl _, hloaded, ?_⟩
    rw [searched_same, hfirst]

end Search

/-- The policy is honoured among all descriptions that fit, with manufacturer names compared without
regard to the case of their ASCII letters. -/
def PolicyHonoured (src : DdfSources) (control : MatchControl) (r : DdfResource) (s : DdfState) :
    Prop :=
  let after := (get src control r s).1.table.descriptions
  Honours True (fun _ => True)
    (entriesAt after (fitting (fits (List.map lowerByte) src control r) after))
    (r.policy.getD .latestPreferStable) (pinnedHash src r) (get src control r s).2

/-- For the resources that descriptions are for, the policy is honoured among the considered matches:
these fit, they are all that fit when the search comes across sixteen at most, and the newest
bundle is spoken of where the bundles are all in one category. -/
theorem get_honours (src : DdfSources) (control : MatchControl) (r : DdfResource) (s : DdfState)
    (hloaded : Loaded s.table.descriptions) (hcollision : NoCollision src.atomString)
    (hsupported : r.Supported) :
    let before := s.table.descriptions
    let after := (get src control r s).1.table.descriptions
    let matching := considered (fits nameKey src control r) before after
    (∀ e ∈ matching, after[e.1]? = some e.2 ∧ fits nameKey src control r e.2 = true) ∧
      ((searched (fits nameKey src control r) before after).length ≤ maxMatches →
        ∀ (index : Nat) (ddf : DeviceDescription), after[index]? = some ddf →
          fits nameKey src control r ddf = true → (index, ddf) ∈ matching) ∧
      Honours (SingleCategory matching) (OfBundles matching) matching
        (r.policy.getD .latestPreferStable) (pinnedHash src r) (get src control r s).2 := by
  intro before after matching
  obtain ⟨hextends, hlater, hresult⟩ := get_eq control hloaded hcollision hsupported
  have hsearched : ∀ index ∈ searched (fits nameKey src control r) before after,
      ∃ ddf, after[index]? = some ddf ∧ fits nameKey src control r ddf = true :=
    fun index hmem => of_mem_searched hextends hmem
  refine ⟨?_, ?_, ?_⟩
  · intro e hmem
    obtain ⟨hindex, hget⟩ := mem_entriesAt.mp hmem
    obtain ⟨ddf, hget', hfits⟩ := hsearched e.1 (mem_of_mem_take hindex)
    rw [hget, Option.some.injEq] at hget'
    exact ⟨hget, hget' ▸ hfits⟩
  · intro hall index ddf hget hfits
    refine mem_entriesAt.mpr ⟨?_, hget⟩
    rw [take_of_length_le hall]
    exact mem_searched hextends hget hfits
  · have hchoice : (get src control r s).2 =
        choose (r.policy.getD .latestPreferStable) (pinnedHash src r) after matching := by
      rw [hresult]
      unfold select
      rw [mapM_entryAt (entriesAt_fst_lt hsearched)]
      rfl
    rw [hchoice]
    refine choose_honours _ _ _ fun e hmem => ?_
    exact hlater.stored e.2 (mem_of_getElem? (mem_entriesAt.mp hmem).2)

def sampleString (atom : Nat) : List UInt8 :=
  if atom = 1 then [0x4C, 0x55, 0x4D, 0x49] else if atom = 2 then [0x70, 0x6C, 0x75, 0x67] else []

theorem sampleString_cases (atom : Nat) :
    sampleString atom = [0x4C, 0x55, 0x4D, 0x49] ∨ sampleString atom = [0x70, 0x6C, 0x75, 0x67] ∨
      sampleString atom = [] := by
  unfold sampleString
  split
  · exact .inl rfl
  · split
    · exact .inr (.inl rfl)
    · exact .inr (.inr rfl)

theorem sampleString_noCollision : NoCollision sampleString := by
  intro a b hhash
  rcases sampleString_cases a with ha | ha | ha <;> rcases sampleString_cases b with hb | hb | hb <;>
    rw [ha, hb] at hhash ⊢ <;> exact absurd hhash (by decide)

def sampleSources : DdfSources where
  atomString := sampleString
  evaluates := fun _ => false
  hexBytes := id
  raw := { files := [], atomOf := fun _ => 0, resolve := fun _ parameters => parameters }
  bundles := []

def sampleState : DdfState where
  table :=
    { descriptions :=
        [{ mfnameAtomIndices := [1], modelidAtomIndices := [2], lastModified := 10, handle := 0
           storageLocation := some .ddfBundleLocation },
         { mfnameAtomIndices := [1], modelidAtomIndices := [2], lastModified := 20, handle := 1
           storageLocation := some .ddfBundleUserLocation }] }

theorem sampleState_loaded : Loaded sampleState.table.descriptions where
  handle := by
    intro index ddf hget
    match index with
    | 0 => rw [← some.inj hget]; rfl
    | 1 => rw [← some.inj hget]; rfl
    | index + 2 => exact absurd hget (by simp [sampleState])
  stored := by decide

def sampleEntries : List Entry :=
  [(0, sampleState.table.descriptions[0]), (1, sampleState.table.descriptions[1])]

/-- The newer of two bundles is selected. -/
theorem newest_bundle_selected :
    IsNewest sampleEntries isBundle
      (get sampleSources .evalMatchExpr { modelid := 2, mfname := 1, policy := some .latest }
        sampleState).2 := by
  have hstable : ¬ Has sampleEntries isStable := by
    rintro ⟨e, hmem, hkind⟩
    exact absurd hkind ((by decide : ∀ e ∈ sampleEntries, ¬ isStable e.2 = true) e hmem)
  have hbeta : ¬ Has sampleEntries isBeta := by
    rintro ⟨e, hmem, hkind⟩
    exact absurd hkind ((by decide : ∀ e ∈ sampleEntries, ¬ isBeta e.2 = true) e hmem)
  have hsingle : SingleCategory sampleEntries :=
    ⟨fun h => hstable h.1, fun h => hstable h.1, fun h => hbeta h.1⟩
  have hhonours := (get_honours sampleSources .evalMatchExpr
    { modelid := 2, mfname := 1, policy := some .latest } sampleState sampleState_loaded
    sampleString_noCollision ⟨rfl, by decide, by decide⟩).2.2
  exact hhonours.latest rfl hsingle ⟨_, mem_cons_self, by decide⟩

/-- A ZGP device that a bundle fits gets the invalid description. -/
theorem zgp_not_selected : ¬ ∀ src control r s, Loaded s.table.descriptions →
    NoCollision src.atomString → PolicyHonoured src control r s := by
  intro h
  have hzgp := h sampleSources .evalMatchExpr
    { modelid := 2, mfname := 1, type := some [0x5A, 0x47, 0x50] } sampleState sampleState_loaded
    sampleString_noCollision
  exact absurd (hzgp.invalid rfl) (by decide)

end Ddf
end DeconzRest

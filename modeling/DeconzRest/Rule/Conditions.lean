import DeconzRest.Rule.Actions
import DeconzRest.Rule.Reading

/-!
# Storage of rule conditions

`Rule::conditionsToString` serializes address, operator and value of each condition, and
`Rule::jsonToConditions` gives the maps that it reads to the constructor again.  By then the
address is in the new style, a value may be a boolean or a number in place of a text, and
UTF-8 has replaced unpaired surrogates.  The constructor reads operator and value as before
(`alike_stored`).  The id is cached before the address is brought into the new style, so it
can be another one (`addressId_newStyle`), and a number that is not finite is written as no
JSON (`jsonToConditions_lost`).
-/

namespace DeconzRest

open QString List
open Json (Parts Every Numbers ReadBack reread text)

namespace Rule

variable {D : Type}

/-- The map of one condition in `Rule::conditionsToString`. -/
def conditionMap (c : RuleCondition D) : QVariant D :=
  .map ([(ofLatin1 "address", .string c.address),
    (ofLatin1 "operator", .string c.operator)] ++
      if c.value.isValid then [(ofLatin1 "value", c.value)] else [])

/-- `Rule::conditionsToString` -/
def conditionsToString (qt : Qt D) (conditions : List (RuleCondition D)) : QString :=
  fromUtf8 (Json.serialize qt (.list (conditions.map conditionMap)))

/-- `Rule::jsonToConditions`; the loop keeps the valid conditions, as `createRule` does. -/
def jsonToConditions (env : RuleEnv D) (json : QString) : List (RuleCondition D) :=
  let var := Json.parse env.qt json
  if var.2 = false then [] else RuleRequest.newConditions env var.1.toList

end Rule

namespace RuleCondition

variable {D : Type}

def addressSuffix (env : RuleEnv D) (address : QString) : String :=
  (getResourceItemDescriptor env.descriptors address).getD rInvalidSuffix

/-- The address is an old one of a light sensor. -/
def OldStyle (address : QString) : Prop :=
  startsWith address (ofLatin1 rSensors) = true ∧ endsWith address (ofLatin1 "/illuminance") = true

variable {address : QString}

theorem newStyle_of_oldStyle (h : OldStyle address) :
    newStyle address =
      replaceText address (unit '/' :: ofLatin1 "illuminance")
        (unit '/' :: ofLatin1 "lux") := by
  have hboth : (startsWith address (ofLatin1 rSensors) &&
      endsWith address (ofLatin1 "/illuminance")) = true := by
    rw [h.1, h.2]
    rfl
  unfold newStyle
  rw [if_pos hboth]
  rfl

theorem newStyle_of_not_oldStyle (h : ¬ OldStyle address) : newStyle address = address := by
  unfold newStyle
  rw [if_neg]
  rw [Bool.and_eq_true]
  exact h

theorem parts_newStyle (h : OldStyle address) :
    parts (unit '/') (newStyle address) =
      ((parts (unit '/') address).1,
        (parts (unit '/') address).2.map
          (swapFront (ofLatin1 "illuminance") (ofLatin1 "lux"))) := by
  rw [newStyle_of_oldStyle h]
  exact parts_replaceText (by decide) (by decide) address

theorem not_oldStyle_newStyle (address : QString) : ¬ OldStyle (newStyle address) := by
  by_cases h : OldStyle address
  · rintro ⟨-, hend⟩
    have hlast : ∀ s : QString, endsWith s (ofLatin1 "/illuminance") = true →
        (parts (unit '/') s).2.getLast? = some (ofLatin1 "illuminance") := by
      intro s hs
      obtain ⟨front, rfl⟩ := endsWith_iff.mp hs
      exact getLast?_parts front (by decide)
    have hnew := hlast _ hend
    rw [parts_newStyle h, List.getLast?_map, hlast address h.2] at hnew
    exact absurd (Option.some.inj hnew) (by decide)
  · rw [newStyle_of_not_oldStyle h]
    exact h

theorem startsWith_newStyle (h : OldStyle address) :
    startsWith (newStyle address) (ofLatin1 rSensors) = true := by
  obtain ⟨rest, hrest⟩ := isPrefixOf_iff_prefix.mp h.1
  have hkept : newStyle address = ofLatin1 rSensors ++
      replaceText rest (unit '/' :: ofLatin1 "illuminance")
        (unit '/' :: ofLatin1 "lux") := by
    rw [newStyle_of_oldStyle h, ← hrest]
    rfl
  rw [hkept]
  exact isPrefixOf_iff_prefix.mpr (prefix_append _ _)

theorem addressResource_newStyle (address : QString) :
    addressResource (newStyle address) = addressResource address := by
  by_cases h : OldStyle address
  · have hsensors := startsWith_newStyle h
    unfold addressResource
    rw [if_pos h.1, if_pos hsensors]
  · rw [newStyle_of_not_oldStyle h]

theorem addressResource_repair (address : QString) :
    addressResource (repair address) = addressResource address := by
  unfold addressResource
  rw [startsWith_repair (by decide), startsWith_repair (by decide), startsWith_repair (by decide),
    startsWith_repair (by decide),
    startsWith_repair (by decide)]

theorem oldStyle_repair_iff (address : QString) : OldStyle (repair address) ↔ OldStyle address := by
  unfold OldStyle
  rw [startsWith_repair (by decide), endsWith_repair (by decide)]

/-! ## The id -/

theorem addressId_repair (address : QString) :
    addressId (repair address) = repair (addressId address) := by
  unfold addressId
  rw [startsWith_repair (by decide), startsWith_repair (by decide), startsWith_repair (by decide),
    startsWith_repair (by decide),
    split_repair (by decide), List.getElem?_map]
  split
  · cases (split address '/')[1]? with
    | none => rfl
    | some part => rfl
  · rfl

/-- An id that starts with `illuminance`, and what the new style makes of it. -/
def newStyleId (id : QString) : QString :=
  swapFront (ofLatin1 "illuminance") (ofLatin1 "lux") id

theorem newStyleId_eq_nil_iff {part : QString} : newStyleId part = [] ↔ part = [] := by
  unfold newStyleId swapFront
  split
  · rename_i hstarts
    obtain ⟨rest, rfl⟩ := isPrefixOf_iff_prefix.mp hstarts
    constructor
    · intro h
      cases h
    · intro h
      cases h
  · exact Iff.rfl

theorem split_newStyle (h : OldStyle address) :
    split (newStyle address) '/' = (split address '/').map newStyleId := by
  obtain ⟨rest, hrest⟩ := isPrefixOf_iff_prefix.mp h.1
  have hfirst : (parts (unit '/') address).1 = [] := by
    rw [← hrest]
    rfl
  unfold split
  rw [parts_newStyle h]
  simp only [hfirst]
  rw [filter_cons_of_neg (by simp), filter_cons_of_neg (by simp), filter_map]
  congr 1
  apply filter_congr
  intro part _
  show decide (newStyleId part ≠ []) = decide (part ≠ [])
  rw [decide_eq_decide, ne_eq, ne_eq, newStyleId_eq_nil_iff]

/-- **The id in an address that was brought into the new style.** -/
theorem addressId_newStyle (h : OldStyle address) :
    addressId (newStyle address) = newStyleId (addressId address) := by
  have hnew := startsWith_newStyle h
  have hnil : newStyleId [] = [] := by decide
  unfold addressId
  rw [hnew, h.1, split_newStyle h, List.getElem?_map]
  simp only [Bool.true_or, if_true]
  cases (split address '/')[1]? with
  | none => exact hnil.symm
  | some part => rfl

theorem repair_addressId_iff (address : QString) :
    repair (addressId (newStyle address)) = addressId address ↔
      QString.WellFormed (addressId address) ∧ addressId address =
        addressId (newStyle address) := by
  constructor
  · intro h
    have hsame : addressId (newStyle address) = addressId address := by
      by_cases hold : OldStyle address
      · have hlength := congrArg List.length h
        rw [length_repair, addressId_newStyle hold] at hlength
        rw [addressId_newStyle hold]
        unfold newStyleId swapFront at hlength ⊢
        split at hlength
        · -- the new id is shorter
          rename_i hstarts
          obtain ⟨rest, hrest⟩ := isPrefixOf_iff_prefix.mp hstarts
          rw [← hrest, drop_left, List.length_append, List.length_append] at hlength
          have hlux : (ofLatin1 "lux").length = 3 := by decide
          have hold : (ofLatin1 "illuminance").length = 11 := by decide
          omega
        · rename_i hstarts
          rw [if_neg hstarts]
      · rw [newStyle_of_not_oldStyle hold]
    rw [hsame] at h
    exact ⟨repair_eq_self_iff.mp h, hsame.symm⟩
  · rintro ⟨hwell, hsame⟩
    rw [← hsame]
    exact hwell.repair_eq

theorem addressSuffix_repair {env : RuleEnv D}
    (hplain : ∀ suffix ∈ env.descriptors, (ofLatin1 suffix).all isPlain = true)
    (address : QString) : addressSuffix env (repair address) = addressSuffix env address := by
  have hsame : getResourceItemDescriptor env.descriptors (repair address) =
      getResourceItemDescriptor env.descriptors address := by
    unfold getResourceItemDescriptor
    generalize env.descriptors = table at hplain
    induction table with
    | nil => rfl
    | cons suffix table ih =>
      rw [forall_mem_cons] at hplain
      rw [List.find?_cons, List.find?_cons, endsWith_repair hplain.1, ih hplain.2]
  unfold addressSuffix
  rw [hsame]

variable (env : RuleEnv D)

theorem addressSuffix_newStyle_repair (address : QString) :
    addressSuffix env (newStyle (repair (newStyle address))) =
      addressSuffix env (repair (newStyle address)) := by
  have hnot : ¬ OldStyle (repair (newStyle address)) := by
    rw [oldStyle_repair_iff]
    exact not_oldStyle_newStyle address
  rw [newStyle_of_not_oldStyle hnot]

/-- The map that is read again for a condition. -/
def storedMap (qt : Qt D) (c : RuleCondition D) : List (QString × QVariant D) :=
  [(ofLatin1 "address", .string (repair c.address)),
    (ofLatin1 "operator", .string (repair c.operator))] ++
      if c.value.isValid then [(ofLatin1 "value", reread repair qt c.value)] else []

def stored (env : RuleEnv D) (c : RuleCondition D) : RuleCondition D :=
  ofMap env (storedMap env.qt c)

theorem reread_conditionMap (qt : Qt D) (c : RuleCondition D) :
    reread repair qt (Rule.conditionMap c) = .map (storedMap qt c) := by
  have hkeys : ∀ key ∈ [ofLatin1 "address", ofLatin1 "operator",
      ofLatin1 "value"], repair key = key := by decide
  have hsorted : [ofLatin1 "address", ofLatin1 "operator",
      ofLatin1 "value"].Pairwise (· < ·) := by decide
  have hentries : ∀ entries : List (QString × QVariant D),
      (entries.map Prod.fst).Sublist [ofLatin1 "address", ofLatin1 "operator", ofLatin1 "value"] →
      Json.rereadEntries repair qt entries [] =
        entries.map fun e => (e.1, reread repair qt e.2) := by
    intro entries hsub
    exact Json.rereadEntries_nil qt
      (fun e hmem => hkeys _ (hsub.subset (mem_map_of_mem hmem))) (hsorted.sublist hsub)
  unfold Rule.conditionMap storedMap
  rw [reread]
  congr 1
  cases c.value.isValid with
  | false =>
    refine (hentries _ ?_).trans rfl
    exact sublist_append_left [_, _] [_]
  | true =>
    refine (hentries _ ?_).trans rfl
    exact List.Sublist.refl _

theorem value_storedMap (qt : Qt D) (c : RuleCondition D) :
    QVariant.value (storedMap qt c) "address" = .string (repair c.address) ∧
      QVariant.value (storedMap qt c) "operator" = .string (repair c.operator) ∧
        QVariant.value (storedMap qt c) "value" = reread repair qt c.value := by
  unfold storedMap
  cases hvalue : c.value with
  | invalid =>
    rw [reread]
    exact ⟨rfl, rfl, rfl⟩
  | bool _ | int _ | double _ | string _ | list _ | map _ => exact ⟨rfl, rfl, rfl⟩

theorem stored_eq_build (c : RuleCondition D) :
    stored env c = build env (ofAddress env (repair c.address)
      (repair c.operator) (reread repair env.qt c.value)) := by
  obtain ⟨haddress, hoperator, hvalue⟩ := value_storedMap env.qt c
  unfold stored
  rw [ofMap_eq_build, haddress, hoperator, hvalue]
  rfl

theorem every_conditionMap_iff {p : D → Prop} {c : RuleCondition D} :
    Every (Parts.doubles p) (Rule.conditionMap c) ↔ Every (Parts.doubles p) c.value := by
  unfold Rule.conditionMap
  cases hvalue : c.value with
  | invalid | bool _ | int _ | double _ | string _ | list _ | map _ =>
    simp [QVariant.isValid, Every, Json.EveryEntry, Parts.doubles]

/-! ## Conditions behind storage -/

def Constructed (env : RuleEnv D) (c : RuleCondition D) : Prop :=
  ∃ map, c = ofMap env map ∧ IntSized (QVariant.value map "value")

/-- The two conditions are about the same item, and have the same operator, number or
seconds, times and week days. -/
structure SameCondition (c c' : RuleCondition D) : Prop extends Alike c c' where
  resource : c'.resource = c.resource
  id : c'.id = c.id
  operator : c'.operator = c.operator

/-- The cached id is the one in the address that is kept, and UTF-8 changes neither id nor
suffix; all numbers are finite. -/
structure Keeps (env : RuleEnv D) (finite : D → Prop) (c : RuleCondition D) : Prop where
  wellFormed : QString.WellFormed c.id
  id : c.id = addressId c.address
  suffix : addressSuffix env (repair c.address) = c.suffix
  numbers : Every (Parts.doubles finite) c.value

theorem ofMap_address (map : List (QString × QVariant D)) :
    ∃ address, (ofMap env map).address = newStyle address ∧ (ofMap env map).resource =
      addressResource address ∧
      (ofMap env map).suffix = addressSuffix env (newStyle address) ∧
      (ofMap env map).id = addressId address := by
  have htarget := target_ofMap env map
  unfold target at htarget
  simp only [Prod.mk.injEq] at htarget
  obtain ⟨haddress, -, hresource, hsuffix, hid⟩ := htarget
  exact ⟨_, haddress, hresource, hsuffix, hid⟩

theorem op_build_unknown {env : RuleEnv D} {c : RuleCondition D} (h : c.op = .unknown) :
    (build env c).isValid = false := by
  by_contra hnot
  rw [Bool.not_eq_false] at hnot
  have hinvalid : c.isValid = false := by
    unfold isValid
    rw [h]
    rfl
  unfold build at hnot
  split at hnot
  · rename_i str hvalue
    have htext := isValid_of_withNumber env hnot
    have hkept : (withText env c str).op = .unknown := by
      unfold withText
      rw [h]
      simp only [reduceCtorEq, or_self, false_and, if_false]
      split
      · rfl
      · exact h
    unfold isValid at htext
    rw [hkept] at htext
    cases htext
  · rw [isValid_of_withNumber env hnot] at hinvalid
    cases hinvalid

section Storage

variable {env : RuleEnv D} {finite : D → Prop}

variable {c : RuleCondition D}

/-- **The item of a condition that is read again.** -/
theorem stored_item (hc : Constructed env c) :
    (stored env c).resource = c.resource ∧
      ((stored env c).id = c.id ↔ QString.WellFormed c.id ∧ c.id = addressId c.address) ∧
      (stored env c).suffix = addressSuffix env (repair c.address) := by
  obtain ⟨map, rfl, -⟩ := hc
  obtain ⟨address, haddress, hresource, -, hid⟩ := ofMap_address env map
  have htarget := target_ofMap env (storedMap env.qt (ofMap env map))
  unfold target ofAddress at htarget
  rw [(value_storedMap env.qt (ofMap env map)).1] at htarget
  simp only [Prod.mk.injEq] at htarget
  obtain ⟨-, -, hresource', hsuffix', hid'⟩ := htarget
  unfold stored
  refine ⟨?_, ?_, ?_⟩
  · rw [hresource', hresource, haddress]
    show addressResource (repair (newStyle address)) = _
    rw [addressResource_repair, addressResource_newStyle]
  · rw [hid', hid, haddress]
    show addressId (repair (newStyle address)) = _ ↔ _
    rw [addressId_repair]
    exact repair_addressId_iff address
  · rw [hsuffix', haddress]
    exact addressSuffix_newStyle_repair env address

/-- **A condition that keeps its suffix reads its operator and value as before.** -/
theorem alike_stored (hints : ReadsInts env.qt) (hc : Constructed env c) (hvalid : c.isValid = true)
    (hsuffix : addressSuffix env (repair c.address) = c.suffix) :
    Alike c (stored env c) ∧ (stored env c).operator = c.operator := by
  obtain ⟨map, rfl, hsized⟩ := hc
  obtain ⟨address, haddress, -, -, -⟩ := ofMap_address env map
  have htarget := target_ofMap env map
  have htarget' := target_ofMap env (storedMap env.qt (ofMap env map))
  unfold target ofAddress at htarget htarget'
  rw [(value_storedMap env.qt (ofMap env map)).2.1] at htarget'
  simp only [Prod.mk.injEq] at htarget htarget'
  -- the operator is one of the texts of the source
  have hop : Operator.ofString (ofMap env map).operator ≠ .unknown := by
    intro hunknown
    rw [htarget.2.1] at hunknown
    rw [ofMap_eq_build, op_build_unknown hunknown] at hvalid
    cases hvalid
  have hoperator := Operator.repair_eq_self hop
  refine ⟨?_, htarget'.2.1.trans hoperator⟩
  rw [stored_eq_build, hoperator]
  show Alike (build env (ofAddress env ((QVariant.value map "address").toString env.qt)
    ((QVariant.value map "operator").toString env.qt) (QVariant.value map "value"))) _
  refine alike_build env hints ?_ hsized hvalid rfl
  refine ⟨?_, ?_, rfl, rfl, rfl, rfl⟩
  · show addressSuffix env (newStyle (repair (ofMap env map).address)) = _
    rw [haddress, addressSuffix_newStyle_repair, ← haddress, hsuffix]
    exact htarget.2.2.2.1
  · show Operator.ofString (ofMap env map).operator = _
    rw [htarget.2.1]
    rfl

/-- The conditions are read again as they were, one by one. -/
def ConditionsSurvive (env : RuleEnv D) (conditions : List (RuleCondition D)) : Prop :=
  List.Forall₂ SameCondition conditions
    (Rule.jsonToConditions env (Rule.conditionsToString env.qt conditions))

theorem every_readBack_iff (hqt : Numbers env.qt finite) {v : QVariant D} :
    Every (Parts.doubles (ReadBack env.qt)) v ↔ Every (Parts.doubles finite) v := by
  constructor
  · intro h
    exact h.imp (fun _ h => h) (fun _ hd => hqt.readBack_iff.mp hd) (fun _ h => h) fun _ h => h
  · intro h
    exact h.imp (fun _ h => h) (fun _ hd => hqt.readBack_iff.mpr hd) (fun _ h => h) fun _ h => h

variable {conditions : List (RuleCondition D)}

theorem every_conditionMaps_iff {p : D → Prop} :
    Every (Parts.doubles p) (.list (conditions.map Rule.conditionMap)) ↔ ∀ c ∈
      conditions, Every (Parts.doubles p) c.value := by
  rw [Every, Json.everyValue_iff, forall_mem_map]
  constructor
  · exact fun h c hmem => every_conditionMap_iff.mp (h c hmem)
  · exact fun h c hmem => every_conditionMap_iff.mpr (h c hmem)

theorem jsonToConditions_conditionsToString (hqt : Numbers env.qt finite)
    (h : ∀ c ∈ conditions, Every (Parts.doubles finite) c.value) :
    Rule.jsonToConditions env (Rule.conditionsToString env.qt conditions) =
      (conditions.map (stored env)).filter isValid := by
  have hread := (every_readBack_iff hqt).mpr (every_conditionMaps_iff.mpr h)
  have hmaps : reread repair env.qt (.list (conditions.map Rule.conditionMap)) =
      .list (conditions.map fun c => .map (storedMap env.qt c)) := by
    rw [reread, Json.rereadList_eq_map, map_map]
    congr 1
    apply map_congr_left
    intro c _
    exact reread_conditionMap env.qt c
  unfold Rule.jsonToConditions Rule.conditionsToString RuleRequest.newConditions
  rw [Json.parse_serialize_readBack hread, hmaps]
  show ((conditions.map _).map _).filter isValid = _
  rw [map_map]
  rfl

theorem jsonToConditions_lost (hqt : Numbers env.qt finite) (hmem : c ∈ conditions)
    (hc : ¬ Every (Parts.doubles finite) c.value) :
    Rule.jsonToConditions env (Rule.conditionsToString env.qt conditions) = [] := by
  have hnot : ¬ Every (Parts.doubles (ReadBack env.qt))
      (.list (conditions.map Rule.conditionMap)) := by
    rw [every_readBack_iff hqt, every_conditionMaps_iff]
    exact fun h => hc (h c hmem)
  have hrefused := Json.parse_text_refused repair (fun d => hqt.cases d) hnot
    (by intro d hd; cases hd)
  unfold Rule.jsonToConditions Rule.conditionsToString
  rw [Json.fromUtf8_serialize (Json.written_of_numbers hqt _)]
  exact if_pos hrefused

/-- **Exactly which conditions survive storage.** -/
theorem conditions_survive_iff (hqt : Numbers env.qt finite) (hints : ReadsInts env.qt)
    {conditions : List (RuleCondition D)}
    (hconditions : ∀ c ∈ conditions, c.isValid = true ∧ Constructed env c) :
    ConditionsSurvive env conditions ↔ ∀ c ∈ conditions, Keeps env finite c := by
  unfold ConditionsSurvive
  constructor
  · intro h
    have hnumbers : ∀ c ∈ conditions, Every (Parts.doubles finite) c.value := by
      intro c hmem
      by_contra hnot
      rw [jsonToConditions_lost hqt hmem hnot, forall₂_nil_right_iff] at h
      subst h
      cases hmem
    rw [jsonToConditions_conditionsToString hqt hnumbers] at h
    -- as many conditions come back, so none of them is invalid
    have hall : (conditions.map (stored env)).filter isValid = conditions.map (stored env) := by
      apply filter_sublist.eq_of_length
      rw [← h.length_eq, length_map]
    rw [hall, forall₂_map_right_iff, forall₂_same] at h
    intro c hmem
    obtain ⟨-, hid, hsuffix⟩ := stored_item (hconditions c hmem).2
    have hsame := h c hmem
    obtain ⟨hwell, hkept⟩ := hid.mp hsame.id
    exact ⟨hwell, hkept, hsuffix.symm.trans hsame.suffix, hnumbers c hmem⟩
  · intro h
    have hsame : ∀ c ∈ conditions, SameCondition c (stored env c) := by
      intro c hmem
      obtain ⟨hvalid, hc⟩ := hconditions c hmem
      obtain ⟨hresource, hid, -⟩ := stored_item hc
      obtain ⟨halike, hoperator⟩ := alike_stored hints hc hvalid (h c hmem).suffix
      exact ⟨halike, hresource, hid.mpr ⟨(h c hmem).wellFormed, (h c hmem).id⟩, hoperator⟩
    have hall : (conditions.map (stored env)).filter isValid = conditions.map (stored env) := by
      rw [filter_eq_self, forall_mem_map]
      intro c hmem
      have hvalid := (hconditions c hmem).1
      unfold isValid at hvalid ⊢
      rw [(hsame c hmem).op]
      exact hvalid
    rw [jsonToConditions_conditionsToString hqt fun c hmem => (h c hmem).numbers, hall,
      forall₂_map_right_iff, forall₂_same]
    exact hsame

end Storage

theorem intSized_of_parsed {v : QVariant D} (hv : Every Parts.parsed v) : IntSized v := by
  rintro n rfl
  rw [Every] at hv
  exact hv.elim

theorem constructed_of_parse (json : QString) :
    Constructed env (ofMap env (Json.parse env.qt json).1.toMap) :=
  ⟨_, rfl, intSized_of_parsed ((Json.every_parse env.qt json).value "value")⟩

open RuleRequest (wholeEnv)

theorem readsInts_wholeQt : ReadsInts Json.wholeQt := by
  intro n _ _
  show some (Json.wholeQt.toDouble (ofLatin1 (toString n))) = some n
  rw [Json.toDouble_wholeQt]

def buttonAtNight : List (RuleCondition Int) :=
  [ofMap wholeEnv (requestMap "/sensors/1/state/buttonevent" "eq"
      (.string (ofLatin1 "1002"))),
    ofMap wholeEnv (requestMap "/config/localtime" "in"
      (.string (ofLatin1 "W124/T22:00:00/T06:00:00")))]

theorem buttonAtNight_valid : ∀ c ∈ buttonAtNight, c.isValid = true ∧ Constructed wholeEnv c := by
  have hvalid : (buttonAtNight.all isValid) = true := by decide +kernel
  intro c hmem
  refine ⟨all_eq_true.mp hvalid c hmem, ?_⟩
  simp only [buttonAtNight, mem_cons, not_mem_nil, or_false] at hmem
  rcases hmem with rfl | rfl
  · exact ⟨_, rfl, fun n h => by cases h⟩
  · exact ⟨_, rfl, fun n h => by cases h⟩

theorem buttonAtNight_keeps : ∀ c ∈ buttonAtNight, Keeps wholeEnv (fun _ => True) c := by
  have hall : ∀ c ∈ buttonAtNight, repair c.id = c.id ∧ c.id = addressId c.address ∧
      addressSuffix wholeEnv c.address = c.suffix := by
    decide +kernel
  intro c hmem
  obtain ⟨hid, hkept, hsuffix⟩ := hall c hmem
  refine ⟨repair_eq_self_iff.mp hid, hkept, ?_, ?_⟩
  · rw [addressSuffix_repair (by decide), hsuffix]
  · exact Json.every_of_forall (fun _ => trivial) (fun _ => trivial) (fun _ => trivial)
      (fun _ => trivial) _

theorem conditions_survive_iff_buttonAtNight : ConditionsSurvive wholeEnv buttonAtNight :=
  (conditions_survive_iff Json.numbers_wholeQt readsInts_wholeQt buttonAtNight_valid).mpr
    buttonAtNight_keeps

/-- `Json.wholeQt` with an infinity, which `QString::toDouble` makes of too large a number. -/
def boundedEnv : RuleEnv (Option Int) where
  qt :=
    let finitePart : QVariant (Option Int) → QVariant Int
      | .bool b => .bool b
      | .int n | .double (some n) => .int n
      | .string s => .string s
      | _ => .invalid
    { toDouble := fun s =>
        if s = ofLatin1 "1e999" then none else some (Json.wholeQt.toDouble s)
      toIntBase16 := Json.wholeQt.toIntBase16
      ofInt := some
      toInt := fun v => Json.wholeQt.toInt (finitePart v)
      toBool := fun v => Json.wholeQt.toBool (finitePart v)
      toText := fun v => Json.wholeQt.toText (finitePart v)
      number := fun d => (d.map Json.wholeQt.number).getD (Json.ascii "inf")
      eqv := fun v w => Json.wholeQt.eqv (finitePart v) (finitePart w) }
  stringToInt := wholeEnv.stringToInt
  zone := wholeEnv.zone
  descriptors := wholeEnv.descriptors

def largeValue : QString :=
  ["\x7b\"address\":", "\"/sensors/1", "/state", "/buttonevent\",", "\"operator\":\"dx\",",
    "\"value\":", "[1e999]\x7d"].flatMap ofLatin1

/-- **An infinity is written as no JSON**, and no condition comes back. -/
theorem largeValue_lost :
    (ofMap boundedEnv (Json.parse boundedEnv.qt largeValue).1.toMap).isValid = true ∧
      Constructed boundedEnv (ofMap boundedEnv (Json.parse boundedEnv.qt largeValue).1.toMap) ∧
      ¬ ConditionsSurvive boundedEnv
        [ofMap boundedEnv (Json.parse boundedEnv.qt largeValue).1.toMap] := by
  have hnone : (Rule.jsonToConditions boundedEnv (Rule.conditionsToString boundedEnv.qt
      [ofMap boundedEnv (Json.parse boundedEnv.qt largeValue).1.toMap])).length = 0 := by
    decide +kernel
  refine ⟨by decide +kernel, constructed_of_parse boundedEnv largeValue, ?_⟩
  intro h
  have hlength := h.length_eq
  rw [hnone] at hlength
  cases hlength

/-- The id of a sensor that is called `illuminance` is another one in the address. -/
example : (Rule.jsonToConditions wholeEnv (Rule.conditionsToString wholeEnv.qt
    [ofMap wholeEnv (requestMap "/sensors/illuminance/state/illuminance" "dx" .invalid)])).map
      (fun c => c.id) = [ofLatin1 "lux"] := by
  decide +kernel

end RuleCondition
end DeconzRest

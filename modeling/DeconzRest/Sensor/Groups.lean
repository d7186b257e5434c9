import DeconzRest.Event.Emitter
import DeconzRest.Qt.StringList
import Mathlib

/-!
# The groups of a remote

A remote with several controller endpoints keeps one group for each endpoint in `config/group`,
separated by commas.  `checkSensorButtonEvent` learns the groups from the group casts it receives:
`learnGroup` is that part of it, for a remote that no DDF manages.

For most remotes and most frames the list is one group per endpoint (`learnGroup_refines`), but
the five entries of a ZGRC-KEY-012 are thrown away with every other frame, and the entry is found
by a calculation that also gives an entry, or a place outside of the list, to endpoints that have
none.
-/

namespace DeconzRest
namespace SensorGroups

open QString List Option

def rSensors : String := "/sensors"
def rConfigGroup : String := "config/group"
def rEventValidGroup : String := "event/validgroup"

/-- The item `config/group`; `setValue` trims every text. -/
structure GroupItem where
  text : QString
  trimmed : trimmed text = text

/-- `item->setValue` -/
def GroupItem.setValue (val : QString) : GroupItem := ⟨val.trimmed, trimmed_trimmed val⟩

/-- `addItem(DataTypeString, RConfigGroup)` where there is none yet -/
def GroupItem.new : GroupItem := ⟨[], rfl⟩

/-- What the code reads and writes of a sensor; `events` are those that were enqueued. -/
structure Sensor where
  modelId : QString
  id : QString
  group : Option GroupItem := none
  needSaveDatabase : Bool := false
  events : List Event := []

structure Indication where
  toGroup : Bool
  group : UInt16
  srcEndpoint : UInt8
deriving DecidableEq, Repr

/-- `item->toString().split(',')` -/
def Sensor.gids (sensor : Sensor) : List QString :=
  splitAll (sensor.group.getD .new).text ','

/-- The group is in `config/group` from here on. -/
def Sensor.store (sensor : Sensor) (val : QString) : Sensor :=
  { sensor with
    group := some (.setValue val)
    needSaveDatabase := true
    events := sensor.events ++ [{ resource := rSensors, what := rConfigGroup, id := sensor.id }] }

/-- `enqueueEvent(Event(RSensors, REventValidGroup, sensor->id()))` -/
def Sensor.validGroup (sensor : Sensor) : Sensor :=
  { sensor with
    events := sensor.events ++
      [{ resource := rSensors, what := rEventValidGroup, id := sensor.id }] }

def zeros (n : Nat) : List QString := List.replicate n (number 0)

/-- Put the group in the place of the endpoint; `none` is an access outside of the list. -/
def Sensor.setEntry (sensor : Sensor) (gids : List QString) (i : Int) (gid : QString) :
    Option Sensor :=
  if valueAt gids i ≠ gid then
    (replaceAt gids i gid).map fun gids => (sensor.store (join ',' gids)).validGroup
  else
    some sensor.validGroup

/-- `modelId().startsWith(..)` -/
def Sensor.starts (sensor : Sensor) (front : String) : Bool :=
  startsWith sensor.modelId (ofLatin1 front)

/-- `modelId() == ..` -/
def Sensor.isModel (sensor : Sensor) (modelId : String) : Bool :=
  sensor.modelId == ofLatin1 modelId

/-- The models that `startsWith("RC 110")` stands for: seven controller endpoints, without 0x02 -/
def Sensor.isInnr (sensor : Sensor) : Bool := sensor.starts "RC 110"

/-- The models with four controller endpoints, or five -/
def Sensor.isKeypad (sensor : Sensor) : Bool :=
  sensor.starts "ICZB-RM" || sensor.starts "ZGR904-S" || sensor.starts "ZGRC-KEY" ||
    sensor.starts "ZG2833PAC" || sensor.isModel "4512705" || sensor.isModel "4512726" ||
    sensor.starts "S57003" || sensor.starts "RGBgenie ZB-5001" || sensor.starts "ZGRC-TEUR-"

/-- The model with five controller endpoints -/
def Sensor.hasFive (sensor : Sensor) : Bool := sensor.starts "ZGRC-KEY-012"

def innrGids (gids : List QString) : List QString := if gids.length ≠ 7 then zeros 7 else gids

def innrPlace (srcEndpoint : UInt8) : Int := srcEndpoint.toNat - (if srcEndpoint = 1 then 1 else 2)

/-- The list of a remote with four or five entries, as the chain of `if`s has it -/
def keypadGids (sensor : Sensor) (gids : List QString) : List QString :=
  if gids.length ≠ 5 ∧ sensor.hasFive = true then zeros 5
  else if gids.length ≠ 4 then zeros 4
  else gids

/-- The three groups of a remote that casts to neighbouring groups; `none` where nothing changes -/
def neighbourGids (gids : List QString) (groupId : Int) : Option (List QString) :=
  let gid := number
  let gids := if gids.length ≠ 3 then zeros 3 else gids
  let value := valueAt gids
  if gid groupId ∈ gids then
    none
  else if value 1 = gid 0 ∧ value 0 = gid (groupId - 2) then
    some ((gids.set 1 (gid (groupId - 1))).set 2 (gid groupId))
  else if value 1 = gid 0 ∧ value 0 = gid (groupId - 1) then
    some (gids.set 1 (gid groupId))
  else if value 1 = gid 0 ∧ value 0 = gid (groupId + 2) then
    some [gid groupId, gid (groupId + 1), gid (groupId + 2)]
  else if value 1 = gid 0 ∧ value 0 = gid (groupId + 1) then
    some ((gids.set 0 (gid groupId)).set 1 (gid (groupId + 1)))
  else if value 2 = gid 0 ∧ value 1 = gid (groupId - 1) then
    some (gids.set 2 (gid groupId))
  else if value 2 = gid 0 ∧ value 0 = gid (groupId + 1) then
    some [gid groupId, gid (groupId + 1), gid (groupId + 1)]
  else
    some [gid groupId, gid 0, gid 0]

def Sensor.learns (sensor : Sensor) (ind : Indication) : Bool :=
  ind.toGroup && ind.group ≠ 0 && !sensor.isModel "Pocket remote" &&
    !(ind.srcEndpoint = 2 && sensor.isModel "Kobold")

/-- The part of `checkSensorButtonEvent` that learns `config/group`; `none` is an access outside
of the list of groups. -/
def learnGroup (sensor : Sensor) (ind : Indication) : Option Sensor :=
  if sensor.learns ind = false then
    some sensor
  else
    let sensor := { sensor with group := some (sensor.group.getD .new) }
    let gid := number ind.group.toNat
    if sensor.isInnr = true then
      sensor.setEntry (innrGids sensor.gids) (innrPlace ind.srcEndpoint) gid
    else if sensor.isKeypad = true then
      sensor.setEntry (keypadGids sensor sensor.gids) (ind.srcEndpoint.toNat - 1) gid
    else if sensor.starts "ZBT-Remote-ALL-RGBW" = true then
      match neighbourGids sensor.gids ind.group.toNat with
      | some gids => some (sensor.store (join ',' gids)).validGroup
      | none => some sensor.validGroup
    else if gid ∈ sensor.gids then
      some sensor.validGroup
    else
      some (sensor.store gid).validGroup

/-- A remote with one entry for each controller endpoint -/
def Sensor.IsMulti (sensor : Sensor) : Prop := sensor.isInnr = true ∨ sensor.isKeypad = true

def Sensor.entries (sensor : Sensor) : Nat :=
  if sensor.isInnr = true then 7 else if sensor.hasFive = true then 5 else 4

def Sensor.entryOf (sensor : Sensor) (endpoint : UInt8) : Option Nat :=
  if sensor.isInnr = true then
    if endpoint = 1 then some 0
    else if 3 ≤ endpoint.toNat ∧ endpoint.toNat ≤ 8 then some (endpoint.toNat - 2)
    else none
  else if 1 ≤ endpoint.toNat ∧ endpoint.toNat ≤ sensor.entries then some (endpoint.toNat - 1)
  else none

def Sensor.entryFor (sensor : Sensor) (ind : Indication) : Option Nat :=
  if sensor.learns ind = true then sensor.entryOf ind.srcEndpoint else none

/-- The list of groups of a remote, all 0 where the item holds another number of them -/
def Sensor.groups (sensor : Sensor) : List QString :=
  if sensor.gids.length = sensor.entries then sensor.gids else zeros sensor.entries

def Sensor.lastUsed (sensor : Sensor) (inds : List Indication) (i : Nat) : Option UInt16 :=
  (inds.reverse.find? fun ind => sensor.entryFor ind = some i).map (·.group)

def learnGroups (sensor : Sensor) (inds : List Indication) : Option Sensor :=
  inds.foldlM learnGroup sensor

/-- What is asked of a frame behind the frames `past`: a group cast from a controller endpoint sets
its entry, and the other entries are what their endpoints used last; any other frame leaves
`config/group` as it was. -/
def Learns (start : Sensor) (past : List Indication) (before : Sensor) (ind : Indication)
    (after : Sensor) : Prop :=
  match start.entryFor ind with
  | none => (after.group.getD .new).text = (before.group.getD .new).text
  | some i =>
    after.gids.length = start.entries ∧ after.gids[i]? = some (number ind.group.toNat) ∧ ∀ j, j <
      start.entries → j ≠ i → after.gids[j]? =
        match start.lastUsed past j with
        | some group => some (number group.toNat)
        | none => start.groups[j]?

/-- Every frame of a series does what is asked of it, without an access outside of the list. -/
def OneGroupPerEndpoint (start : Sensor) (inds : List Indication) : Prop :=
  ∀ k (hk : k < inds.length), ∃ before after, learnGroups start (inds.take k) = some before ∧
    learnGroup before inds[k] = some after ∧ Learns start (inds.take k) before inds[k] after

/-- The condition on a frame: the list of a remote with five entries is not complete already, and
a group cast is from a controller endpoint.  Endpoint 0x02 of the remote with seven entries has the
entry of endpoint 0x01 by mistake, which does no harm where the group is the same. -/
def Meets (sensor : Sensor) (ind : Indication) : Prop :=
  sensor.learns ind = true →
    ¬ (sensor.hasFive = true ∧ sensor.gids.length = 5) ∧
      ((sensor.entryOf ind.srcEndpoint).isSome ∨ sensor.isInnr = true ∧ ind.srcEndpoint = 2 ∧
        sensor.gids.length = 7 ∧ sensor.gids[0]? = some (number ind.group.toNat))

theorem number_not_mem_comma (n : Nat) : unit ',' ∉ number n := by
  intro hmem
  have hdigit := mem_number hmem
  exact absurd hdigit.1 (by decide)

theorem not_isSpace_number {n : Nat} {c : QChar} (h : c ∈ number n) :
    isSpace c = false := isSpace_of_digit (mem_number h)

theorem mem_zeros {n : Nat} {s : QString} (h : s ∈ zeros n) : s = number (0 : Nat) :=
  eq_of_mem_replicate h

/-- A list that can be joined and read back -/
structure WellFormed (gids : List QString) : Prop where
  noComma : ∀ s ∈ gids, unit ',' ∉ s
  ends : QString.EndsSatisfy (fun c => isSpace c = false) gids

theorem wellFormed_zeros (n : Nat) : WellFormed (zeros n) where
  noComma := by
    intro s hs
    rw [mem_zeros hs]
    exact number_not_mem_comma 0
  ends := .of_forall fun s hs c hc => by
    rw [mem_zeros hs] at hc
    exact not_isSpace_number hc

theorem WellFormed.set {gids : List QString} (h : WellFormed gids) (i n : Nat) :
    WellFormed (gids.set i (number n)) where
  noComma := by
    intro s hs
    rcases mem_or_eq_of_mem_set hs with hs | rfl
    · exact h.noComma s hs
    · exact number_not_mem_comma n
  ends := h.ends.set i fun _ hc => not_isSpace_number hc

theorem wellFormed_gids (sensor : Sensor) : WellFormed sensor.gids where
  noComma := fun _ hs => not_mem_of_mem_splitAll hs
  ends := by
    refine (@QString.trimmed_join_iff _ ',' (by decide) (splitAll_ne_nil _ _)).mp ?_
    rw [join_splitAll]
    exact (sensor.group.getD .new).trimmed

/-- **What is stored is read back.** -/
theorem gids_store (sensor : Sensor) {gids : List QString} (h : WellFormed gids) (hne : gids ≠ []) :
    (sensor.store (join ',' gids)).validGroup.gids = gids := by
  show splitAll (trimmed (join ',' gids)) ',' = gids
  rw [(trimmed_join_iff (by decide) hne).mpr h.ends, splitAll_join hne h.noComma]

/-! ## One frame -/

section Frame

variable {sensor : Sensor} {gids : List QString} {ind : Indication}

theorem valueAt_natCast (l : List QString) (i : Nat) : valueAt l i = l.getD i [] := by
  unfold valueAt
  rw [if_pos (Int.natCast_nonneg i), Int.toNat_natCast]

theorem setEntry_of_lt {i n : Nat} (h : WellFormed gids) (hi : i < gids.length)
    (hsame : gids[i]? = some (number n) → gids = sensor.gids) :
    ∃ after, sensor.setEntry gids i (number n) = some after ∧ after.modelId = sensor.modelId ∧
      after.gids = gids.set i (number n) := by
  unfold Sensor.setEntry
  rw [valueAt_natCast, getD_eq_getElem?_getD, List.getElem?_eq_getElem hi, getD_some]
  by_cases hvalue : gids[i] = number n
  · rw [if_neg (not_not.mpr hvalue)]
    refine ⟨_, rfl, rfl, ?_⟩
    rw [← hvalue, set_getElem_self]
    exact (hsame (by rw [List.getElem?_eq_getElem hi, hvalue])).symm
  · rw [if_pos hvalue]
    unfold replaceAt
    rw [if_pos ⟨Int.natCast_nonneg i, Int.ofNat_lt.mpr hi⟩, Int.toNat_natCast]
    have hne : gids.set i (number n) ≠ [] := by
      intro hnil
      rw [set_eq_nil_iff] at hnil
      rw [hnil] at hi
      exact Nat.not_lt_zero i hi
    exact ⟨_, rfl, rfl, gids_store sensor (h.set i n) hne⟩

theorem setEntry_out {i : Int} (n : Nat) (hi : ¬ (0 ≤ i ∧ i < gids.length)) :
    sensor.setEntry gids i (number n) = none := by
  have hvalue : valueAt gids i = [] := by
    unfold valueAt
    split
    · rename_i hpos
      rw [getD_eq_getElem?_getD, List.getElem?_eq_none (by omega), getD_none]
    · rfl
  unfold Sensor.setEntry replaceAt
  rw [hvalue, if_pos (Ne.symm (number_ne_nil n)), if_neg hi]
  rfl

def Sensor.list (sensor : Sensor) : List QString :=
  if sensor.isInnr = true then innrGids sensor.gids else keypadGids sensor sensor.gids

def Sensor.place (sensor : Sensor) (endpoint : UInt8) : Int :=
  if sensor.isInnr = true then innrPlace endpoint else endpoint.toNat - 1

/-- The item is there from the first frame on. -/
def Sensor.withItem (sensor : Sensor) : Sensor :=
  { sensor with group := some (sensor.group.getD .new) }

theorem learnGroup_multi (hmulti : sensor.IsMulti) (hlearns : sensor.learns ind = true) :
    learnGroup sensor ind = sensor.withItem.setEntry sensor.list (sensor.place ind.srcEndpoint)
      (number ind.group.toNat) := by
  unfold learnGroup Sensor.list Sensor.place
  rw [hlearns, if_neg (Ne.symm Bool.false_ne_true)]
  simp only
  by_cases hinnr : sensor.isInnr = true
  · rw [if_pos hinnr, if_pos hinnr]
    exact if_pos hinnr
  · have hkeypad : sensor.isKeypad = true := hmulti.resolve_left hinnr
    rw [if_neg hinnr, if_neg hinnr]
    exact (if_neg hinnr).trans (if_pos hkeypad)

theorem learnGroup_of_not_learns (hlearns : sensor.learns ind = false) :
    learnGroup sensor ind = some sensor := if_pos hlearns

theorem not_hasFive_of_isInnr (h : sensor.isInnr = true) : sensor.hasFive = false := by
  obtain ⟨t, ht⟩ := isPrefixOf_iff_prefix.mp h
  unfold Sensor.hasFive Sensor.starts startsWith
  rw [← ht]
  rfl

theorem wellFormed_groups (sensor : Sensor) : WellFormed sensor.groups := by
  unfold Sensor.groups
  split
  · exact wellFormed_gids sensor
  · exact wellFormed_zeros _

theorem length_groups (sensor : Sensor) : sensor.groups.length = sensor.entries := by
  unfold Sensor.groups
  split
  · assumption
  · exact length_replicate

theorem list_eq_groups (h : ¬ (sensor.hasFive = true ∧ sensor.gids.length = 5)) :
    sensor.list = sensor.groups := by
  unfold Sensor.list Sensor.groups Sensor.entries
  by_cases hinnr : sensor.isInnr = true
  · rw [if_pos hinnr, if_pos hinnr, innrGids]
    split <;> simp_all
  · rw [if_neg hinnr, if_neg hinnr, keypadGids]
    by_cases hfive : sensor.hasFive = true
    · have hlength : sensor.gids.length ≠ 5 := fun hlength => h ⟨hfive, hlength⟩
      rw [if_pos ⟨hlength, hfive⟩, if_pos hfive, if_neg hlength]
    · rw [if_neg (fun hboth => hfive hboth.2), if_neg hfive]
      split <;> simp_all

theorem list_of_five (hfive : sensor.hasFive = true) (hlength : sensor.gids.length = 5) :
    sensor.list = zeros 4 := by
  have hinnr : sensor.isInnr ≠ true := by
    intro h
    rw [not_hasFive_of_isInnr h] at hfive
    exact Bool.noConfusion hfive
  unfold Sensor.list
  rw [if_neg hinnr, keypadGids, if_neg (fun hboth => hboth.1 hlength), if_pos (by omega)]

theorem place_of_entryOf {endpoint : UInt8} {i : Nat} (h : sensor.entryOf endpoint = some i) :
    sensor.place endpoint = i ∧ i < sensor.entries := by
  unfold Sensor.entryOf at h
  unfold Sensor.place
  by_cases hinnr : sensor.isInnr = true
  · have hentries : sensor.entries = 7 := if_pos hinnr
    rw [if_pos hinnr] at h
    rw [if_pos hinnr, innrPlace, hentries]
    split at h
    · rename_i hone
      obtain rfl := some.inj h
      rw [hone]
      decide
    · rename_i hone
      rw [if_neg hone]
      split at h
      · rename_i hrange
        obtain rfl := some.inj h
        omega
      · cases h
  · rw [if_neg hinnr] at h
    rw [if_neg hinnr]
    split at h
    · rename_i hrange
      obtain rfl := some.inj h
      omega
    · cases h

theorem place_of_no_entry {endpoint : UInt8} (h : sensor.entryOf endpoint = none)
    (htwo : ¬ (sensor.isInnr = true ∧ endpoint = 2)) :
    ¬ (0 ≤ sensor.place endpoint ∧ sensor.place endpoint < sensor.entries) := by
  unfold Sensor.entryOf at h
  unfold Sensor.place
  by_cases hinnr : sensor.isInnr = true
  · have hentries : sensor.entries = 7 := if_pos hinnr
    have hne : endpoint.toNat ≠ 2 := fun heq => htwo ⟨hinnr, UInt8.toNat_inj.mp heq⟩
    rw [if_pos hinnr] at h
    rw [if_pos hinnr, innrPlace, hentries]
    split at h
    · cases h
    · rename_i hone
      rw [if_neg hone]
      split at h
      · cases h
      · omega
  · rw [if_neg hinnr] at h
    rw [if_neg hinnr]
    split at h
    · cases h
    · omega

end Frame

/-! ## One frame that meets the condition, and one that does not -/

section Step

variable {sensor : Sensor} {ind : Indication}

theorem number_group_ne_zero (hlearns : sensor.learns ind = true) :
    number ind.group.toNat ≠ number (0 : Nat) := by
  intro heq
  have hgroup : ind.group ≠ 0 := by
    unfold Sensor.learns at hlearns
    simp only [Bool.and_eq_true, decide_eq_true_eq] at hlearns
    exact hlearns.1.1.2
  have hread := toUInt_number (lt_trans ind.group.toNat_lt (by decide : 2 ^ 16 < 2 ^ 32))
  rw [heq, toUInt_number (by decide), some_inj] at hread
  exact hgroup (UInt16.toNat_inj.mp hread.symm)

theorem groups_eq_gids {i : Nat} (hlearns : sensor.learns ind = true)
    (hentry : sensor.groups[i]? = some (number ind.group.toNat)) :
    sensor.groups = sensor.gids ∧ sensor.gids.length = sensor.entries := by
  unfold Sensor.groups at hentry ⊢
  split
  · rename_i hlength
    exact ⟨rfl, hlength⟩
  · rename_i hlength
    rw [if_neg hlength] at hentry
    have hzero := mem_zeros (mem_of_getElem? hentry)
    exact absurd hzero (number_group_ne_zero hlearns)

theorem setEntry_groups {i : Nat} (hlearns : sensor.learns ind = true) (hi : i < sensor.entries) :
    ∃ after, sensor.withItem.setEntry sensor.groups i (number ind.group.toNat) = some after ∧
        after.modelId = sensor.modelId ∧
      after.gids = sensor.groups.set i (number ind.group.toNat) :=
  setEntry_of_lt (wellFormed_groups sensor) (by rw [length_groups]; exact hi)
    fun hentry => (groups_eq_gids hlearns hentry).1

/-- A frame that meets the condition sets the entry of its endpoint, or leaves the item as it
was. -/
theorem learnGroup_refines (hmulti : sensor.IsMulti) (hmeets : Meets sensor ind) :
    ∃ after, learnGroup sensor ind = some after ∧ after.modelId = sensor.modelId ∧
      match sensor.entryFor ind with
      | none => after.gids = sensor.gids
      | some i => i < sensor.entries ∧
          after.gids = sensor.groups.set i (number ind.group.toNat) := by
  unfold Sensor.entryFor
  by_cases hlearns : sensor.learns ind = true
  · obtain ⟨hfive, hentry⟩ := hmeets hlearns
    rw [if_pos hlearns, learnGroup_multi hmulti hlearns, list_eq_groups hfive]
    cases hplace : sensor.entryOf ind.srcEndpoint with
    | some i =>
      obtain ⟨hi, hlt⟩ := place_of_entryOf hplace
      obtain ⟨after, hset, hmodel, hgids⟩ := setEntry_groups hlearns hlt
      exact ⟨after, by rw [hi, hset], hmodel, hlt, hgids⟩
    | none =>
      -- endpoint 0x02 of the remote with seven entries, and the group is there already
      obtain hsome | ⟨hinnr, htwo, hlength, hfirst⟩ := hentry
      · rw [hplace] at hsome
        cases hsome
      · have hentries : sensor.entries = 7 := if_pos hinnr
        have hgroups : sensor.groups = sensor.gids := if_pos (hlength.trans hentries.symm)
        obtain ⟨after, hset, hmodel, hgids⟩ :=
          @setEntry_groups _ _ 0 hlearns (by rw [hentries]; omega)
        have hzero : sensor.place ind.srcEndpoint = (0 : Nat) := by
          unfold Sensor.place
          rw [if_pos hinnr, htwo]
          rfl
        refine ⟨after, by rw [hzero, hset], hmodel, ?_⟩
        obtain ⟨hlt, hvalue⟩ := List.getElem?_eq_some_iff.mp hfirst
        rw [hgids, hgroups, ← hvalue, set_getElem_self]
  · rw [if_neg hlearns]
    have hnot := Bool.eq_false_iff.mpr hlearns
    exact ⟨sensor, learnGroup_of_not_learns hnot, rfl, rfl⟩

theorem length_gids_of_five (hmulti : sensor.IsMulti) (hlearns : sensor.learns ind = true)
    (hfive : sensor.hasFive = true ∧ sensor.gids.length = 5) {after : Sensor}
    (hafter : learnGroup sensor ind = some after) :
    ∃ i, sensor.entryOf ind.srcEndpoint = some i ∧ after.gids.length ≠ sensor.entries := by
  rw [learnGroup_multi hmulti hlearns] at hafter
  have hinnr : sensor.isInnr ≠ true := fun h => by
    rw [not_hasFive_of_isInnr h] at hfive
    exact Bool.noConfusion hfive.1
  have hentries : sensor.entries = 5 := (if_neg hinnr).trans (if_pos hfive.1)
  rw [list_of_five hfive.1 hfive.2] at hafter
  have hrange : 0 ≤ sensor.place ind.srcEndpoint ∧ sensor.place ind.srcEndpoint < 4 := by
    by_contra hout
    rw [setEntry_out _ (by simpa [zeros] using hout)] at hafter
    cases hafter
  cases hentry : sensor.entryOf ind.srcEndpoint with
  | none =>
    have hout := place_of_no_entry hentry fun h => hinnr h.1
    omega
  | some i =>
    have hi := (place_of_entryOf hentry).1
    rw [hi] at hafter hrange
    have hlt : i < (zeros 4).length := by
      rw [zeros, length_replicate]
      omega
    obtain ⟨after', hset, -, hgids⟩ := @setEntry_of_lt sensor.withItem _ _ ind.group.toNat
      (wellFormed_zeros 4) hlt fun hzero =>
        absurd (mem_zeros (mem_of_getElem? hzero)) (number_group_ne_zero hlearns)
    obtain rfl := some.inj (hset.symm.trans hafter)
    refine ⟨i, rfl, ?_⟩
    rw [hgids, length_set, zeros, length_replicate, hentries]
    decide

theorem gids_ne_of_no_entry (hmulti : sensor.IsMulti) (hlearns : sensor.learns ind = true)
    (hfive : ¬ (sensor.hasFive = true ∧ sensor.gids.length = 5))
    (hno : sensor.entryOf ind.srcEndpoint = none)
    (hfirst : ¬ (sensor.isInnr = true ∧ ind.srcEndpoint = 2 ∧ sensor.gids.length = 7 ∧
      sensor.gids[0]? = some (number ind.group.toNat))) {after : Sensor}
    (hafter : learnGroup sensor ind = some after) : after.gids ≠ sensor.gids := by
  rw [learnGroup_multi hmulti hlearns, list_eq_groups hfive] at hafter
  by_cases htwo : sensor.isInnr = true ∧ ind.srcEndpoint = 2
  · have hentries : sensor.entries = 7 := if_pos htwo.1
    have hzero : sensor.place ind.srcEndpoint = (0 : Nat) := by
      unfold Sensor.place
      rw [if_pos htwo.1, htwo.2]
      rfl
    obtain ⟨after', hset, -, hgids⟩ :=
      @setEntry_groups _ _ 0 hlearns (by rw [hentries]; omega)
    rw [hzero] at hafter
    obtain rfl := some.inj (hset.symm.trans hafter)
    intro hsame
    have hlength : sensor.gids.length = 7 := by
      rw [← hsame, hgids, length_set, length_groups, hentries]
    refine hfirst ⟨htwo.1, htwo.2, hlength, ?_⟩
    rw [← hsame, hgids, List.getElem?_set_self (by rw [length_groups, hentries]; omega)]
  · have hout := place_of_no_entry hno htwo
    rw [← length_groups sensor] at hout
    rw [setEntry_out _ hout] at hafter
    cases hafter

theorem learnGroup_of_not_meets (hmulti : sensor.IsMulti) (hnot : ¬ Meets sensor ind) :
    sensor.learns ind = true ∧ ∀ after, learnGroup sensor ind = some after →
      match sensor.entryOf ind.srcEndpoint with
      | none => after.gids ≠ sensor.gids
      | some _ => after.gids.length ≠ sensor.entries := by
  unfold Meets at hnot
  rw [Classical.not_imp] at hnot
  obtain ⟨hlearns, hnot⟩ := hnot
  refine ⟨hlearns, fun after hafter => ?_⟩
  by_cases hfive : sensor.hasFive = true ∧ sensor.gids.length = 5
  · obtain ⟨i, hentry, hlength⟩ := length_gids_of_five hmulti hlearns hfive hafter
    rw [hentry]
    exact hlength
  · have hno : sensor.entryOf ind.srcEndpoint = none := by
      by_contra hsome
      exact hnot ⟨hfive, .inl (isSome_iff_ne_none.mpr hsome)⟩
    rw [hno]
    exact gids_ne_of_no_entry hmulti hlearns hfive hno (fun hfirst => hnot ⟨hfive, .inr hfirst⟩)
      hafter

end Step

/-! ## Runs -/

section Run

variable {start before after : Sensor} {inds : List Indication}

theorem setEntry_modelId {sensor : Sensor} {gids : List QString} {i : Int} {gid : QString}
    (h : sensor.setEntry gids i gid = some after) : after.modelId = sensor.modelId := by
  unfold Sensor.setEntry at h
  split at h
  · obtain ⟨_, -, rfl⟩ := map_eq_some_iff.mp h
    rfl
  · obtain rfl := some.inj h
    rfl

theorem learnGroup_modelId {ind : Indication} (hmulti : before.IsMulti)
    (h : learnGroup before ind = some after) : after.modelId = before.modelId := by
  by_cases hlearns : before.learns ind = true
  · rw [learnGroup_multi hmulti hlearns] at h
    have hkept : after.modelId = before.withItem.modelId := setEntry_modelId h
    exact hkept
  · rw [learnGroup_of_not_learns (Bool.eq_false_iff.mpr hlearns)] at h
    obtain rfl := some.inj h
    rfl

theorem entries_congr (h : after.modelId = before.modelId) : after.entries = before.entries := by
  unfold Sensor.entries Sensor.isInnr Sensor.hasFive Sensor.starts
  rw [h]

theorem entryFor_congr (h : after.modelId = before.modelId) (ind : Indication) :
    after.entryFor ind = before.entryFor ind := by
  unfold Sensor.entryFor Sensor.learns Sensor.entryOf Sensor.entries Sensor.isInnr Sensor.hasFive
    Sensor.starts Sensor.isModel
  rw [h]

theorem isMulti_congr (h : after.modelId = before.modelId) (hmulti : before.IsMulti) :
    after.IsMulti := by
  unfold Sensor.IsMulti Sensor.isInnr Sensor.isKeypad Sensor.starts Sensor.isModel at hmulti ⊢
  rw [h]
  exact hmulti

theorem learnGroups_append (start : Sensor) (past : List Indication) (ind : Indication) :
    learnGroups start (past ++ [ind]) =
      (learnGroups start past).bind fun sensor => learnGroup sensor ind := by
  unfold learnGroups
  rw [foldlM_append]
  cases List.foldlM learnGroup start past with
  | none => rfl
  | some sensor =>
    show (learnGroup sensor ind >>= fun sensor => pure sensor) = learnGroup sensor ind
    exact bind_pure _

theorem learnGroups_modelId (hmulti : start.IsMulti) (past : List Indication) :
    ∀ sensor, learnGroups start past = some sensor → sensor.modelId = start.modelId := by
  induction past using List.reverseRecOn with
  | nil =>
    intro sensor h
    obtain rfl := some.inj h
    rfl
  | append_singleton past ind ih =>
    intro sensor h
    rw [learnGroups_append] at h
    obtain ⟨middle, hmiddle, hsensor⟩ := bind_eq_some_iff.mp h
    have hmodel := ih middle hmiddle
    exact (learnGroup_modelId (isMulti_congr hmodel hmulti) hsensor).trans hmodel

theorem lastUsed_append (start : Sensor) (past : List Indication) (ind : Indication) (i : Nat) :
    start.lastUsed (past ++ [ind]) i = if start.entryFor ind =
      some i then some ind.group else start.lastUsed past i := by
  unfold Sensor.lastUsed
  rw [reverse_append, reverse_singleton, singleton_append, List.find?_cons]
  split
  · rename_i h
    rw [if_pos (of_decide_eq_true h)]
    rfl
  · rename_i h
    rw [if_neg (of_decide_eq_false h)]

/-- The entry that an endpoint should have behind a series of frames -/
def Sensor.expected (start : Sensor) (past : List Indication) (j : Nat) : Option QString :=
  match start.lastUsed past j with
  | some group => some (number group.toNat)
  | none => start.groups[j]?

theorem learnGroups_groups (hmulti : start.IsMulti)
    (hmeets : ∀ k (hk : k < inds.length) sensor, learnGroups start (inds.take k) = some sensor →
      Meets sensor inds[k]) (k : Nat) (hk : k ≤ inds.length) :
    ∃ sensor, learnGroups start (inds.take k) = some sensor ∧ ∀ j, j < start.entries →
      sensor.groups[j]? = start.expected (inds.take k) j := by
  induction k with
  | zero => exact ⟨start, rfl, fun j _ => rfl⟩
  | succ k ih =>
    obtain ⟨sensor, hsensor, hgroups⟩ := ih (Nat.le_of_succ_le hk)
    have hmodel := learnGroups_modelId hmulti _ sensor hsensor
    obtain ⟨next, hnext, hnextModel, hentry⟩ :=
      learnGroup_refines (isMulti_congr hmodel hmulti) (hmeets k hk sensor hsensor)
    rw [take_succ_eq_append_getElem hk]
    refine ⟨next, by rw [learnGroups_append, hsensor]; exact hnext, ?_⟩
    intro j hj
    have hentries := entries_congr hmodel
    have hnextEntries := entries_congr hnextModel
    unfold Sensor.expected
    rw [lastUsed_append, ← entryFor_congr hmodel]
    cases hfor : sensor.entryFor inds[k] with
    | none =>
      rw [hfor] at hentry
      have hsame : next.groups = sensor.groups := by
        unfold Sensor.groups
        rw [hnextEntries, show next.gids = sensor.gids from hentry]
      rw [if_neg (fun h => by cases h), hsame]
      exact hgroups j hj
    | some i =>
      rw [hfor] at hentry
      obtain ⟨hi, hgids⟩ := hentry
      have hset : next.groups = sensor.groups.set i (number inds[k].group.toNat) := by
        have hlength : next.gids.length = next.entries := by
          rw [hgids, length_set, length_groups, hnextEntries]
        exact (if_pos hlength).trans hgids
      rw [hset]
      by_cases hij : i = j
      · subst hij
        rw [if_pos rfl, List.getElem?_set_self (by rw [length_groups]; exact hi)]
      · rw [if_neg (fun h => hij (some.inj h)), List.getElem?_set_ne hij]
        exact hgroups j hj

theorem gids_eq_iff :
    after.gids = before.gids ↔ (after.group.getD .new).text = (before.group.getD .new).text := by
  refine ⟨fun h => ?_, fun h => ?_⟩
  · rw [← join_splitAll (after.group.getD .new).text ',',
      ← join_splitAll (before.group.getD .new).text ',']
    exact congrArg (join ',') h
  · unfold Sensor.gids
    rw [h]

/-- **One group for each endpoint.**  In a series of frames every frame does what is asked of it
exactly when every frame meets the condition in the state it finds. -/
theorem one_group_per_endpoint_iff (start : Sensor) (hmulti : start.IsMulti)
    (inds : List Indication) :
    OneGroupPerEndpoint start inds ↔
      ∀ k (hk : k < inds.length) sensor, learnGroups start (inds.take k) = some sensor →
        Meets sensor inds[k] := by
  constructor
  · intro h k hk sensor hsensor
    by_contra hnot
    obtain ⟨before, after, hbefore, hafter, hlearns⟩ := h k hk
    obtain rfl := some.inj (hsensor.symm.trans hbefore)
    have hmodel := learnGroups_modelId hmulti _ sensor hsensor
    obtain ⟨hcast, hwrong⟩ := learnGroup_of_not_meets (isMulti_congr hmodel hmulti) hnot
    have hbad := hwrong after hafter
    have hfor : start.entryFor inds[k] = sensor.entryOf inds[k].srcEndpoint :=
      (entryFor_congr hmodel inds[k]).symm.trans (if_pos hcast)
    unfold Learns at hlearns
    rw [hfor] at hlearns
    cases hentry : sensor.entryOf inds[k].srcEndpoint with
    | none =>
      rw [hentry] at hbad hlearns
      exact hbad (gids_eq_iff.mpr hlearns)
    | some i =>
      rw [hentry] at hbad hlearns
      exact hbad (hlearns.1.trans (entries_congr hmodel).symm)
  · intro hmeets k hk
    obtain ⟨sensor, hsensor, hgroups⟩ :=
      learnGroups_groups hmulti hmeets k (Nat.le_of_lt hk)
    have hmodel := learnGroups_modelId hmulti _ sensor hsensor
    obtain ⟨next, hnext, -, hentry⟩ :=
      learnGroup_refines (isMulti_congr hmodel hmulti) (hmeets k hk sensor hsensor)
    refine ⟨sensor, next, hsensor, hnext, ?_⟩
    rw [entryFor_congr hmodel] at hentry
    unfold Learns
    cases hfor : start.entryFor inds[k] with
    | none =>
      rw [hfor] at hentry
      exact gids_eq_iff.mp hentry
    | some i =>
      rw [hfor] at hentry
      obtain ⟨hi, hgids⟩ := hentry
      have hlength := (length_groups sensor).trans (entries_congr hmodel)
      rw [entries_congr hmodel] at hi
      refine ⟨?_, ?_, ?_⟩
      · rw [hgids, length_set, hlength]
      · rw [hgids, List.getElem?_set_self (by rw [hlength]; exact hi)]
      · intro j hj hij
        rw [hgids, List.getElem?_set_ne (Ne.symm hij)]
        exact hgroups j hj

/-- Groups 1 and 2 are cast from endpoints 0x03 and 0x01 of a remote with seven entries. -/
theorem one_group_per_endpoint_innr :
    let start : Sensor := { modelId := ofLatin1 "RC 110", id := ofLatin1 "1" }
    let inds : List Indication := [⟨true, 1, 3⟩, ⟨true, 2, 1⟩]
    start.IsMulti ∧ (OneGroupPerEndpoint start inds ↔
      ∀ k (hk : k < inds.length) sensor, learnGroups start (inds.take k) = some sensor →
        Meets sensor inds[k]) := by
  intro start inds
  have hmulti : start.IsMulti := .inl (by decide)
  exact ⟨hmulti, one_group_per_endpoint_iff start hmulti inds⟩

end Run

/-- The second frame of a remote with five entries leaves four, and the group of the first is
lost; two frames of a remote with seven entries, from endpoints 0x01 and 0x02, use one entry; a
frame from endpoint 0x06 of a remote with four entries is written outside of the list. -/
theorem groups_lost :
    let sensor : String → Sensor := fun modelId => { modelId := ofLatin1 modelId, id := [] }
    ¬ OneGroupPerEndpoint (sensor "ZGRC-KEY-012") [⟨true, 1, 1⟩, ⟨true, 2, 2⟩] ∧
      ¬ OneGroupPerEndpoint (sensor "RC 110") [⟨true, 1, 1⟩, ⟨true, 2, 2⟩] ∧
      learnGroup (sensor "ICZB-RM11S") ⟨true, 1, 6⟩ = none := by
  intro sensor
  have hrun : ∀ (modelId : String) (before after : Sensor),
      learnGroups (sensor modelId) [⟨true, 1, 1⟩] = some before →
      learnGroup before ⟨true, 2, 2⟩ = some after →
      learnGroups (sensor modelId) [⟨true, 1, 1⟩, ⟨true, 2, 2⟩] = some after := by
    intro modelId before after hbefore hafter
    rw [← singleton_append, learnGroups_append, hbefore]
    exact hafter
  refine ⟨fun h => ?_, fun h => ?_, by decide⟩
  · obtain ⟨before, after, hbefore, hafter, hlearns⟩ := h 1 (by decide)
    have hfor : (sensor "ZGRC-KEY-012").entryFor ⟨true, 2, 2⟩ = some 1 := by decide
    unfold Learns at hlearns
    rw [show [(⟨true, 1, 1⟩ : Indication), ⟨true, 2, 2⟩][1] = ⟨true, 2, 2⟩ from rfl, hfor]
      at hlearns
    have hfour : ((learnGroups (sensor "ZGRC-KEY-012") [⟨true, 1, 1⟩, ⟨true, 2, 2⟩]).map
        fun s => s.gids.length) = some 4 := by decide
    rw [hrun _ before after hbefore hafter, map_some, hlearns.1] at hfour
    exact absurd hfour (by decide)
  · obtain ⟨before, after, hbefore, hafter, hlearns⟩ := h 1 (by decide)
    have hfor : (sensor "RC 110").entryFor ⟨true, 2, 2⟩ = none := by decide
    unfold Learns at hlearns
    rw [show [(⟨true, 1, 1⟩ : Indication), ⟨true, 2, 2⟩][1] = ⟨true, 2, 2⟩ from rfl, hfor]
      at hlearns
    have hfirst : ((learnGroups (sensor "RC 110") [⟨true, 1, 1⟩]).map Sensor.gids) ≠
        (learnGroups (sensor "RC 110") [⟨true, 1, 1⟩, ⟨true, 2, 2⟩]).map Sensor.gids := by decide
    rw [hrun _ before after hbefore hafter, show learnGroups (sensor "RC 110") [⟨true, 1, 1⟩] =
      some before from hbefore, map_some, map_some, gids_eq_iff.mpr hlearns] at hfirst
    exact hfirst rfl

end SensorGroups
end DeconzRest

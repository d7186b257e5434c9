import DeconzRest.WindowCovering.Calibration

/-!
# Attribute records of a window covering

The value that a record sets its items from is a variable of the whole loop, and only records of 8
bit types write it.  A record that failed ends the loop.
-/

namespace DeconzRest
namespace WindowCovering

/-- What of a light decides whether its lift is reversed; `swBuildId` is the number that the text
has to base 16, if it has one. -/
structure CoveringLight where
  modelId : String
  swBuildId : Option Nat := none
  productId : String := ""
deriving DecidableEq, Repr

/-- The `lift = 100 - lift` branches -/
def CoveringLight.reversed (light : CoveringLight) : Bool :=
  if "lumi.curtain".toList.isPrefixOf light.modelId.toList ∨ light.modelId = "D10110" ∨
      light.modelId = "Motor Controller" then true
  else if light.modelId = "Shutter SW with level control" ∨ light.modelId =
      "Shutter switch with neutral" then
    light.swBuildId.any (· < 28)
  else light.productId ∈ ["11830304 Switch", "Zigbee curtain switch", "Zigbee dual curtain switch",
    "Covering Switch ESW-2ZAD-EU", "QS-Zigbee-C01 Module"]

/-- The items that the records are for: those of the light, `operationalStatus` of the device that
is calibrated, and `RConfigWindowCoveringType` of its sensor -/
structure CoveringItems where
  lift : UInt8 := 0
  isOpen : Bool := false
  bri : UInt8 := 0
  on : Bool := false
  tilt : UInt8 := 0
  sat : UInt8 := 0
  operationalStatus : UInt8 := 0
  windowCoveringType : UInt8 := 0
deriving DecidableEq, Repr

/-- The branch of the lift percentage; `reversed` is that of the light. -/
def CoveringItems.setLift (items : CoveringItems) (reversed : Bool) (attrValue : UInt8) :
    CoveringItems :=
  let lift := if reversed then 100 - attrValue else attrValue
  let level : UInt8 := .ofNat (lift.toNat * 254 / 100)
  { items with lift := lift, isOpen := lift < 100, bri := level, on := 0 < level }

/-- The body of the loop behind the value -/
def CoveringItems.setAttribute (light : CoveringLight) (items : CoveringItems)
    (attr : Nat × UInt8) : CoveringItems :=
  if attr.1 = 0x0008 then items.setLift light.reversed attr.2
  else if attr.1 = 0x0009 then
    { items with tilt := attr.2, sat := .ofNat (attr.2.toNat * 254 / 100) }
  else if attr.1 = 0x000A then { items with operationalStatus := attr.2 }
  else if attr.1 = 0x0000 then { items with windowCoveringType := attr.2 }
  else items

/-- `handleWindowCoveringClusterIndication`, of a device that is calibrated -/
def CoveringItems.handle (light : CoveringLight) (items : CoveringItems) (isRead : Bool)
    (payload : List UInt8) : CoveringItems :=
  (attributes isRead payload.length 0 payload).foldl (setAttribute light) items

inductive Record (isRead : Bool) where
  | byte (attrid : UInt16) (type : UInt8) (h : type.toNat ∈ oneByteTypes) (value : UInt8)
  | word (attrid : UInt16) (type : UInt8) (h : type.toNat ∈ twoByteTypes) (value : UInt16)
  | failed (attrid : UInt16) (status : UInt8) (h : status ≠ 0) (hread : isRead = true)

namespace Record

variable {isRead : Bool}

def encode : Record isRead → List UInt8
  | byte attrid type _ value =>
    writeLE 2 attrid.toNat ++ (if isRead then [0] else []) ++ [type, value]
  | word attrid type _ value =>
    writeLE 2 attrid.toNat ++ (if isRead then [0] else []) ++ type :: writeLE 2 value.toNat
  | failed attrid status _ _ => writeLE 2 attrid.toNat ++ [status]

/-- The attribute and the own value of a successful record, cut to the width of the items -/
def own : Record isRead → Option (Nat × UInt8)
  | byte attrid _ _ value => some (attrid.toNat, value)
  | word attrid _ _ value => some (attrid.toNat, value.toUInt8)
  | failed _ _ _ _ => none

def isHandled (attr : Nat × UInt8) : Bool := attr.1 ∈ [0x0008, 0x0009, 0x000A, 0x0000]

def settings (records : List (Record isRead)) : List (Nat × UInt8) :=
  let payload := records.flatMap encode
  (attributes isRead payload.length 0 payload).filter isHandled

def ownValues (records : List (Record isRead)) : List (Nat × UInt8) :=
  (records.filterMap own).filter isHandled

/-- No record of the four attributes stands behind one that failed, and one of a 16 bit type has the
value, cut to 8 bits, of the 8 bit record before it; `last` is that of the latter. -/
def InStep : UInt8 → List (Record isRead) → Prop
  | _, [] => True
  | _, byte _ _ _ value :: rest => InStep value rest
  | last, word attrid _ _ value :: rest =>
    (isHandled (attrid.toNat, last) = true → last = value.toUInt8) ∧ InStep last rest
  | _, failed _ _ _ _ :: rest => ownValues rest = []

/-! ## One record after the other -/

/-- What the loop takes from records -/
def taken : UInt8 → List (Record isRead) → List (Nat × UInt8)
  | _, [] => []
  | _, byte attrid _ _ value :: rest => (attrid.toNat, value) :: taken value rest
  | last, word attrid _ _ _ :: rest => (attrid.toNat, last) :: taken last rest
  | _, failed _ _ _ _ :: _ => []

theorem readNumber_two (n : UInt16) (rest : List UInt8) :
    readNumber 2 (writeLE 2 n.toNat ++ rest) = (n.toNat, rest) := by
  rw [readNumber, readLE_writeLE_of_lt n.toNat_lt]
  rfl

theorem readNumber_one (b : UInt8) (rest : List UInt8) :
    readNumber 1 (b :: rest) = (b.toNat, rest) := by
  rfl

theorem attributes_encode (records : List (Record isRead)) {rounds : Nat} (last : UInt8)
    (hrounds : (records.flatMap encode).length ≤ rounds) :
    attributes isRead rounds last (records.flatMap encode) = taken last records := by
  induction records generalizing rounds last with
  | nil => cases rounds <;> rfl
  | cons r rest ih =>
    rw [List.flatMap_cons, List.length_append] at hrounds
    have hpos : 2 ≤ r.encode.length := by
      cases r <;> simp [encode, length_writeLE]
    obtain ⟨rounds, rfl⟩ := Nat.exists_eq_add_of_le' (show 1 ≤ rounds by omega)
    have hnext (last : UInt8) : attributes isRead rounds last (rest.flatMap encode) =
        taken last rest :=
      ih last (by omega)
    rw [List.flatMap_cons, attributes, if_neg (by cases r <;> simp [encode, writeLE])]
    cases r with
    | byte attrid type h value =>
      cases isRead <;>
        simp [encode, readNumber_two, readNumber_one, h, taken, hnext]
    | word attrid type h value =>
      have hnot : type.toNat ∉ oneByteTypes := by
        revert h
        simp only [oneByteTypes, twoByteTypes, List.mem_cons, List.not_mem_nil, or_false]
        omega
      cases isRead <;>
        simp [encode, readNumber_two, readNumber_one, h, hnot, taken, hnext]
    | failed attrid status h hread =>
      have hstatus : status.toNat ≠ 0 := fun heq => h (UInt8.toNat.inj heq)
      simp [encode, readNumber_two, readNumber_one, hread, hstatus, taken]

theorem taken_iff (last : UInt8) (records : List (Record isRead)) :
    (taken last records).filter isHandled = ownValues records ↔ InStep last records := by
  induction records generalizing last with
  | nil => exact iff_of_true rfl trivial
  | cons r rest ih =>
    cases r with
    | byte attrid type h value =>
      rw [InStep, ← ih value, taken, ownValues, List.filterMap_cons]
      simp only [own, List.filter_cons]
      split_ifs
      · exact List.cons_inj_right _
      · exact Iff.rfl
    | word attrid type h value =>
      have hsame : isHandled (attrid.toNat, value.toUInt8) = isHandled (attrid.toNat, last) := rfl
      rw [InStep, ← ih last, taken, ownValues, List.filterMap_cons]
      simp only [own, List.filter_cons, hsame]
      split_ifs with hhandled
      · simp [hhandled, ownValues]
      · simp [hhandled, ownValues]
    | failed attrid status h hread =>
      rw [InStep, taken, ownValues, List.filterMap_cons_none rfl]
      exact eq_comm

/-- The lift percentage and what goes with it -/
def LiftConsistent (items : CoveringItems) : Prop :=
  items.lift ≤ 100 ∧ (items.isOpen = true ↔ items.lift ≠ 100) ∧ (items.on = true ↔ items.lift ≠ 0)

theorem setLift_consistent (items : CoveringItems) (reversed : Bool) (attrValue : Fin 101) :
    LiftConsistent (items.setLift reversed (.ofNat attrValue)) := by
  have hall : ∀ (reversed : Bool) (attrValue : Fin 101),
      LiftConsistent (({} : CoveringItems).setLift reversed (.ofNat attrValue)) := by
    unfold LiftConsistent
    decide +kernel
  exact hall reversed attrValue

theorem handle_eq (light : CoveringLight) (items : CoveringItems)
    (records : List (Record isRead)) :
    items.handle light isRead (records.flatMap encode) =
      (settings records).foldl (CoveringItems.setAttribute light) items := by
  have hother (items : CoveringItems) (attr : Nat × UInt8) (h : ¬ isHandled attr = true) :
      items.setAttribute light attr = items := by
    simp only [isHandled, decide_eq_true_eq, List.mem_cons, List.not_mem_nil, or_false] at h
    unfold CoveringItems.setAttribute
    rw [if_neg (by omega), if_neg (by omega), if_neg (by omega), if_neg (by omega)]
  unfold CoveringItems.handle settings
  dsimp only
  generalize attributes isRead _ 0 _ = attrs
  induction attrs generalizing items with
  | nil => rfl
  | cons attr attrs ih =>
    rw [List.filter_cons, List.foldl_cons, ih]
    split_ifs with h
    · rfl
    · rw [hother items attr h]

/-- **Records.**  The items are set from the successful records one after the other, each with its
own value, if and only if the records are in step; and a lift percentage fits what goes with it. -/
theorem records_iff (records : List (Record isRead)) :
    ((∀ light items, CoveringItems.handle light items isRead (records.flatMap encode) =
        (settings records).foldl (CoveringItems.setAttribute light) items) ∧
      (settings records = ownValues records ↔ InStep 0 records)) ∧
    ∀ items reversed (attrValue : Fin 101),
      LiftConsistent (CoveringItems.setLift items reversed (.ofNat attrValue)) := by
  refine ⟨⟨fun light items => handle_eq light items records, ?_⟩, setLift_consistent⟩
  rw [settings, attributes_encode records 0 (Nat.le_refl _)]
  exact taken_iff 0 records

/-- Two reports, of an 8 bit attribute and of the tilt with a 16 bit type -/
theorem tiltWord_stale : ∃ records : List (Record false), settings records ≠ ownValues records :=
  ⟨[.byte 0x0017 0x18 (by decide) 5, .word 0x0009 0x21 (by decide) 40], by decide +kernel⟩

end Record
end WindowCovering
end DeconzRest

import DeconzRest.Thermostat.Commands

/-!
# What a device makes of a task

A device is seen as a state with independent parts: whether it is on, its level, the groups it
is in, its attributes and the transitions of each weekday.  A frame does to a part what its
payload names: nothing, it gives it another value, or it toggles on and off.
-/

namespace DeconzRest
namespace Tasks

/-- `ZclFrame::readFromStream` -/
def ZclFrame.read : List UInt8 → Option ZclFrame
  | [] => none
  | frameControl :: bytes =>
    if frameControl &&& zclFCManufacturerSpecific ≠ 0 then
      match readLE 2 bytes with
      | some (code, sequenceNumber :: commandId :: payload) =>
        some
          { frameControl, manufacturerCode := UInt16.ofNat code, sequenceNumber, commandId
            payload }
      | _ => none
    else
      match bytes with
      | sequenceNumber :: commandId :: payload =>
        some { frameControl, manufacturerCode := 0, sequenceNumber, commandId, payload }
      | _ => none

theorem read_write (frame : ZclFrame) :
    ZclFrame.read frame.write =
      some
        { frame with
          manufacturerCode :=
            if frame.frameControl &&& zclFCManufacturerSpecific ≠ 0 then frame.manufacturerCode
            else 0 } := by
  by_cases hcode : frame.frameControl &&& zclFCManufacturerSpecific ≠ 0
  · have hlt : frame.manufacturerCode.toNat < 256 ^ 2 := UInt16.toNat_lt frame.manufacturerCode
    have hread := readLE_writeLE_of_lt hlt
      ([frame.sequenceNumber, frame.commandId] ++ frame.payload)
    unfold ZclFrame.write ZclFrame.read
    simp only [if_pos hcode, List.append_assoc]
    rw [hread]
    simp
  · unfold ZclFrame.write ZclFrame.read
    simp only [if_neg hcode]
    simp

/-! ## The parts of a device -/

inductive Part where
  | onOff
  | level
  | group (id : UInt16)
  | zclAttribute (clusterId mfrCode attrId : UInt16)
  | day (weekday : Fin 8)
deriving DecidableEq, Repr

/-- The value of a part; that of an attribute and of a day are the octets of the payload. -/
abbrev Part.Value : Part → Type
  | .onOff => Bool
  | .level => UInt8
  | .group _ => Bool
  | .zclAttribute _ _ _ => List UInt8
  | .day _ => List UInt8

instance (c : Part) : Inhabited c.Value :=
  match c with
  | .onOff => ⟨false⟩
  | .level => ⟨0⟩
  | .group _ => ⟨false⟩
  | .zclAttribute _ _ _ => ⟨[]⟩
  | .day _ => ⟨[]⟩

theorem Part.exists_ne (c : Part) (v : c.Value) : ∃ w, w ≠ v := by
  cases c with
  | onOff => exact ⟨!v, by simp⟩
  | level =>
    refine ⟨v + 1, ?_⟩
    simp
  | group id => exact ⟨!v, by simp⟩
  | zclAttribute clusterId mfrCode attrId => exact ⟨0 :: v, by simp⟩
  | day weekday => exact ⟨0 :: v, by simp⟩

/-- What a command does to a part; only on and off can be toggled. -/
inductive Act : Part → Type where
  | keep {c : Part} : Act c
  | set {c : Part} (v : c.Value) : Act c
  | toggle : Act .onOff

namespace Act

variable {c : Part}

def apply : {c : Part} → Act c → c.Value → c.Value
  | _, .keep, v => v
  | _, .set w, _ => w
  | _, .toggle, v => !v

/-- The act gives the part another value, whatever it was. -/
def sets : {c : Part} → Act c → Bool
  | _, .set _ => true
  | _, _ => false

@[simp] theorem apply_keep (v : c.Value) : (keep : Act c).apply v = v := rfl

@[simp] theorem apply_set (v w : c.Value) : (set w : Act c).apply v = w := rfl

@[simp] theorem apply_toggle (v : Bool) : toggle.apply v = !v := rfl

theorem eq_keep {a : Act c} (h : ∀ v, a.apply v = v) : a = .keep := by
  cases a with
  | keep => rfl
  | set w =>
    obtain ⟨v, hv⟩ := Part.exists_ne c w
    exact absurd (h v).symm hv
  | toggle => simpa using h true

def applyAll (acts : List (Act c)) (v : c.Value) : c.Value :=
  acts.foldl (fun v a => a.apply v) v

@[simp] theorem applyAll_nil (v : c.Value) : applyAll [] v = v := rfl

@[simp] theorem applyAll_cons (a : Act c) (acts : List (Act c)) (v : c.Value) :
    applyAll (a :: acts) v = applyAll acts (a.apply v) := rfl

@[simp] theorem applyAll_append (acts acts' : List (Act c)) (v : c.Value) :
    applyAll (acts ++ acts') v = applyAll acts' (applyAll acts v) := by
  simp [applyAll]

theorem applyAll_const {acts : List (Act c)} (h : ∃ a ∈ acts, a.sets = true) (v w : c.Value) :
    applyAll acts v = applyAll acts w := by
  induction acts generalizing v w with
  | nil => simp at h
  | cons a acts ih =>
    rw [applyAll_cons, applyAll_cons]
    by_cases hmore : ∃ a ∈ acts, a.sets = true
    · exact ih hmore (a.apply v) (a.apply w)
    · have ha : a.sets = true := by
        obtain ⟨b, hb, hsets⟩ := h
        rcases List.mem_cons.mp hb with rfl | hb
        · exact hsets
        · exact absurd ⟨b, hb, hsets⟩ hmore
      cases a with
      | keep => cases ha
      | set u => rfl
      | toggle => cases ha

theorem applyAll_injective {acts : List (Act c)} (h : ∀ a ∈ acts, a.sets = false) {v w : c.Value}
    (hvw : applyAll acts v = applyAll acts w) : v = w := by
  induction acts generalizing v w with
  | nil => exact hvw
  | cons a acts ih =>
    obtain ⟨ha, hacts⟩ := List.forall_mem_cons.mp h
    have hnext := ih hacts hvw
    cases a with
    | keep => exact hnext
    | set u => cases ha
    | toggle => simpa using hnext

theorem applyAll_not {acts : List (Act .onOff)} (h : ∀ a ∈ acts, a.sets = false) (v : Bool) :
    applyAll acts (!v : Bool) = !(applyAll acts v) := by
  induction acts generalizing v with
  | nil => rfl
  | cons a acts ih =>
    obtain ⟨ha, hacts⟩ := List.forall_mem_cons.mp h
    cases a with
    | keep => exact ih hacts v
    | set u => cases ha
    | toggle => exact ih hacts (!v)

end Act

/-! ## Commands -/

/-- `ONOFF_COMMAND_OFF` -/
def onOffCommandOff : UInt8 := 0x00

/-- `ONOFF_COMMAND_ON` -/
def onOffCommandOn : UInt8 := 0x01

/-- `ONOFF_COMMAND_TOGGLE` -/
def onOffCommandToggle : UInt8 := 0x02

/-- `ONOFF_COMMAND_OFF_WITH_EFFECT` -/
def onOffCommandOffWithEffect : UInt8 := 0x40

/-- `ONOFF_COMMAND_ON_WITH_TIMED_OFF` -/
def onOffCommandOnWithTimedOff : UInt8 := 0x42

def onOffAct (commandId : UInt8) : (c : Part) → Act c
  | .onOff =>
    if commandId = onOffCommandOff ∨ commandId = onOffCommandOffWithEffect then .set false
    else if commandId = onOffCommandOn ∨ commandId = onOffCommandOnWithTimedOff then .set true
    else if commandId = onOffCommandToggle then .toggle
    else .keep
  | _ => .keep

def levelAct (commandId : UInt8) (payload : List UInt8) : (c : Part) → Act c
  | .level =>
    match payload with
    | level :: _ => if commandId = 0x00 ∨ commandId = 0x04 then .set level else .keep
    | [] => .keep
  | .onOff =>
    match payload with
    | level :: _ => if commandId = 0x04 then .set (level != 0) else .keep
    | [] => .keep
  | _ => .keep

def groupAct (commandId : UInt8) (payload : List UInt8) : (c : Part) → Act c
  | .group id =>
    match readLE 2 payload with
    | some (named, _) =>
      if named = id.toNat then
        if commandId = 0x00 then .set true else if commandId = 0x03 then .set false else .keep
      else .keep
    | none => .keep
  | _ => .keep

/-- A command of the thermostat cluster: set weekly schedule and clear weekly schedule -/
def scheduleAct (commandId : UInt8) (payload : List UInt8) : (c : Part) → Act c
  | .day weekday =>
    if commandId = 0x01 then
      match payload with
      | _ :: weekdays :: _ :: transitions =>
        if Thermostat.hasDay weekdays weekday then .set transitions else .keep
      | _ => .keep
    else if commandId = 0x03 then .set []
    else .keep
  | _ => .keep

def valueLength (dataType : UInt8) : Option Nat :=
  if dataType = 0x10 ∨ dataType = 0x30 ∨ dataType = 0x31 ∨ dataType &&& 0xf8 = 0x08 ∨
      dataType &&& 0xf8 = 0x18 ∨ dataType &&& 0xf8 = 0x20 ∨ dataType &&& 0xf8 = 0x28 then
    some ((dataType &&& 0x07).toNat + 1)
  else none

/-- The records of a write attributes command, up to the first one that can't be read; the
number bounds how many they are. -/
def writeRecords : Nat → List UInt8 → List (UInt16 × List UInt8)
  | fuel + 1, a :: b :: dataType :: bytes =>
    match valueLength dataType with
    | some length =>
      if length ≤ bytes.length then
        (UInt16.ofNat (a.toNat + 256 * b.toNat), bytes.take length) ::
          writeRecords fuel (bytes.drop length)
      else []
    | none => []
  | _, _ => []

/-- Write attributes: the last record for an attribute counts. -/
def attributeAct (clusterId mfrCode : UInt16) (payload : List UInt8) : (c : Part) → Act c
  | .zclAttribute clusterId' mfrCode' attrId =>
    if clusterId' = clusterId ∧ mfrCode' = mfrCode then
      match (writeRecords payload.length payload).findRev? fun record => record.1 == attrId with
      | some record => .set record.2
      | none => .keep
    else .keep
  | _ => .keep

/-- What a frame for a cluster does to a part. -/
def frameAct (clusterId : UInt16) (frame : ZclFrame) (c : Part) : Act c :=
  if frame.frameControl &&& 0x03 = zclFCProfileCommand then
    if frame.commandId = zclWriteAttributesId then
      attributeAct clusterId frame.manufacturerCode frame.payload c
    else .keep
  else if frame.frameControl &&& zclFCManufacturerSpecific ≠ 0 then .keep
  else if clusterId = 0x0006 then onOffAct frame.commandId c
  else if clusterId = 0x0008 then levelAct frame.commandId frame.payload c
  else if clusterId = 0x0004 then groupAct frame.commandId frame.payload c
  else if clusterId = Thermostat.thermostatClusterId then
    scheduleAct frame.commandId frame.payload c
  else .keep

section Execute

variable {Addr : Type} [DecidableEq Addr]

def TaskItem.act (task : TaskItem Addr) (c : Part) : Act c :=
  match ZclFrame.read task.req.asdu with
  | some frame => frameAct task.req.clusterId frame c
  | none => .keep

def TaskItem.actOn (task : TaskItem Addr) (address : Addr) (endpoint : UInt8) (c : Part) : Act c :=
  if task.req.dstAddress = address ∧ task.req.dstEndpoint = endpoint then task.act c else .keep

abbrev World (Addr : Type) := Addr → UInt8 → (c : Part) → c.Value

def executeAll (tasks : List (TaskItem Addr)) (w : World Addr) : World Addr :=
  tasks.foldl (fun w task => fun address endpoint c =>
    (task.actOn address endpoint c).apply (w address endpoint c)) w

theorem executeAll_append (tasks tasks' : List (TaskItem Addr)) (w : World Addr) :
    executeAll (tasks ++ tasks') w = executeAll tasks' (executeAll tasks w) := by
  simp [executeAll]

theorem executeAll_apply (tasks : List (TaskItem Addr)) (w : World Addr) (address : Addr)
    (endpoint : UInt8) (c : Part) :
    executeAll tasks w address endpoint c =
      Act.applyAll (tasks.map fun task => task.actOn address endpoint c) (w address endpoint c) := by
  induction tasks generalizing w with
  | nil => rfl
  | cons task tasks ih =>
    rw [List.map_cons, Act.applyAll_cons]
    exact ih _

end Execute

end Tasks
end DeconzRest

import DeconzRest.Tasks.Device

/-!
# Builders of tasks

The builders for on and off, for the level and for the groups, and what a device makes of the
tasks that they build.
-/

namespace DeconzRest
namespace Tasks

variable {Addr : Type}

/-- The frame control that the builders share -/
def clusterFrameControl : UInt8 :=
  zclFCClusterCommand ||| zclFCDirectionClientToServer ||| zclFCDisableDefaultResponse

/-- `addTaskSetOnOff`: the task it hands to `addTask`.  A light with a write function gets a state
change in its place (`writeFunction`). -/
def addTaskSetOnOff (task : TaskItem Addr) (writeFunction : Bool) (zclSeq cmd : UInt8)
    (ontime : UInt16) (flags : UInt8) : Option (TaskItem Addr) :=
  if !(cmd == onOffCommandOn || cmd == onOffCommandOff || cmd == onOffCommandToggle ||
      cmd == onOffCommandOffWithEffect || cmd == onOffCommandOnWithTimedOff) then none
  else if writeFunction then none
  else
    let payload : List UInt8 :=
      if cmd = onOffCommandOffWithEffect then [0, 0] -- effect and variant
      else if cmd = onOffCommandOnWithTimedOff then
        flags :: (writeLE 2 ontime.toNat ++ writeLE 2 0)
      else []
    some (task.build .sendOnOffToggle 0x0006 clusterFrameControl 0 zclSeq cmd payload)

/-- `addTaskSetBrightness`, as `addTaskSetOnOff` -/
def addTaskSetBrightness (task : TaskItem Addr) (writeFunction : Bool) (zclSeq bri : UInt8)
    (transitionTime : UInt16) (withOnOff : Bool) : Option (TaskItem Addr) :=
  if writeFunction then none
  else
    let commandId : UInt8 := if withOnOff then 0x04 else 0x00
    some (task.build .setLevel 0x0008 clusterFrameControl 0 zclSeq commandId
      (bri :: writeLE 2 transitionTime.toNat))

/-- `addTaskAddToGroup` -/
def addTaskAddToGroup (task : TaskItem Addr) (zclSeq : UInt8) (groupId : UInt16) : TaskItem Addr :=
  task.build .addToGroup 0x0004 clusterFrameControl 0 zclSeq 0x00 (writeLE 2 groupId.toNat ++ [0])

/-- `addTaskRemoveFromGroup` -/
def addTaskRemoveFromGroup (task : TaskItem Addr) (zclSeq : UInt8) (groupId : UInt16) :
    TaskItem Addr :=
  task.build .removeFromGroup 0x0004 clusterFrameControl 0 zclSeq 0x03 (writeLE 2 groupId.toNat)

theorem act_build (task : TaskItem Addr) (taskType : TaskType) (clusterId : UInt16)
    {frameControl : UInt8} (hcontrol : frameControl &&& zclFCManufacturerSpecific = 0)
    (zclSeq commandId : UInt8) (payload : List UInt8) (c : Part) :
    (task.build taskType clusterId frameControl 0 zclSeq commandId payload).act c =
      frameAct clusterId
        { frameControl, manufacturerCode := 0, sequenceNumber := zclSeq, commandId, payload } c := by
  simp only [TaskItem.act, TaskItem.build, read_write]
  simp [hcontrol]

theorem act_command (task : TaskItem Addr) (taskType : TaskType) (clusterId : UInt16)
    {frameControl : UInt8} (hcluster : frameControl &&& 0x03 ≠ zclFCProfileCommand)
    (hcontrol : frameControl &&& zclFCManufacturerSpecific = 0) (zclSeq commandId : UInt8)
    (payload : List UInt8) (c : Part) :
    (task.build taskType clusterId frameControl 0 zclSeq commandId payload).act c = if clusterId =
      0x0006 then onOffAct commandId c
      else if clusterId = 0x0008 then levelAct commandId payload c
      else if clusterId = 0x0004 then groupAct commandId payload c
      else if clusterId = Thermostat.thermostatClusterId then scheduleAct commandId payload c
      else .keep := by
  rw [act_build _ _ _ hcontrol]
  unfold frameAct
  rw [if_neg hcluster, if_neg (by simp [hcontrol])]

theorem act_setOnOff {task task' : TaskItem Addr} {writeFunction : Bool} {zclSeq cmd : UInt8}
    {ontime : UInt16} {flags : UInt8}
    (h : addTaskSetOnOff task writeFunction zclSeq cmd ontime flags = some task') (c : Part) :
    task'.act c = onOffAct cmd c := by
  unfold addTaskSetOnOff at h
  split at h
  · cases h
  · split at h
    · cases h
    · cases h
      rw [act_command _ _ _ (by decide) (by decide)]
      simp

theorem setOnOff_cases {task task' : TaskItem Addr} {writeFunction : Bool} {zclSeq cmd : UInt8}
    {ontime : UInt16} {flags : UInt8}
    (h : addTaskSetOnOff task writeFunction zclSeq cmd ontime flags = some task') :
    (cmd ≠ onOffCommandToggle ∧ ∃ on, onOffAct cmd .onOff = .set on) ∨
      (cmd = onOffCommandToggle ∧ onOffAct cmd .onOff = .toggle) := by
  unfold addTaskSetOnOff at h
  split at h
  · cases h
  · rename_i hcmd
    have hknown : (((cmd = onOffCommandOn ∨ cmd = onOffCommandOff) ∨ cmd = onOffCommandToggle) ∨
        cmd = onOffCommandOffWithEffect) ∨ cmd = onOffCommandOnWithTimedOff := by
      simpa only [Bool.not_eq_true', Bool.not_eq_false, Bool.or_eq_true, beq_iff_eq] using hcmd
    rcases hknown with (((rfl | rfl) | rfl) | rfl) | rfl
    · exact .inl ⟨by decide, true, rfl⟩
    · exact .inl ⟨by decide, false, rfl⟩
    · exact .inr ⟨rfl, rfl⟩
    · exact .inl ⟨by decide, false, rfl⟩
    · exact .inl ⟨by decide, true, rfl⟩

end Tasks
end DeconzRest

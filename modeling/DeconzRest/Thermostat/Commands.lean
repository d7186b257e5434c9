import DeconzRest.Tasks.Item
import DeconzRest.Thermostat.Schedule

/-!
# Thermostat commands

The builders of the tasks for the thermostat cluster.  What a builder answers is the task it
hands to `addTask`, or `none` where it returns `false` before.
-/

namespace DeconzRest
namespace Thermostat

open Tasks QString

variable {Addr : Type}

/-- `THERMOSTAT_CLUSTER_ID` -/
def thermostatClusterId : UInt16 := 0x0201

/-- The octet of a `qint8`. -/
def int8 (n : Int) : UInt8 := UInt8.ofNat (n % 256).toNat

/-- `addTaskThermostatCmd` -/
def addTaskThermostatCmd (task : TaskItem Addr) (zclSeq : UInt8) (mfrCode : UInt16) (cmd : UInt8)
    (setpoint : Int) (daysToReturn : UInt8) : Option (TaskItem Addr) :=
  let build := task.build .thermostat thermostatClusterId
    (zclFCClusterCommand ||| zclFCDirectionClientToServer) mfrCode zclSeq cmd
  if cmd = 0x00 then some (build [0x02, int8 setpoint])
  else if cmd = 0x02 then some (build [daysToReturn, 0x01])
  else if cmd = 0x03 then some (build [])
  else none

theorem addTaskThermostatCmd_get (task : TaskItem Addr) (zclSeq : UInt8) (mfrCode : UInt16)
    (setpoint : Int) (daysToReturn : UInt8) :
    addTaskThermostatCmd task zclSeq mfrCode 0x02 setpoint daysToReturn =
      some (task.build .thermostat thermostatClusterId
        (zclFCClusterCommand ||| zclFCDirectionClientToServer) mfrCode zclSeq 0x02
        [daysToReturn, 0x01]) := by
  simp [addTaskThermostatCmd]

/-- A transition as `QDataStream` writes it: the minutes of the day and the heat setpoint; `none` if
there is not one `|` in it. -/
def transitionOctets (entry : QString) : Option (List UInt8) :=
  match parts (unit '|') entry with
  | (time, [setpoint]) =>
    let hh := (toUInt (time.take 2)).getD 0
    let mm := (toUInt ((time.drop 3).take 2)).getD 0
    let heatSetpoint := (toInt setpoint).getD 0
    some (writeLE 2 (60 * hh + mm) ++ writeLE 2 (heatSetpoint % 0x10000).toNat)
  | _ => none

/-- `addTaskThermostatSetWeeklySchedule` -/
def addTaskThermostatSetWeeklySchedule (task : TaskItem Addr) (zclSeq weekdays : UInt8)
    (transitions : QString) : Option (TaskItem Addr) :=
  let list := split transitions 'T'
  (list.mapM transitionOctets).map fun entries =>
    task.build .thermostat thermostatClusterId
      (zclFCClusterCommand ||| zclFCDirectionClientToServer) 0 zclSeq 0x01
      (UInt8.ofNat list.length :: convertWeekdayBitmap weekdays :: 0x01 :: entries.flatten)

/-- `addTaskThermostatReadWriteAttribute`; `writeToStream` is `deCONZ::ZclAttribute::writeToStream`
of a value of a type. -/
def addTaskThermostatReadWriteAttribute (writeToStream : UInt8 → Int → Option (List UInt8))
    (task : TaskItem Addr) (zclSeq readOrWriteCmd : UInt8) (mfrCode attrId : UInt16)
    (attrType : UInt8) (attrValue : Int) : Option (TaskItem Addr) :=
  let build := task.build .thermostat thermostatClusterId
    (zclFCProfileCommand ||| zclFCDirectionClientToServer ||| zclFCDisableDefaultResponse) mfrCode
    zclSeq readOrWriteCmd
  if readOrWriteCmd = zclReadAttributesId then some (build [])
  else if readOrWriteCmd = zclWriteAttributesId then
    (writeToStream attrType attrValue).map fun value =>
      build (writeLE 2 attrId.toNat ++ attrType :: value)
  else none

end Thermostat
end DeconzRest

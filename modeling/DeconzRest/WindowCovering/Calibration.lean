import DeconzRest.Lib.LittleEndian
import DeconzRest.Lib.Transition

/-!
# Calibration of window coverings

One step counter, one task template and one status serve all devices.  A request puts a device
into calibration mode and starts single shot timers: each callback takes the next step for the
device of the template, whichever that is by then.

A task is sent when `addTask` takes it.  The log also holds the operational status reports that
the handler has seen; nothing reads it.
-/

namespace DeconzRest
namespace WindowCovering

inductive Command where
  /-- Configure the reporting of attributes 0x0008, 0x0009 and 0x000A. -/
  | configureReporting
  /-- Write the covering type and the default positions. -/
  | writeConfiguration (windowCoveringType : UInt8)
  /-- Write attribute 0x0017. -/
  | writeMode (mode : UInt8)
  /-- A cluster command: 0x00 moves up, 0x01 down -/
  | windowCovering (cmd : UInt8)
deriving DecidableEq, Repr

def moveUp : UInt8 := 0x00

def moveDown : UInt8 := 0x01

inductive Entry where
  | sent (device : UInt64) (command : Command)
  | reported (device : UInt64) (status : UInt8)
deriving DecidableEq, Repr

/-- The globals of the calibration, `calibrationTask` by the address of its destination, and the
number of timer callbacks that are pending -/
structure Calibration where
  calibrationTask : UInt64 := 0
  calibrationStep : Nat := 0
  operationalStatus : UInt8 := 0
  callbacks : Nat := 0
  log : List Entry := []
deriving DecidableEq, Repr

structure World where
  /-- `modelId` of the sensor at endpoint 2 of the device, if there is one -/
  sensor : Option String := some "J1 (5502)"
  /-- `endpoint()` of the gateway -/
  endpoint : UInt8 := 1
  /-- `addTask` takes tasks. -/
  addTask : Bool := true
deriving DecidableEq, Repr

namespace Calibration

/-- `addTask` -/
def addTask (s : Calibration) (w : World) (device : UInt64) (command : Command) :
    Bool × Calibration :=
  if w.addTask then (true, { s with log := s.log ++ [.sent device command] }) else (false, s)

/-- The sensor is one of those that are calibrated. -/
def isJ1 (w : World) : Bool := w.sensor.any fun modelId => "J1".toList.isPrefixOf modelId.toList

/-- `addTaskWindowCoveringCalibrate`: its result, and the state after it -/
def addTaskWindowCoveringCalibrate (s : Calibration) (w : World) (device : UInt64)
    (windowCoveringType : UInt8) : Bool × Calibration :=
  if !isJ1 w then (false, s)
  else
    let s := { s with calibrationTask := device }
    if w.endpoint = 0 then (false, s)
    else
      let (taken, s) := s.addTask w device .configureReporting
      if !taken then (false, s)
      else
        let (taken, s) := s.addTask w device (.writeConfiguration windowCoveringType)
        if !taken then (false, s)
        else
          let (taken, s) := s.addTask w device (.writeMode 0x02)
          if !taken then (false, s)
          else (true, { s with calibrationStep := 3, callbacks := s.callbacks + 1 })

/-- `QTimer::singleShot` -/
def singleShot (s : Calibration) : Calibration := { s with callbacks := s.callbacks + 1 }

/-- A task for the device of the template -/
def send (s : Calibration) (w : World) (command : Command) : Calibration :=
  (s.addTask w s.calibrationTask command).2

/-- `calibrateWindowCoveringNextStep` -/
def calibrateWindowCoveringNextStep (s : Calibration) (w : World) : Calibration :=
  match s.calibrationStep with
  | 3 => { s with calibrationStep := 4 }.singleShot.send w (.windowCovering moveDown)
  | 4 => { s with calibrationStep := 5 }.singleShot.send w (.windowCovering moveUp)
  | 5 =>
    if s.operationalStatus = 0 then
      ({ s with calibrationStep := 6 }.send w (.windowCovering moveDown)).singleShot
    else s.singleShot
  | 6 =>
    if s.operationalStatus = 0 then
      ({ s with calibrationStep := 7 }.send w (.windowCovering moveUp)).singleShot
    else s.singleShot
  | 7 =>
    if s.operationalStatus = 0 then { s with calibrationStep := 8 }.singleShot else s.singleShot
  | 8 =>
    -- only here no timer is started when the covering still moves
    if s.operationalStatus = 0 then { s with calibrationStep := 0 }.send w (.writeMode 0x00)
    else s
  | _ => s

/-- An operational status in a report or a read response of a device -/
def reportStatus (s : Calibration) (device : UInt64) (attrValue : UInt8) : Calibration :=
  let s := { s with log := s.log ++ [.reported device attrValue] }
  if s.calibrationStep ≠ 0 ∧ device = s.calibrationTask then { s with operationalStatus := attrValue }
  else s

end Calibration

/-- `Zcl8BitData`, `ZclBoolean`, `Zcl8BitBitMap`, `Zcl8BitUint`, `Zcl8BitInt`, `Zcl8BitEnum` -/
def oneByteTypes : List Nat := [0x08, 0x10, 0x18, 0x20, 0x28, 0x30]

/-- `Zcl16BitData`, `Zcl16BitBitMap`, `Zcl16BitUint`, `Zcl16BitInt`, `Zcl16BitEnum` -/
def twoByteTypes : List Nat := [0x09, 0x19, 0x21, 0x29, 0x31]

/-- The attributes that `handleWindowCoveringClusterIndication` goes through, with the value that
it has read last; each round takes at least one octet. -/
def attributes (isRead : Bool) : Nat → UInt8 → List UInt8 → List (Nat × UInt8)
  | 0, _, _ => []
  | rounds + 1, attrValue, stream =>
    if stream.isEmpty then []
    else
      let (attrid, stream) := readNumber 2 stream
      let (status, stream) := if isRead then readNumber 1 stream else (0, stream)
      if status ≠ 0 then []
      else
        let (attrTypeId, stream) := readNumber 1 stream
        if attrTypeId ∈ oneByteTypes then
          let (value, stream) := readNumber 1 stream
          (attrid, .ofNat value) :: attributes isRead rounds (.ofNat value) stream
        else if attrTypeId ∈ twoByteTypes then
          (attrid, attrValue) :: attributes isRead rounds attrValue (readNumber 2 stream).2
        else []

namespace Calibration

/-- `handleWindowCoveringClusterIndication`, for a device whose light is known; `isRead` tells a
read response from a report. -/
def handleWindowCoveringClusterIndication (s : Calibration) (device : UInt64) (isRead : Bool)
    (payload : List UInt8) : Calibration :=
  (attributes isRead payload.length 0 payload).foldl
    (fun s attr => if attr.1 = 0x000A then s.reportStatus device attr.2 else s) s

end Calibration

inductive Event where
  | calibrate (w : World) (device : UInt64) (windowCoveringType : UInt8)
  | callback (w : World)
  | indication (device : UInt64) (isRead : Bool) (payload : List UInt8)
deriving DecidableEq, Repr

namespace Calibration

/-- The state after an event.  A callback that is not pending does not come. -/
def step (s : Calibration) : Event → Calibration
  | .calibrate w device windowCoveringType =>
    (s.addTaskWindowCoveringCalibrate w device windowCoveringType).2
  | .callback w =>
    if s.callbacks = 0 then s
    else { s with callbacks := s.callbacks - 1 }.calibrateWindowCoveringNextStep w
  | .indication device isRead payload =>
    s.handleWindowCoveringClusterIndication device isRead payload

end Calibration
end WindowCovering
end DeconzRest

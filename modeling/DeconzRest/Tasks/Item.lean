import DeconzRest.Lib.LittleEndian

/-!
# Tasks

A task is an APS request together with the ZCL frame it carries and what the queue needs to
know of it.  The builders of tasks differ in the values they put into the frame; what they
share is `TaskItem.build`.
-/

namespace DeconzRest
namespace Tasks

/-- `TaskType` -/
inductive TaskType where
  | identify | getHue | setHue | setEnhancedHue | setHueAndSaturation | setXyColor
  | setColorTemperature | getColor | getSat | setSat | getLevel | setLevel
  | incColorTemperature | stopLevel | sendOnOffToggle | moveLevel | getOnOff | setColorLoop
  | getColorLoop | readAttributes | writeAttribute | getGroupMembership | getGroupIdentifiers
  | getSceneMembership | storeScene | callScene | viewScene | addScene | removeScene
  | removeAllScenes | addToGroup | removeFromGroup | viewGroup | triggerEffect | warning
  | incBrightness | windowCovering | thermostat | doorLock | hueGradient | syncTime
  | tuyaRequest | xmasLightStrip | simpleMetering | hueEffect
deriving DecidableEq, Repr

/-- `deCONZ::ApsAddressMode` -/
inductive AddressMode where
  | none
  | group
  | nwk
  | ext
deriving DecidableEq, Repr

/-- `deCONZ::ApsDataRequest`; `Addr` is `deCONZ::Address` with its comparison. -/
structure ApsDataRequest (Addr : Type) where
  id : UInt8
  dstAddressMode : AddressMode
  dstAddress : Addr
  dstEndpoint : UInt8
  srcEndpoint : UInt8
  profileId : UInt16
  clusterId : UInt16
  txOptions : UInt8
  radius : UInt8
  sendDelay : Int
  asdu : List UInt8
  /-- `state()` is `deCONZ::FireAndForgetState`. -/
  fireAndForget : Bool
deriving DecidableEq, Repr

/-- `deCONZ::ZclFCProfileCommand` -/
def zclFCProfileCommand : UInt8 := 0x00

/-- `deCONZ::ZclFCClusterCommand` -/
def zclFCClusterCommand : UInt8 := 0x01

/-- `deCONZ::ZclFCManufacturerSpecific` -/
def zclFCManufacturerSpecific : UInt8 := 0x04

/-- `deCONZ::ZclFCDirectionClientToServer` -/
def zclFCDirectionClientToServer : UInt8 := 0x00

/-- `deCONZ::ZclFCDisableDefaultResponse` -/
def zclFCDisableDefaultResponse : UInt8 := 0x10

/-- `deCONZ::ZclReadAttributesId` -/
def zclReadAttributesId : UInt8 := 0x00

/-- `deCONZ::ZclWriteAttributesId` -/
def zclWriteAttributesId : UInt8 := 0x02

/-- `deCONZ::ZclFrame` -/
structure ZclFrame where
  frameControl : UInt8
  manufacturerCode : UInt16
  sequenceNumber : UInt8
  commandId : UInt8
  payload : List UInt8
deriving DecidableEq, Repr

/-- `ZclFrame::writeToStream`: the manufacturer code is there only if the frame control says so. -/
def ZclFrame.write (frame : ZclFrame) : List UInt8 :=
  frame.frameControl ::
    ((if frame.frameControl &&& zclFCManufacturerSpecific ≠ 0 then
        writeLE 2 frame.manufacturerCode.toNat
      else
        []) ++
      [frame.sequenceNumber, frame.commandId] ++ frame.payload)

/-- `TaskItem`; `lightNode` is the light the pointer is at. -/
structure TaskItem (Addr : Type) where
  taskType : TaskType
  taskId : Int
  req : ApsDataRequest Addr
  zclFrame : ZclFrame
  /-- It won't be sent until all prior task ids are sent. -/
  ordered : Bool
  sendTime : Int
  lightNode : Option Nat
deriving DecidableEq, Repr

namespace TaskItem

variable {Addr : Type}

/-- What a builder does with the task it gets: type, cluster and profile, then a frame with
the payload, with a manufacturer code if there is one, and the frame as the ASDU. -/
def build (task : TaskItem Addr) (taskType : TaskType) (clusterId : UInt16) (frameControl : UInt8)
    (mfrCode : UInt16) (zclSeq commandId : UInt8) (payload : List UInt8) : TaskItem Addr :=
  let zclFrame : ZclFrame :=
    { frameControl :=
        if mfrCode ≠ 0x0000 then frameControl ||| zclFCManufacturerSpecific else frameControl
      manufacturerCode :=
        if mfrCode ≠ 0x0000 then mfrCode else task.zclFrame.manufacturerCode
      sequenceNumber := zclSeq
      commandId := commandId
      payload := payload }
  { task with
    taskType := taskType
    zclFrame := zclFrame
    req := { task.req with clusterId := clusterId, profileId := 0x0104, asdu := zclFrame.write } }

section Build

variable (task : TaskItem Addr) (taskType : TaskType) (clusterId : UInt16) (frameControl : UInt8)
  (mfrCode : UInt16) (zclSeq commandId : UInt8) (payload : List UInt8)

@[simp] theorem build_commandId :
    (task.build taskType clusterId frameControl mfrCode zclSeq commandId
      payload).zclFrame.commandId = commandId := rfl

@[simp] theorem build_payload :
    (task.build taskType clusterId frameControl mfrCode zclSeq commandId
      payload).zclFrame.payload = payload := rfl

@[simp] theorem build_clusterId :
    (task.build taskType clusterId frameControl mfrCode zclSeq commandId
      payload).req.clusterId = clusterId := rfl

@[simp] theorem build_taskType :
    (task.build taskType clusterId frameControl mfrCode zclSeq commandId
      payload).taskType = taskType := rfl

end Build

end TaskItem

end Tasks
end DeconzRest

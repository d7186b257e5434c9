import DeconzRest.Channel.Machine
import DeconzRest.Lib.LittleEndian

/-!
# The touchlink machine

A scan, identify or reset request leaves the network, starts the interpan mode, sends scan
requests and waits for their responses; an identify or reset request is sent when the selected
device responds.  Then the machine joins the network again.  One single shot timer serves all
states.

That a reset lamp is no longer reachable is not part of the model; nothing of the machine reads
it.
-/

namespace DeconzRest
namespace Touchlink

open Channel (NetworkState)

/-- `TouchlinkState` -/
inductive TouchlinkState where
  | idle
  | disconnectingNetwork
  | startingInterpanMode
  | stoppingInterpanMode
  | reconnectNetwork
  | sendingScanRequest
  | waitScanResponses
  | sendingIdentifyRequest
  | sendingResetRequest
deriving DecidableEq, Repr

/-- `TouchlinkAction` -/
inductive TouchlinkAction where
  | scan
  | identify
  | reset
deriving DecidableEq, Repr

/-- `ScanResponse`, of whose address the extended one is used -/
structure ScanResponse where
  id : String
  address : UInt64
  factoryNew : Bool
  channel : UInt8
  panid : UInt16
  transactionId : UInt32
  rssi : UInt8
deriving DecidableEq, Repr

/-- A `TouchlinkRequest` with the command in its octets; scan requests go to all devices. -/
structure InterpanRequest where
  command : TouchlinkAction
  channel : UInt8
  dstAddress : Option UInt64
  panId : UInt16
  transactionId : UInt32
deriving DecidableEq, Repr

inductive Request where
  | setNetworkState (state : NetworkState)
  | startInterpanMode (channel : UInt8)
  | sendInterpanRequest (req : InterpanRequest)
deriving DecidableEq, Repr

/-- `TL_SCAN_WAIT_TIME` -/
def scanWaitTime : Nat := 250

/-- `TL_TRANSACTION_TIMEOUT` -/
def transactionTimeout : Nat := 7000

/-- `TL_RECONNECT_NOW` -/
def reconnectNow : Nat := 100

/-- `TL_RECONNECT_CHECK_DELAY` -/
def reconnectCheckDelay : Nat := 5000

/-- `TL_DISCONNECT_CHECK_DELAY` -/
def disconnectCheckDelay : Nat := 100

/-- `NETWORK_ATTEMPS` -/
def networkAttemps : Nat := 10

/-- `TL_CMD_SCAN_RSP` -/
def cmdScanRsp : UInt8 := 0x01

/-- `ZLL_PROFILE_ID` -/
def zllProfileId : Nat := 0xC05E

/-- `FACTORY_NEW_FLAG` -/
def factoryNewFlag : UInt8 := 0x01

/-- The members of the plugin that touchlink uses, the time the timer was armed with if it is,
and the requests that were made so far. -/
structure Machine where
  apsCtrl : Option NetworkState
  gwRfConnectedExpected : Bool := true
  touchlinkState : TouchlinkState := .idle
  touchlinkAction : TouchlinkAction
  touchlinkTimer : Option Nat := none
  touchlinkNetworkDisconnectAttempts : Nat := 0
  touchlinkNetworkReconnectAttempts : Nat := 0
  touchlinkNetworkConnectedBefore : Bool := false
  touchlinkChannel : UInt8 := 0
  touchlinkScanCount : UInt8 := 0
  touchlinkScanResponses : List ScanResponse := []
  touchlinkDevice : ScanResponse
  transactionId : UInt32 := 0
  requests : List Request := []
deriving DecidableEq, Repr

structure Controller where
  startInterpanMode : Bool := true
  sendInterpanRequest : Bool := true
deriving DecidableEq, Repr

/-- An interpan frame, as far as it is used -/
structure InterpanFrame where
  srcPanId : UInt16
  srcAddress : UInt64
  profileId : Nat
  clusterId : Nat
  asdu : List UInt8
  rssi : UInt8
deriving DecidableEq, Repr

/-- The reads at the begin of `interpanDataIndication` -/
def InterpanFrame.read (data : List UInt8) : InterpanFrame :=
  let (srcPanId, stream) := readNumber 2 data
  let (srcAddress, stream) := readNumber 8 stream
  let (_, stream) := readNumber 2 stream
  let (dstAddressMode, stream) := readNumber 1 stream
  let (_, stream) := readNumber (if dstAddressMode = 0x03 then 8 else 2) stream
  let (profileId, stream) := readNumber 2 stream
  let (clusterId, stream) := readNumber 2 stream
  let (asduLength, stream) := readNumber 1 stream
  let (asdu, stream) := readOctets asduLength stream
  let (_, stream) := readNumber 1 stream
  let (rssi, _) := readNumber 1 stream
  { srcPanId := .ofNat srcPanId
    srcAddress := .ofNat srcAddress
    profileId
    clusterId
    asdu
    rssi := .ofNat rssi }

def InterpanFrame.isScanResponse (frame : InterpanFrame) : Bool :=
  frame.profileId == zllProfileId && frame.clusterId == 0x1000 && decide (3 ≤ frame.asdu.length) &&
    frame.asdu.getD 2 0 == cmdScanRsp

namespace Machine

/-- `isInNetwork` -/
def isInNetwork (s : Machine) : Bool := s.apsCtrl == some .inNetwork

def request (s : Machine) (req : Request) : Machine :=
  { s with requests := s.requests ++ [req] }

/-- `touchlinkStartReconnectNetwork`, whose delay is never 0. -/
def touchlinkStartReconnectNetwork (s : Machine) (delay : Nat) : Machine :=
  { s with
    touchlinkState := .reconnectNetwork
    touchlinkNetworkReconnectAttempts := networkAttemps
    touchlinkTimer := some delay }

/-- `touchlinkDisconnectNetwork` -/
def touchlinkDisconnectNetwork (s : Machine) : Machine :=
  if s.touchlinkState ≠ .idle then s
  else
    match s.apsCtrl with
    | none => s
    | some _ =>
      { s with
        touchlinkNetworkDisconnectAttempts := networkAttemps
        touchlinkNetworkConnectedBefore := s.gwRfConnectedExpected
        touchlinkState := .disconnectingNetwork
        touchlinkTimer := some disconnectCheckDelay }.request (.setNetworkState .notInNetwork)

def nextTransactionId (rand : UInt32) : UInt32 := if rand = 0 then rand + 1 else rand

/-- `touchlinkScan`: the status of the answer, and the state after it. -/
def touchlinkScan (s : Machine) (rand : UInt32) : Nat × Machine :=
  if s.touchlinkState ≠ .idle then (503, s)
  else
    (200, { s with
      touchlinkAction := .scan
      touchlinkChannel := 11
      touchlinkScanCount := 0
      touchlinkScanResponses := []
      transactionId := nextTransactionId rand }.touchlinkDisconnectNetwork)

/-- `identifyLight` and `resetLight`, which differ in the action -/
def actOnLight (action : TouchlinkAction) (s : Machine) (id : String) (rand : UInt32) :
    Nat × Machine :=
  if s.touchlinkState ≠ .idle then (503, s)
  else
    let s := { s with
      touchlinkDevice := (s.touchlinkScanResponses.find? fun r => r.id = id).getD
        { s.touchlinkDevice with id := "" } }
    if s.touchlinkDevice.id = "" then (404, s)
    else
      (200, { s with
        transactionId := nextTransactionId rand
        touchlinkAction := action
        touchlinkChannel := s.touchlinkDevice.channel }.touchlinkDisconnectNetwork)

/-- `identifyLight` -/
def identifyLight (s : Machine) (id : String) (rand : UInt32) : Nat × Machine :=
  s.actOnLight .identify id rand

/-- `resetLight` -/
def resetLight (s : Machine) (id : String) (rand : UInt32) : Nat × Machine :=
  s.actOnLight .reset id rand

/-- `startTouchlinkMode` -/
def startTouchlinkMode (s : Machine) (ctrl : Controller) (channel : UInt8) : Machine :=
  let s := { s with
    touchlinkChannel := channel
    touchlinkState := .startingInterpanMode }.request (.startInterpanMode channel)
  if ctrl.startInterpanMode then s else s.touchlinkStartReconnectNetwork reconnectNow

/-- A request is sent, and the state is the one that waits for its confirm. -/
def sendInterpanRequest (s : Machine) (ctrl : Controller) (req : InterpanRequest)
    (sending : TouchlinkState) : Machine :=
  let s := s.request (.sendInterpanRequest req)
  if ctrl.sendInterpanRequest then { s with touchlinkState := sending }
  else s.touchlinkStartReconnectNetwork reconnectNow

/-- `sendTouchlinkScanRequest` -/
def sendTouchlinkScanRequest (s : Machine) (ctrl : Controller) : Machine :=
  { s with touchlinkScanCount := s.touchlinkScanCount + 1 }.sendInterpanRequest ctrl
    { command := .scan
      channel := s.touchlinkChannel
      dstAddress := none
      panId := 0xFFFF
      transactionId := s.transactionId } .sendingScanRequest

def deviceRequest (s : Machine) (command : TouchlinkAction) : InterpanRequest where
  command := command
  channel := s.touchlinkChannel
  dstAddress := some s.touchlinkDevice.address
  panId := s.touchlinkDevice.panid
  transactionId := s.transactionId

/-- `sendTouchlinkIdentifyRequest` -/
def sendTouchlinkIdentifyRequest (s : Machine) (ctrl : Controller) : Machine :=
  s.sendInterpanRequest ctrl (s.deviceRequest .identify) .sendingIdentifyRequest

/-- `sendTouchlinkResetRequest` -/
def sendTouchlinkResetRequest (s : Machine) (ctrl : Controller) : Machine :=
  s.sendInterpanRequest ctrl (s.deviceRequest .reset) .sendingResetRequest

/-- `startTouchlinkModeConfirm`: each action sends a scan request first. -/
def startTouchlinkModeConfirm (s : Machine) (ctrl : Controller) (success : Bool) : Machine :=
  if s.touchlinkState ≠ .startingInterpanMode then s
  else if !success then s.touchlinkStartReconnectNetwork reconnectNow
  else s.sendTouchlinkScanRequest ctrl

/-- `TL_SCAN_COUNT` -/
def scanCount (s : Machine) : UInt8 := if s.touchlinkChannel = 11 then 5 else 1

/-- `sendTouchlinkConfirm`, whose status only decides about the lamp -/
def sendTouchlinkConfirm (s : Machine) : Machine :=
  match s.touchlinkState with
  | .sendingScanRequest =>
    match s.touchlinkAction with
    | .scan =>
      if s.touchlinkScanCount > s.scanCount then
        { s with touchlinkState := .waitScanResponses, touchlinkTimer := some scanWaitTime }
      else { s with touchlinkTimer := some 1 }
    | .identify | .reset =>
      { s with
        touchlinkState := .waitScanResponses
        touchlinkTimer := some transactionTimeout }
  | .sendingIdentifyRequest | .sendingResetRequest => s.touchlinkStartReconnectNetwork reconnectNow
  | .waitScanResponses | .idle | .disconnectingNetwork | .startingInterpanMode
  | .stoppingInterpanMode | .reconnectNetwork => s

/-- `interpanDataIndication` -/
def interpanDataIndication (s : Machine) (ctrl : Controller) (data : List UInt8) : Machine :=
  if s.touchlinkState = .idle then s
  else
    let frame := InterpanFrame.read data
    if !frame.isScanResponse then s
    else
      match s.touchlinkAction with
      | .scan =>
        if 9 ≤ frame.asdu.length then
          let known := s.touchlinkScanResponses.findIdx fun r => r.address = frame.srcAddress
          if known < s.touchlinkScanResponses.length then
            { s with
              touchlinkScanResponses := s.touchlinkScanResponses.modify known fun r =>
                { r with transactionId := s.transactionId } }
          else
            { s with
              touchlinkScanResponses := s.touchlinkScanResponses ++
                [{ id := toString (s.touchlinkScanResponses.length + 1)
                   address := frame.srcAddress
                   factoryNew := frame.asdu.getD 9 0 &&& factoryNewFlag != 0
                   channel := s.touchlinkChannel
                   panid := frame.srcPanId
                   transactionId := s.transactionId
                   rssi := frame.rssi }] }
        else s
      | .reset =>
        if frame.srcAddress = s.touchlinkDevice.address then
          { s with touchlinkTimer := none }.sendTouchlinkResetRequest ctrl
        else s
      | .identify =>
        if frame.srcAddress = s.touchlinkDevice.address then
          { s with touchlinkTimer := none }.sendTouchlinkIdentifyRequest ctrl
        else s

/-- `touchlinkScanTimeout` -/
def touchlinkScanTimeout (s : Machine) (ctrl : Controller) : Machine :=
  match s.touchlinkAction with
  | .identify | .reset => s.touchlinkStartReconnectNetwork reconnectNow
  | .scan =>
    if s.touchlinkChannel < 26 then
      { s with touchlinkScanCount := 0 }.startTouchlinkMode ctrl (s.touchlinkChannel + 1)
    else s.touchlinkStartReconnectNetwork reconnectNow

/-- `touchlinkReconnectNetwork` -/
def touchlinkReconnectNetwork (s : Machine) : Machine :=
  if s.isInNetwork then { s with touchlinkState := .idle }
  else if !s.touchlinkNetworkConnectedBefore then { s with touchlinkState := .idle }
  else if 0 < s.touchlinkNetworkReconnectAttempts then
    let s :=
      if s.apsCtrl ≠ some .connecting then
        { s with
          touchlinkNetworkReconnectAttempts := s.touchlinkNetworkReconnectAttempts - 1 }.request
            (.setNetworkState .inNetwork)
      else s
    { s with touchlinkTimer := some reconnectCheckDelay }
  else { s with touchlinkState := .idle }

/-- `checkTouchlinkNetworkDisconnected` -/
def checkTouchlinkNetworkDisconnected (s : Machine) (ctrl : Controller) : Machine :=
  let s := { s with
    touchlinkNetworkDisconnectAttempts := s.touchlinkNetworkDisconnectAttempts - 1 }
  if s.isInNetwork then
    if s.touchlinkNetworkDisconnectAttempts = 0 then
      -- the disconnect may still happen shortly after here
      s.touchlinkStartReconnectNetwork reconnectCheckDelay
    else
      { s with touchlinkTimer := some disconnectCheckDelay }.request
        (.setNetworkState .notInNetwork)
  else s.startTouchlinkMode ctrl s.touchlinkChannel

/-- `touchlinkTimerFired`; each handler is for the state it is called in. -/
def touchlinkTimerFired (s : Machine) (ctrl : Controller) : Machine :=
  match s.touchlinkState with
  | .waitScanResponses => s.touchlinkScanTimeout ctrl
  | .reconnectNetwork => s.touchlinkReconnectNetwork
  | .disconnectingNetwork => s.checkTouchlinkNetworkDisconnected ctrl
  | .sendingScanRequest => s.sendTouchlinkScanRequest ctrl
  | .idle | .startingInterpanMode | .stoppingInterpanMode | .sendingIdentifyRequest
  | .sendingResetRequest => s

end Machine

/-- A request, a confirm, a frame, the timer that expires, or a change of the network. -/
inductive Event where
  | touchlinkScan (rand : UInt32)
  | identifyLight (id : String) (rand : UInt32)
  | resetLight (id : String) (rand : UInt32)
  | startInterpanModeConfirm (ctrl : Controller) (success : Bool)
  | sendInterpanConfirm (success : Bool)
  | interpanIndication (ctrl : Controller) (data : List UInt8)
  | timeout (ctrl : Controller)
  | network (state : NetworkState)
  | networkStateChangeRequest (shouldConnect : Bool)
deriving DecidableEq, Repr

namespace Machine

/-- The state after an event.  A timer that is not armed does not expire. -/
def step (s : Machine) : Event → Machine
  | .touchlinkScan rand => (s.touchlinkScan rand).2
  | .identifyLight id rand => (s.identifyLight id rand).2
  | .resetLight id rand => (s.resetLight id rand).2
  | .startInterpanModeConfirm ctrl success => s.startTouchlinkModeConfirm ctrl success
  | .sendInterpanConfirm _ => s.sendTouchlinkConfirm
  | .interpanIndication ctrl data => s.interpanDataIndication ctrl data
  | .timeout ctrl =>
    if s.touchlinkTimer.isSome then { s with touchlinkTimer := none }.touchlinkTimerFired ctrl
    else s
  | .network state => { s with apsCtrl := s.apsCtrl.map fun _ => state }
  | .networkStateChangeRequest shouldConnect => { s with gwRfConnectedExpected := shouldConnect }

end Machine
end Touchlink
end DeconzRest

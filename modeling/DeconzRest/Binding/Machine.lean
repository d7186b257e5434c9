import DeconzRest.Binding.Reports
import DeconzRest.Lib.Transition

/-!
# The binding sub state machine

While a device is idle, its binding level reads the binding table, verifies the bindings of
the DDF, creates and removes bindings, and reads and configures the reports.  The level is a
state with a handler each; a handler gets events and may set another state, which the state
enter event tells it.

* State enter events are urgent: they are delivered before every other event.
* A binding tick is queued once at most, since the queue drops duplicates.
* What a handler finds outside of the machine (the time, the results of requests, the node's
  binding table) is the `World` of the event.

`log` has what the machine sends and decides, oldest first; no handler looks at it.
-/

namespace DeconzRest

inductive BindingState where
  | binding | tableRead | tableVerify | create | remove
  | readReport | readNextReport | configureNextReport | configureReporting | idle
deriving DecidableEq, Repr

/-- `mgmtBindSupported` -/
inductive MgmtBindSupport where
  | unknown | supported | notSupported
deriving DecidableEq, Repr

/-- `DDF_Binding`; the destination is a union, a group takes its lower 16 bits. -/
structure DdfBinding where
  dstExtAddress : Nat := 0
  clusterId : UInt16
  srcEndpoint : UInt8
  dstEndpoint : UInt8 := 0
  configGroup : Nat := 0
  isGroupBinding : Bool := false
  isUnicastBinding : Bool := false
  reporting : List ZclReport := []
deriving DecidableEq, Repr

/-- `dstAddressMode()` of a `deCONZ::Binding`. -/
inductive DstAddressMode where
  | none | ext | group
deriving DecidableEq, Repr

/-- `deCONZ::Binding` -/
structure CoreBinding where
  srcAddress : Nat := 0
  dstAddressMode : DstAddressMode := .none
  dstAddress : Nat := 0
  clusterId : UInt16 := 0
  srcEndpoint : UInt8 := 0
  dstEndpoint : UInt8 := 0
deriving DecidableEq, Repr

/-- `ZDP_Result` -/
structure ZdpResult where
  isEnqueued : Bool := false
  apsReqId : UInt8 := 0
  zdpSeq : UInt8 := 0
deriving DecidableEq, Repr

/-- `ZCL_Result` -/
structure ZclResult where
  isEnqueued : Bool := false
  apsReqId : UInt8 := 0
  sequenceNumber : UInt8 := 0
deriving DecidableEq, Repr

/-- What a handler finds outside of the machine: the results are those of a request that it
sends, a config group holds the numbers of its item by sub device, and a binding of the node
comes with the time at which it was confirmed. -/
structure World where
  now : Int
  unconfirmed : Nat := 0
  zdpResult : ZdpResult := {}
  zclResult : ZclResult := {}
  macAddress : Nat := 0
  configGroups : List (Option (List (Option Nat))) := []
  bindingTable : List (CoreBinding × Int) := []
  nodeExists : Nat → Bool := fun _ => true

inductive BindingOutput where
  /-- The binding table is read from its start. -/
  | startTable
  | mgmtBindReq (startIndex : Nat)
  | bindReq (binding : CoreBinding)
  | unbindReq (binding : CoreBinding)
  /-- The reports of a binding are checked from the first on. -/
  | startReports
  | readReportConfiguration (reports : List ZclReport)
  /-- `reportingConfigurationValid` was true. -/
  | accepted
  | configureReporting (reports : List ZclReport)
  /-- The device confirmed the configure reporting command with success. -/
  | acknowledged
  /-- `DEV_ProcessNextBinding` -/
  | nextBinding
deriving DecidableEq, Repr

/-- `BindingContext`, with the parts of `DevicePrivate` that belong to the binding level:
`enters` are the state enter events that wait, `tick` is set while a binding tick waits. -/
structure BindingContext where
  bindingCheckRound : Nat := 0
  bindingIter : Nat := 0
  reportIter : Nat := 0
  configIter : Nat := 0
  mgmtBindSupported : MgmtBindSupport := .unknown
  mgmtBindStartIndex : Nat := 0
  bindingTrackers : List Int := []
  bindings : List DdfBinding := []
  reportTrackers : List ReportTracker := []
  readReportParam : ReadReportParam := {}
  zclResult : ZclResult := {}
  zdpResult : ZdpResult := {}
  deviceKey : Nat := 0
  state : Option BindingState := none
  stateEnterLock : Bool := false
  enters : Nat := 0
  tick : Bool := false
  timer : Bool := false
  /-- An index was outside of its vector. -/
  fault : Bool := false
  log : List BindingOutput := []

inductive BindingEvent where
  | poll
  | bindingTick
  | bindingTable (status : UInt8)
  | apsConfirm (id status : UInt8)
  | zdpMgmtBindResponse (data : List UInt8)
  | zdpResponse (seq status : UInt8)
  | zclReadReportConfigResponse (rsp : Option ReportConfigurationRsp)
  | zclResponse (seq status : UInt8)
deriving DecidableEq, Repr

/-- What happens to the binding level.  Only the last five do not come as its events: the idle
state of the device is entered or left, the DDF is loaded again, and DDF code sets bindings. -/
inductive BindingAction where
  | stateEnter (w : World)
  | event (e : BindingEvent) (w : World)
  | timeout
  | idleEnter
  | idleLeave
  | ddfReload
  | clearBindings
  | addBinding (bnd : DdfBinding)
  | setSupportsMgmtBind (supported : Bool)

/-- `ZdpSuccess`, `ZdpNotSupported`, `ZdpNotPermitted` -/
def zdpSuccess : UInt8 := 0x00
def zdpNotSupported : UInt8 := 0x84
def zdpNotPermitted : UInt8 := 0x8b

/-- `ApsSuccessStatus` -/
def apsSuccessStatus : UInt8 := 0x00

namespace DdfBinding

def dstGroup (b : DdfBinding) : Nat := b.dstExtAddress % 2 ^ 16

def setDstGroup (b : DdfBinding) (group : Nat) : DdfBinding :=
  { b with dstExtAddress := b.dstExtAddress / 2 ^ 16 * 2 ^ 16 + group }

/-- `DEV_ToCoreBinding` -/
def toCoreBinding (b : DdfBinding) (srcAddress : Nat) : CoreBinding :=
  if b.isUnicastBinding then
    { srcAddress := srcAddress, dstAddressMode := .ext, dstAddress := b.dstExtAddress,
      clusterId := b.clusterId, srcEndpoint := b.srcEndpoint, dstEndpoint := b.dstEndpoint }
  else if b.isGroupBinding then
    { srcAddress := srcAddress, dstAddressMode := .group, dstAddress := b.dstGroup,
      clusterId := b.clusterId, srcEndpoint := b.srcEndpoint }
  else
    {}

/-- The destination group by the first `config/group` item, and whether it is a number. -/
def updateGroup (b : DdfBinding) : List (Option (List (Option Nat))) → DdfBinding × Bool
  | [] => (b, false)
  | none :: subs => b.updateGroup subs
  | some ls :: _ =>
    match ls[b.configGroup]? with
    | none => (b.setDstGroup 0, false)
    | some none => (b, false)
    | some (some group) => (if group ≠ 0 then b.setDstGroup group else b, true)

/-- `isSame` -/
def isSame (a b : DdfBinding) : Bool :=
  a.clusterId == b.clusterId && a.srcEndpoint == b.srcEndpoint &&
    ((a.isGroupBinding && b.isGroupBinding && a.configGroup == b.configGroup) ||
      (a.isUnicastBinding && b.isUnicastBinding && a.dstExtAddress == b.dstExtAddress))

def mergeReport (reporting : List ZclReport) (br : ZclReport) : List ZclReport :=
  if reporting.any fun ar => ar.attributeId == br.attributeId then reporting
  else reporting ++ [br]

/-- `mergeBindingReportConfigs` -/
def mergeBindingReportConfigs (a b : DdfBinding) : DdfBinding :=
  { a with reporting := b.reporting.foldl mergeReport a.reporting }

end DdfBinding

namespace BindingContext

/-- The handlers that stop the timer when their state is left. -/
def stopsTimer : BindingState → Bool
  | .binding | .tableVerify | .readNextReport | .configureNextReport => false
  | .tableRead | .create | .remove | .readReport | .configureReporting | .idle => true

def leave (c : BindingContext) : BindingContext :=
  match c.state with
  | none => c
  | some s =>
    { c with timer := if stopsTimer s then false else c.timer, stateEnterLock := false }

/-- `DevicePrivate::setState` to a handler. -/
def setState (c : BindingContext) (s : BindingState) : BindingContext :=
  if c.state = some s then c
  else
    { c.leave with state := some s, stateEnterLock := true, enters := c.enters + 1 }

/-- `DevicePrivate::setState` to no handler. -/
def clearState (c : BindingContext) : BindingContext :=
  { c.leave with state := none }

def startStateTimer (c : BindingContext) : BindingContext := { c with timer := true }
def stopStateTimer (c : BindingContext) : BindingContext := { c with timer := false }

/-- `DEV_EnqueueEvent` of a binding tick. -/
def enqueueTick (c : BindingContext) : BindingContext := { c with tick := true }

def output (c : BindingContext) (out : BindingOutput) : BindingContext :=
  { c with log := c.log ++ [out] }

/-- After a request: wait for its confirm, or start again. -/
def awaitConfirm (c : BindingContext) (isEnqueued : Bool) : BindingContext :=
  if isEnqueued then c.startStateTimer else c.setState .binding

/-- A confirm of the request: wait for the response, or start again. -/
def apsConfirm (c : BindingContext) (apsReqId id status : UInt8) : BindingContext :=
  if apsReqId = id then
    if status = apsSuccessStatus then c.stopStateTimer.startStateTimer else c.setState .binding
  else
    c

/-- `DEV_ProcessNextBinding` -/
def processNextBinding (c : BindingContext) : BindingContext :=
  ({ c with bindingIter := c.bindingIter + 1 }.output .nextBinding).setState .tableVerify

/-! ## The handlers

An event that is not in a handler's match is ignored by it. -/

/-- `DEV_BindingHandler` -/
def bindingHandler (c : BindingContext) (e : BindingEvent) (w : World) : BindingContext :=
  match e with
  | .poll | .bindingTick =>
    if c.bindings = [] then c -- nothing todo
    else if 4 < w.unconfirmed then c -- wait
    else if c.mgmtBindSupported = .notSupported then
      { c with bindingIter := 0 }.setState .tableVerify
    else
      { c with bindingIter := 0 }.setState .tableRead
  | .bindingTable status =>
    if status = zdpSuccess then { c with mgmtBindSupported := .supported }
    else if status = zdpNotSupported then { c with mgmtBindSupported := .notSupported }
    else c
  | _ => c

/-- Size, index and count of a `Mgmt_Bind` response. -/
def mgmtBindOctets (data : List UInt8) : Nat × Nat × Nat :=
  if 5 ≤ data.length then
    ((data.getD 2 0).toNat, (data.getD 3 0).toNat, (data.getD 4 0).toNat)
  else
    (0, 0, 0)

/-- The `Mgmt_Bind` response in `DEV_BindingTableReadHandler`. -/
def mgmtBindResponse (c : BindingContext) (data : List UInt8) : BindingContext :=
  if ¬ (2 ≤ data.length ∧ data.length < 128) then c
  else if data.getD 0 0 ≠ c.zdpResult.zdpSeq then c
  else if data.getD 1 0 = zdpSuccess then
    let c := { c.stopStateTimer with mgmtBindSupported := .supported }
    let (size, index, count) := mgmtBindOctets data
    if index + count < size then
      { c with mgmtBindStartIndex := (index + count) % 256 }.enqueueTick -- process next
    else
      { c with bindingIter := 0 }.setState .tableVerify
  else if data.getD 1 0 = zdpNotSupported ∨ data.getD 1 0 = zdpNotPermitted then
    { c with mgmtBindSupported := .notSupported }.setState .binding
  else
    c.setState .binding

/-- `DEV_BindingTableReadHandler` -/
def tableReadHandler (c : BindingContext) (e : BindingEvent) (w : World) : BindingContext :=
  match e with
  | .bindingTick =>
    ({ c with zdpResult := w.zdpResult }.output (.mgmtBindReq c.mgmtBindStartIndex)).awaitConfirm
      w.zdpResult.isEnqueued
  | .apsConfirm id status => c.apsConfirm c.zdpResult.apsReqId id status
  | .zdpMgmtBindResponse data => c.mgmtBindResponse data
  | _ => c

/-- What `DEV_BindingTableVerifyHandler` finds of the destination of a binding. -/
inductive Destination where
  | missing
  | skip (b : DdfBinding)
  | known (b : DdfBinding)

def destination (b : DdfBinding) (w : World) : Destination :=
  if b.dstExtAddress = 0 ∧ b.isUnicastBinding then
    if w.macAddress = 0 then .missing else .known { b with dstExtAddress := w.macAddress }
  else if b.isGroupBinding then
    let (b, ok) := b.updateGroup w.configGroups
    if ok then .known b else .skip b
  else
    .known b

/-- The time at which the binding was confirmed or created last; 0 is no time. -/
def boundAt (tBound confirmed : Int) : Int := if tBound < confirmed then confirmed else tBound

/-- The binding is not older than half an hour. -/
def recentlyBound (now tBound : Int) : Bool :=
  let dt := if tBound ≠ 0 then Int.tdiv (now - tBound) 1000 else -1
  !(decide (dt < 0) || decide (1800 < dt))

def skipBinding (c : BindingContext) : BindingContext :=
  { c with bindingIter := c.bindingIter + 1 }.enqueueTick

def verifyBinding (c : BindingContext) (b : DdfBinding) (tBound : Int) (w : World) :
    BindingContext :=
  match w.bindingTable.find? fun entry => entry.1 = b.toCoreBinding c.deviceKey with
  | none => c.setState .create
  | some (bnd, confirmed) =>
    let t := boundAt tBound confirmed
    let c := { c with bindingTrackers := c.bindingTrackers.set c.bindingIter t }
    if ¬ recentlyBound w.now t then c.setState .create
    else
      match bnd.dstAddressMode with
      | .ext =>
        ({ c with configIter := 0, reportIter := 0 }.output .startReports).setState .readReport
      | .group => c.skipBinding
      | .none => c

/-- `DEV_BindingTableVerifyHandler` -/
def tableVerifyHandler (c : BindingContext) (e : BindingEvent) (w : World) : BindingContext :=
  match e with
  | .bindingTick =>
    if c.bindings.length ≤ c.bindingIter then
      { c with bindingCheckRound := c.bindingCheckRound + 1 }.setState .remove
    else
      match c.bindings[c.bindingIter]?, c.bindingTrackers[c.bindingIter]? with
      | some b, some tBound =>
        match destination b w with
        | .missing => c.setState .binding
        | .skip b => { c with bindings := c.bindings.set c.bindingIter b }.skipBinding
        | .known b =>
          { c with bindings := c.bindings.set c.bindingIter b }.verifyBinding b tBound w
      | _, _ => { c with fault := true }
  | _ => c

/-- `DEV_BindingCreateHandler` -/
def createHandler (c : BindingContext) (e : BindingEvent) (w : World) : BindingContext :=
  match e with
  | .apsConfirm id status => c.apsConfirm c.zdpResult.apsReqId id status
  | .zdpResponse seq status =>
    if seq = c.zdpResult.zdpSeq then
      if status = zdpSuccess then
        if c.bindingIter < c.bindingTrackers.length then
          { c with
            bindingTrackers := c.bindingTrackers.set c.bindingIter w.now }.setState .tableVerify
        else
          { c with fault := true }
      else
        c.setState .binding
    else
      c
  | _ => c

/-- `DEV_BindingCreateHandler`, state enter. -/
def createEnter (c : BindingContext) (w : World) : BindingContext :=
  match c.bindings[c.bindingIter]?, c.bindingTrackers[c.bindingIter]? with
  | some b, some _ =>
    ({ c with
      bindingTrackers := c.bindingTrackers.set c.bindingIter 0
      zdpResult := w.zdpResult }.output (.bindReq (b.toCoreBinding c.deviceKey))).awaitConfirm
        w.zdpResult.isEnqueued
  | _, _ => { c with fault := true }

/-- `DEV_BindingRemoveHandler`: the binding of the node is to be removed. -/
def toRemove (bindings : List DdfBinding) (w : World) (i : CoreBinding) : Bool :=
  match i.dstAddressMode with
  | .group =>
    let same := bindings.filter fun b =>
      b.isGroupBinding && b.clusterId == i.clusterId && b.srcEndpoint == i.srcEndpoint
    !same.isEmpty && !same.any fun b => b.dstGroup == i.dstAddress
  | .ext => !w.nodeExists i.dstAddress
  | .none => false

/-- `DEV_BindingRemoveHandler`, state enter. -/
def removeEnter (c : BindingContext) (w : World) : BindingContext :=
  match w.bindingTable.find? fun entry => toRemove c.bindings w entry.1 with
  | none => c.setState .idle
  | some (bnd, _) =>
    ({ c with zdpResult := w.zdpResult }.output (.unbindReq bnd)).awaitConfirm
      w.zdpResult.isEnqueued

/-- `DEV_BindingRemoveHandler` -/
def removeHandler (c : BindingContext) (e : BindingEvent) : BindingContext :=
  match e with
  | .apsConfirm id status => c.apsConfirm c.zdpResult.apsReqId id status
  | .zdpResponse seq _ =>
    if seq = c.zdpResult.zdpSeq then (c.setState .binding).enqueueTick else c
  | _ => c

/-- `DEV_ReadReportConfigurationHandler`, state enter. -/
def readReportEnter (c : BindingContext) (w : World) : BindingContext :=
  match c.bindings[c.bindingIter]? with
  | none => { c with fault := true }
  | some bnd =>
    if bnd.reporting = [] then c.processNextBinding
    else
      let batch := readBatch c.bindingCheckRound w.now bnd.clusterId bnd.srcEndpoint
        (bnd.reporting.drop c.reportIter)
        { reportIter := c.reportIter, reportTrackers := c.reportTrackers }
      let c := { c with
        reportIter := batch.reportIter, reportTrackers := batch.reportTrackers
        readReportParam := { manufacturerCode := batch.manufacturerCode,
                             records := batch.asked.map ZclReport.readRecord } }
      if batch.asked = [] then c.processNextBinding
      else
        ({ c with zclResult := w.zclResult }.output
          (.readReportConfiguration batch.asked)).awaitConfirm w.zclResult.isEnqueued

/-- `DEV_ReadReportConfigurationHandler` -/
def readReportHandler (c : BindingContext) (e : BindingEvent) (w : World) : BindingContext :=
  match e with
  | .apsConfirm id status => c.apsConfirm c.zclResult.apsReqId id status
  | .zclReadReportConfigResponse rsp =>
    match c.bindings[c.bindingIter]? with
    | none => { c with fault := true }
    | some bnd =>
      if reportingConfigurationValid bnd.reporting c.readReportParam rsp then
        let c := { c with
          reportTrackers := c.reportTrackers.map (ReportTracker.checked w.now) }.output .accepted
        if c.reportIter < bnd.reporting.length then c.setState .readNextReport
        else c.processNextBinding
      else
        c.setState .configureReporting
  | _ => c

/-- `DEV_ConfigureReportingHandler`, state enter. -/
def configureEnter (c : BindingContext) (w : World) : BindingContext :=
  match c.bindings[c.bindingIter]? with
  | none => { c with fault := true }
  | some bnd =>
    let batch := configureBatch c.readReportParam.manufacturerCode
      ((bnd.reporting.take c.reportIter).drop c.configIter) { configIter := c.configIter }
    let c := { c with configIter := batch.configIter }
    if batch.reports = [] then
      { c with zclResult := { c.zclResult with isEnqueued := false } }.setState .binding
    else
      ({ c with zclResult := w.zclResult }.output
        (.configureReporting batch.reports)).awaitConfirm w.zclResult.isEnqueued

/-- `DEV_ConfigureReportingHandler` -/
def configureHandler (c : BindingContext) (e : BindingEvent) : BindingContext :=
  match e with
  | .apsConfirm id status => c.apsConfirm c.zclResult.apsReqId id status
  | .zclResponse seq status =>
    if c.zclResult.sequenceNumber = seq then
      if status = zclSuccessStatus then
        match c.bindings[c.bindingIter]? with
        | none => { c with fault := true }
        | some bnd =>
          let c := c.output .acknowledged
          if c.configIter < c.reportIter then c.setState .configureNextReport
          else if c.reportIter < bnd.reporting.length then c.setState .readNextReport
          else c.processNextBinding
      else
        c.setState .binding
    else
      c
  | _ => c

/-! ## Events -/

def enter (c : BindingContext) (w : World) : BindingContext :=
  match c.state with
  | none | some .binding => c
  | some .tableRead => { c.output .startTable with mgmtBindStartIndex := 0 }.enqueueTick
  | some .tableVerify => c.enqueueTick
  | some .create => c.createEnter w
  | some .remove => c.removeEnter w
  | some .readReport => c.readReportEnter w
  | some .readNextReport => c.setState .readReport
  | some .configureNextReport => c.setState .configureReporting
  | some .configureReporting => c.configureEnter w
  | some .idle => c.startStateTimer

def handle (c : BindingContext) (e : BindingEvent) (w : World) : BindingContext :=
  match c.state with
  | none | some .readNextReport | some .configureNextReport | some .idle => c
  | some .binding => c.bindingHandler e w
  | some .tableRead => c.tableReadHandler e w
  | some .tableVerify => c.tableVerifyHandler e w
  | some .create => c.createHandler e w
  | some .remove => c.removeHandler e
  | some .readReport => c.readReportHandler e w
  | some .configureReporting => c.configureHandler e

/-- The state timeout: every handler that has a timer starts again. -/
def stateTimeout (c : BindingContext) : BindingContext :=
  match c.state with
  | none => c
  | some s => if stopsTimer s then c.setState .binding else c

/-- The event is waiting: a tick has to be queued before it arrives. -/
def dequeue (c : BindingContext) : BindingEvent → Option BindingContext
  | .bindingTick => if c.tick then some { c with tick := false } else none
  | _ => some c

/-- `Device::handleEvent` of an event of the queue, which comes behind the urgent events. -/
def handleEvent (c : BindingContext) (e : BindingEvent) (w : World) : BindingContext :=
  if c.enters ≠ 0 then c
  else
    match c.dequeue e with
    | none => c
    | some c => if c.stateEnterLock then c else c.handle e w

/-- `Device::handleEvent` of a state enter event. -/
def stateEnter (c : BindingContext) (w : World) : BindingContext :=
  if c.enters = 0 then c
  else { c with enters := c.enters - 1, stateEnterLock := false }.enter w

/-- `Device::addBinding` -/
def addBinding (c : BindingContext) (bnd : DdfBinding) : BindingContext :=
  match c.bindings.findIdx? fun i => i.isSame bnd with
  | some i =>
    { c with bindings := c.bindings.modify i (·.mergeBindingReportConfigs bnd) }
  | none =>
    { c with
      bindings := c.bindings ++
        [if bnd.dstEndpoint = 0 ∧ bnd.isUnicastBinding then { bnd with dstEndpoint := 0x01 }
          else bnd]
      bindingTrackers := c.bindingTrackers ++ [0] }

/-- `Device::clearBindings` -/
def clearBindings (c : BindingContext) : BindingContext :=
  let c := { c with bindings := [], bindingTrackers := [] }
  match c.state with
  | none => c
  | some _ => c.setState .binding

def step (c : BindingContext) : BindingAction → BindingContext
  | .stateEnter w => c.stateEnter w
  | .event e w => c.handleEvent e w
  | .timeout => if c.timer then c.stopStateTimer.stateTimeout else c
  | .idleEnter => { c with bindingIter := 0 }.setState .binding
  | .idleLeave => c.clearState.stopStateTimer
  -- the init state follows the idle state, if that was active
  | .ddfReload => { c.clearState.stopStateTimer with bindingCheckRound := 0 }
  | .clearBindings => c.clearBindings
  | .addBinding bnd => c.addBinding bnd
  | .setSupportsMgmtBind supported =>
    { c with mgmtBindSupported := if supported then .supported else .notSupported }

section fields

variable (c : BindingContext) (s : BindingState)

@[simp] theorem setState_state : (c.setState s).state = some s := by
  unfold setState
  split
  · assumption
  · rfl

/-- The fields that `setState` and the timers leave alone. -/
structure Same (c c' : BindingContext) : Prop where
  bindingCheckRound : c'.bindingCheckRound = c.bindingCheckRound
  bindingIter : c'.bindingIter = c.bindingIter
  reportIter : c'.reportIter = c.reportIter
  configIter : c'.configIter = c.configIter
  mgmtBindStartIndex : c'.mgmtBindStartIndex = c.mgmtBindStartIndex
  bindingTrackers : c'.bindingTrackers = c.bindingTrackers
  bindings : c'.bindings = c.bindings
  readReportParam : c'.readReportParam = c.readReportParam
  tick : c'.tick = c.tick
  fault : c'.fault = c.fault
  log : c'.log = c.log

theorem same_leave : Same c c.leave := by
  unfold leave
  split <;> exact ⟨rfl, rfl, rfl, rfl, rfl, rfl, rfl, rfl, rfl, rfl, rfl⟩

theorem same_setState : Same c (c.setState s) := by
  have hleave := same_leave c
  unfold setState
  split
  · exact ⟨rfl, rfl, rfl, rfl, rfl, rfl, rfl, rfl, rfl, rfl, rfl⟩
  · exact ⟨hleave.1, hleave.2, hleave.3, hleave.4, hleave.5, hleave.6, hleave.7, hleave.8, hleave.9,
      hleave.10, hleave.11⟩

end fields

end BindingContext
end DeconzRest

import DeconzRest.Lib.LittleEndian
import DeconzRest.Lib.Transition

/-!
# The queue of binding tasks

Devices without a description file are bound by tasks in one queue.  A timer walks over the
queue and sends a request for the first idle task, as long as fewer than three tasks in front
of it are in progress; responses and binding tables finish tasks, and the timer removes them.

What `sendConfigureReportingRequest` does to the values of a node is not part of the model; of
its result a task only sees whether a request was sent.
-/

namespace DeconzRest
namespace BindingTasks

/-- `Binding`; `dstAddress` holds the octets of the union, as its member `ext` reads them. -/
structure Binding where
  srcAddress : UInt64
  dstAddress : UInt64
  clusterId : UInt16
  dstAddrMode : UInt8
  srcEndpoint : UInt8
  dstEndpoint : UInt8
deriving DecidableEq, Repr

/-- `BindingTask::Action` -/
inductive Action where
  | bind
  | unbind
deriving DecidableEq, Repr

/-- `BindingTask::State` -/
inductive State where
  | idle
  | inProgress
  | check
  | finished
deriving DecidableEq, Repr

/-- `BindingTask`; `restNode` tells the node apart from others.  `zdpSeqNum` has some value
before it is first written. -/
structure BindingTask where
  action : Action
  state : State
  zdpSeqNum : UInt8
  timeout : Int
  retries : Int
  restNode : Option Nat
  binding : Binding
deriving DecidableEq, Repr

/-- What `BindingTask::operator==` compares -/
def BindingTask.key (bt : BindingTask) : Action × Binding := (bt.action, bt.binding)

/-- `BindingTask::Timeout` -/
def timeout : Int := 20

/-- `BindingTask::TimeoutEndDevice` -/
def timeoutEndDevice : Int := 90

/-- `MAX_ACTIVE_BINDING_TASKS` -/
def maxActiveBindingTasks : Nat := 3

/-- `deCONZ::ApsGroupAddress` -/
def groupAddressMode : UInt8 := 1

/-- `deCONZ::ApsExtAddress` -/
def extendedAddressMode : UInt8 := 3

/-- `ZDP_BIND_RSP_CLID` -/
def bindRspClid : UInt16 := 0x8021

/-- `ZDP_UNBIND_RSP_CLID` -/
def unbindRspClid : UInt16 := 0x8022

/-! ## What the queue reads of the rest of the plugin -/

/-- What is read of a `RestNodeBase` -/
structure RestNode where
  isAvailable : Bool
  mgmtBindSupported : Bool
  /-- `receiverOnWhenIdle` of `node()`, if there is one -/
  receiverOnWhenIdle : Option Bool
deriving DecidableEq, Repr

/-- What `sendBindRequest` reads of a `Sensor` -/
structure Sensor where
  ext : UInt64
  /-- `receiverOnWhenIdle` of the node descriptor, if it is known -/
  nodeDescriptor : Option Bool
  modelId : String
  /-- `lastRx().secsTo(now)` -/
  lastRx : Int
deriving DecidableEq, Repr

structure World where
  pluginActive : Bool := true
  /-- `apsCtrl` is set. -/
  apsCtrl : Bool := true
  /-- its network state is `deCONZ::InNetwork` -/
  inNetwork : Bool := true
  permitJoinFlag : Bool := false
  searchSensorsActive : Bool := false
  sensors : List Sensor := []
  restNode : Nat → RestNode
  /-- Whether the devices that exist are managed -/
  managed : UInt64 → Option Bool := fun _ => none
  /-- A sensor or a light has this address. -/
  hasNode : UInt64 → Bool := fun _ => true
  /-- The result of `apsdeDataRequest` for the request of a task is `deCONZ::Success`. -/
  apsdeDataRequest : Action → Binding → Bool
  /-- The result of `sendConfigureReportingRequest` for a task with a node -/
  configureReporting : Action → Binding → Bool

structure Request where
  key : Action × Binding
  zdpSeqNum : UInt8
deriving DecidableEq, Repr

/-- `bindingQueue`, the ZDP sequence number and the requests that were sent so far -/
structure Queue where
  bindingQueue : List BindingTask := []
  zdpSeq : UInt8
  sent : List Request := []
deriving DecidableEq, Repr

/-- A `deCONZ::ApsDataIndication` -/
structure Indication where
  srcAddress : UInt64
  clusterId : UInt16
  asdu : List UInt8
deriving DecidableEq, Repr

namespace World

/-- The checks of `sendBindRequest` on the first sensor with the address -/
def ready (w : World) (srcAddress : UInt64) : Bool :=
  match w.sensors.find? fun s => s.ext = srcAddress with
  | none => true
  | some s =>
    (s.nodeDescriptor.isSome || "EMIZB-1".toList.isPrefixOf s.modelId.toList ||
      "ISW-ZPR1-WP13".toList.isPrefixOf s.modelId.toList) &&
    (s.nodeDescriptor.getD false || w.permitJoinFlag || w.searchSensorsActive ||
      decide (s.lastRx ≤ 7))

/-- `sendConfigureReportingRequest` sends a request for the task. -/
def sendConfigureReportingRequest (w : World) (bt : BindingTask) : Bool :=
  bt.restNode.isSome && w.configureReporting bt.action bt.binding

def timeoutOf (w : World) (restNode : Option Nat) : Int :=
  match restNode with
  | none => timeout
  | some node =>
    if (w.restNode node).receiverOnWhenIdle = some false then timeoutEndDevice else timeout

end World

/-- `Binding::readFromStream`, and what is left of the stream -/
def Binding.readFromStream (stream : List UInt8) : Option (Binding × List UInt8) :=
  if stream.isEmpty then none
  else
    let (srcAddress, stream) := readNumber 8 stream
    if stream.isEmpty then none
    else
      let (srcEndpoint, stream) := readNumber 1 stream
      if stream.isEmpty then none
      else
        let (clusterId, stream) := readNumber 2 stream
        if stream.isEmpty then none
        else
          let (dstAddrMode, stream) := readNumber 1 stream
          let bnd : Binding :=
            { srcAddress := .ofNat srcAddress
              dstAddress := 0
              clusterId := .ofNat clusterId
              dstAddrMode := .ofNat dstAddrMode
              srcEndpoint := .ofNat srcEndpoint
              dstEndpoint := 0 }
          if bnd.dstAddrMode = groupAddressMode then
            if stream.isEmpty then none
            else
              let (group, stream) := readNumber 2 stream
              some ({ bnd with dstAddress := .ofNat group }, stream)
          else if bnd.dstAddrMode = extendedAddressMode then
            if stream.isEmpty then none
            else
              let (ext, stream) := readNumber 8 stream
              if stream.isEmpty then none
              else
                let (dstEndpoint, stream) := readNumber 1 stream
                some ({ bnd with dstAddress := .ofNat ext, dstEndpoint := .ofNat dstEndpoint },
                  stream)
          else none

/-- `Binding::writeToStream` succeeds. -/
def Binding.writeToStream (bnd : Binding) : Bool :=
  bnd.srcAddress != 0 && bnd.srcEndpoint != 0 &&
    (bnd.dstAddrMode == groupAddressMode ||
      (bnd.dstAddrMode == extendedAddressMode && bnd.dstAddress != 0 && bnd.dstEndpoint != 0))

def readBindings : Nat → List UInt8 → List Binding
  | 0, _ => []
  | listCount + 1, stream =>
    if stream.isEmpty then []
    else
      match Binding.readFromStream stream with
      | none => []
      | some (bnd, stream) => bnd :: readBindings listCount stream

/-! ## The timer -/

/-- `sendBindRequest`: whether the request was sent, the task and the next sequence number -/
def World.sendBindRequest (w : World) (zdpSeq : UInt8) (bt : BindingTask) :
    Bool × BindingTask × UInt8 :=
  if !w.apsCtrl then (false, bt, zdpSeq)
  else if !w.ready bt.binding.srcAddress then (false, bt, zdpSeq)
  else
    let bt := { bt with zdpSeqNum := zdpSeq }
    if !bt.binding.writeToStream then (false, bt, zdpSeq + 1)
    else (w.apsdeDataRequest bt.action bt.binding, bt, zdpSeq + 1)

namespace BindingTask

def sendFailed (bt : BindingTask) : BindingTask :=
  if bt.retries < 5 then { bt with retries := bt.retries + 1 }
  else { bt with state := .finished } -- too harsh?

/-- A task in progress after one more second -/
def waitResponse (w : World) (bt : BindingTask) : BindingTask :=
  let bt := { bt with timeout := bt.timeout - 1 }
  if bt.timeout < 0 then
    let bt := { bt with retries := bt.retries - 1 }
    if bt.retries > 0 then
      if bt.restNode.any fun node => !(w.restNode node).isAvailable then
        { bt with state := .finished }
      else
        { bt with state := .idle, timeout := w.timeoutOf bt.restNode }
    else
      { bt with state := .finished }
  else bt

/-- A task that waits for the binding table, after one more second, and whether it goes to the
end of the queue -/
def waitCheck (w : World) (bt : BindingTask) : Bool × BindingTask :=
  let bt := { bt with timeout := bt.timeout - 1 }
  if bt.timeout < 0 then
    let bt := { bt with retries := bt.retries - 1 }
    match bt.restNode with
    | some node =>
      if bt.retries > 0 then
        (true, { bt with
          state := if (w.restNode node).mgmtBindSupported then .check else .idle
          timeout := w.timeoutOf bt.restNode })
      else (false, { bt with state := .finished })
    | none => (false, { bt with state := .finished })
  else (false, bt)

end BindingTask

/-- The loop of `bindingTimerFired` over the tasks that are left, behind those it has passed. -/
def walk (w : World) : List BindingTask → Nat → Queue → List BindingTask → Queue
  | passed, _, q, [] => { q with bindingQueue := passed }
  | passed, active, q, bt :: rest =>
    match bt.state with
    | .idle =>
      if active ≥ maxActiveBindingTasks then walk w (passed ++ [bt]) active q rest
      else
        let (sent, bt, zdpSeq) := w.sendBindRequest q.zdpSeq bt
        if sent then
          { bindingQueue := passed ++ { bt with state := .inProgress } :: rest
            zdpSeq
            sent := q.sent ++ [{ key := bt.key, zdpSeqNum := bt.zdpSeqNum }] }
        else walk w (passed ++ [bt.sendFailed]) active { q with zdpSeq } rest
    | .inProgress =>
      let bt := bt.waitResponse w
      walk w (passed ++ [bt]) (if bt.state = .inProgress then active + 1 else active) q rest
    | .finished => { q with bindingQueue := passed ++ rest }
    | .check =>
      let (again, bt) := bt.waitCheck w
      -- the copy goes to the end, and what is taken away is the front of the queue
      if again then { q with bindingQueue := (passed ++ bt :: rest ++ [bt]).drop 1 }
      else walk w (passed ++ [bt]) active q rest

namespace Queue

/-- `bindingTimerFired` -/
def bindingTimerFired (q : Queue) (w : World) : Queue :=
  if q.bindingQueue.isEmpty then q
  else if !w.pluginActive then { q with bindingQueue := [] }
  else walk w [] 0 q q.bindingQueue

/-- `queueBindingTask`: its result, and the queue after it -/
def queueBindingTask (q : Queue) (w : World) (bt : BindingTask) : Bool × Queue :=
  if !w.apsCtrl || !w.inNetwork then (false, q)
  else if q.bindingQueue.any fun b => b.key = bt.key then (true, q)
  else
    (!(w.managed bt.binding.srcAddress = some false ∧ bt.state = .finished),
      { q with bindingQueue := q.bindingQueue ++ [bt] })

end Queue

/-- A loop over the queue that changes the first task that it looks for. -/
def changeFirst (sought : BindingTask → Bool) (change : BindingTask → BindingTask) :
    List BindingTask → List BindingTask
  | [] => []
  | bt :: rest => if sought bt then change bt :: rest else bt :: changeFirst sought change rest

/-- What a bind or unbind response does to the task that it is taken for. -/
def BindingTask.answered (w : World) (clusterId : UInt16) (status : Nat) (bt : BindingTask) :
    BindingTask :=
  if status = 0 ∧ clusterId = bindRspClid ∧ w.sendConfigureReportingRequest bt then bt
  else { bt with state := .finished }

/-- `handleBindAndUnbindRspIndication` -/
def Queue.handleBindAndUnbindRspIndication (q : Queue) (w : World) (ind : Indication) : Queue :=
  if w.managed ind.srcAddress = some true then q
  else
    let (zdpSeqNum, stream) := readNumber 1 ind.asdu
    let (status, _) := readNumber 1 stream
    { q with
      bindingQueue := changeFirst (fun bt => bt.zdpSeqNum = .ofNat zdpSeqNum)
        (BindingTask.answered w ind.clusterId status) q.bindingQueue }

/-- What a binding in the table does to the task for it. -/
def BindingTask.listed (bt : BindingTask) : BindingTask :=
  if bt.action = .bind ∧ bt.state ≠ .finished then { bt with state := .finished }
  else if bt.action = .unbind ∧ bt.state = .check then { bt with state := .idle }
  else bt

def BindingTask.notListed (srcAddress : UInt64) (bt : BindingTask) : BindingTask :=
  if bt.state = .check ∧ bt.binding.srcAddress = srcAddress then
    match bt.action with
    | .bind => { bt with state := .idle }
    | .unbind => { bt with state := .finished }
  else bt

/-- `handleMgmtBindRspIndication` -/
def Queue.handleMgmtBindRspIndication (q : Queue) (w : World) (ind : Indication) : Queue :=
  if ind.asdu.length < 2 then q
  else if !w.hasNode ind.srcAddress then q
  else
    let (_, stream) := readNumber 1 ind.asdu
    let (status, stream) := readNumber 1 stream
    if status ≠ 0 then q
    else
      let (entries, stream) := readNumber 1 stream
      let (startIndex, stream) := readNumber 1 stream
      let (listCount, stream) := readNumber 1 stream
      let tasks := (readBindings listCount stream).foldl
        (fun tasks bnd => changeFirst (fun bt => bt.binding = bnd) BindingTask.listed tasks)
        q.bindingQueue
      if entries > startIndex + listCount then { q with bindingQueue := tasks }
      else { q with bindingQueue := tasks.map (BindingTask.notListed ind.srcAddress) }

/-- A task as the plugin queues it: no caller queues a task in progress. -/
structure NewTask where
  task : BindingTask
  state : task.state ≠ .inProgress

inductive Event where
  | queueBindingTask (w : World) (new : NewTask)
  | bindingTimerFired (w : World)
  | bindAndUnbindRsp (w : World) (ind : Indication)
  | mgmtBindRsp (w : World) (ind : Indication)
  /-- Another request takes a ZDP sequence number. -/
  | nextSequenceNumber

def step (q : Queue) : Event → Queue
  | .queueBindingTask w new => (q.queueBindingTask w new.task).2
  | .bindingTimerFired w => q.bindingTimerFired w
  | .bindAndUnbindRsp w ind => q.handleBindAndUnbindRspIndication w ind
  | .mgmtBindRsp w ind => q.handleMgmtBindRspIndication w ind
  | .nextSequenceNumber => { q with zdpSeq := q.zdpSeq + 1 }

end BindingTasks
end DeconzRest

import DeconzRest.Tasks.Item
import DeconzRest.Lib.Transition
import DeconzRest.Qt.Time

/-!
# The task queue

`addTask` puts a task at the end of the queue or in the place of one like it, `processTasks`
goes through the queue and hands over the first task whose destination is not busy.  The tasks
that were handed over are running until they are confirmed.

An entry of the queue carries the number of the `addTask` call that put it there, so that
what was queued before and after can be told.
-/

namespace DeconzRest
namespace Tasks

variable {Addr : Type} [DecidableEq Addr]

/-- `MAX_BACKGROUND_TASKS` -/
def maxBackgroundTasks : Nat := 5

/-- `MaxTasks` -/
def maxTasks : Nat := 20

/-- The number of the `addTask` call, and its task -/
structure Queued (Addr : Type) where
  call : Nat
  task : TaskItem Addr
deriving DecidableEq, Repr

/-- What is read of a `Group`; the send time is a `QTime`. -/
structure TaskGroup where
  address : UInt16
  sendTime : Int
deriving DecidableEq, Repr

/-- What `apsdeDataRequest` answers -/
inductive ApsResult where
  | success
  | errorNodeIsZombie
  | error
deriving DecidableEq, Repr

/-- What is read of a `LightNode` -/
structure LightState where
  available : Bool
  /-- `lastRx().isValid()` -/
  heard : Bool
deriving DecidableEq, Repr

/-- The surroundings of one call.  `answer` is what the APS layer says to the task at a place of
the queue, `groupOf` the group of an address. -/
structure Surroundings (Addr : Type) where
  apsCtrl : Bool
  inNetwork : Bool
  channelChangeIdle : Bool
  idleTotalCounter : Int
  now : Int
  gwGroup0 : UInt16
  gwGroupSendDelay : Int
  groupOf : Addr → UInt16
  light : Nat → LightState
  answer : Nat → ApsResult

/-- `tasks`, `runningTasks` and the groups, and the number of `addTask` calls so far. -/
structure TaskQueue (Addr : Type) where
  tasks : List (Queued Addr) := []
  runningTasks : List (TaskItem Addr) := []
  groups : List TaskGroup := []
  calls : Nat := 0
deriving DecidableEq, Repr

/-- The types of tasks that are never replaced -/
def TaskType.exempt : TaskType → Bool
  | .setLevel | .getSceneMembership | .getGroupMembership | .getGroupIdentifiers | .storeScene
  | .removeScene | .removeAllScenes | .readAttributes | .writeAttribute | .viewScene
  | .tuyaRequest | .addScene => true
  | _ => false

/-- The queued task `i` is one that the new task replaces. -/
def replaces (task i : TaskItem Addr) : Bool :=
  i.taskType == task.taskType && decide (i.req.dstAddress = task.req.dstAddress) &&
    i.req.dstEndpoint == task.req.dstEndpoint &&
    i.req.srcEndpoint == task.req.srcEndpoint &&
    i.req.profileId == task.req.profileId &&
    i.req.clusterId == task.req.clusterId &&
    i.req.txOptions == task.req.txOptions &&
    i.req.asdu.length == task.req.asdu.length

/-- The queue with the new task in the place of the first one that it replaces. -/
def replaceFirst (q : Queued Addr) : List (Queued Addr) → Option (List (Queued Addr))
  | [] => none
  | i :: rest =>
    if replaces q.task i.task then some (q :: rest)
    else (replaceFirst q rest).map (i :: ·)

namespace TaskQueue

/-- The queue after the task was added, if it was. -/
def enqueue (s : TaskQueue Addr) (task : TaskItem Addr) : Option (List (Queued Addr)) :=
  let q : Queued Addr := { call := s.calls, task }
  match if task.taskType.exempt then none else replaceFirst q s.tasks with
  | some tasks => some tasks
  | none => if s.tasks.length < maxTasks then some (s.tasks ++ [q]) else none

/-- `addTask`: whether the task was added, and the state after it. -/
def addTask (s : TaskQueue Addr) (env : Surroundings Addr) (task : TaskItem Addr) :
    Bool × TaskQueue Addr :=
  let s' : TaskQueue Addr := { s with calls := s.calls + 1 }
  if !env.inNetwork then (false, s')
  else if !env.channelChangeIdle then (false, s')
  else
    match s.enqueue task with
    | some tasks => (true, { s' with tasks })
    | none => (false, s')

end TaskQueue

/-! ## Processing -/

inductive Destination where
  | free
  | busy
  | drop (place : Nat)
deriving DecidableEq, Repr

def isGroupcast (task : TaskItem Addr) : Bool := task.req.dstAddressMode == .group

def maxOnAir (task : TaskItem Addr) : Nat := if isGroupcast task then 6 else 2

/-- The loop over the running tasks for the queued task `i`; `place` is the one of the next
running task. -/
def checkRunning (idleTotalCounter : Int) (i : TaskItem Addr) :
    List (TaskItem Addr) → Nat → Nat → Destination
  | [], _, _ => .free
  | j :: rest, place, onAir =>
    if i.ordered && i.taskId == j.taskId + 1 then .busy -- previous running
    else if isGroupcast i && isGroupcast j then
      if maxOnAir i ≤ onAir + 1 then .busy
      else checkRunning idleTotalCounter i rest (place + 1) (onAir + 1)
    else if i.req.dstAddress = j.req.dstAddress then
      let dt := idleTotalCounter - j.sendTime
      if dt < 5 ∨ maxOnAir i ≤ onAir + 1 then
        if 120 < dt then .drop place else .busy
      else checkRunning idleTotalCounter i rest (place + 1) (onAir + 1)
    else
      checkRunning idleTotalCounter i rest (place + 1) onAir

/-- `getGroupForId` -/
def getGroupForId (env : Surroundings Addr) (groups : List TaskGroup) (id : UInt16) :
    Option TaskGroup :=
  groups.find? fun group => group.address == (if id ≠ 0 then id else env.gwGroup0)

/-- `group->sendTime = now` for the group that `getGroupForId` found -/
def setGroupSendTime (env : Surroundings Addr) (now : Int) (id : UInt16) :
    List TaskGroup → List TaskGroup
  | [] => []
  | group :: rest =>
    if group.address == (if id ≠ 0 then id else env.gwGroup0) then
      { group with sendTime := now } :: rest
    else group :: setGroupSendTime env now id rest

/-- The outcome of `processTasks`: the state after it, and the requests to the APS layer with
what it answered. -/
structure Processed (Addr : Type) where
  queue : TaskQueue Addr
  requests : List (Queued Addr × ApsResult) := []
deriving DecidableEq, Repr

namespace TaskQueue

/-- The entry is taken out of the queue, and it is running if it is to be confirmed. -/
def handOver (s : TaskQueue Addr) (seen rest : List (Queued Addr)) (i : Queued Addr) :
    TaskQueue Addr :=
  { s with
    tasks := seen ++ rest
    runningTasks :=
      if i.task.req.fireAndForget then s.runningTasks else s.runningTasks ++ [i.task] }

/-- The loop over the queue: `seen` are the tasks in front that were not handed over, `requests`
those made for them. -/
def processLoop (s : TaskQueue Addr) (env : Surroundings Addr) :
    List (Queued Addr) → List (Queued Addr) → List (Queued Addr × ApsResult) → Processed Addr
  | seen, [], requests => { queue := { s with tasks := seen }, requests }
  | seen, i :: rest, requests =>
    let task := i.task
    let dropped : Processed Addr := { queue := { s with tasks := seen ++ rest }, requests }
    -- drop dead unicasts
    if task.lightNode.any fun light => !(env.light light).available || !(env.light light).heard
    then dropped
    else
      let destination :=
        if task.ordered && !seen.isEmpty then .busy -- previous not processed yet
        else checkRunning env.idleTotalCounter task s.runningTasks 0 0
      match destination with
      | .drop place =>
        { queue :=
            { s with
              tasks := seen ++ i :: rest
              runningTasks := s.runningTasks.eraseIdx place }
          requests }
      | .busy => processLoop s env (seen ++ [i]) rest requests
      | .free =>
        let sent : Queued Addr := { i with task := { task with sendTime := env.idleTotalCounter } }
        let answer := env.answer seen.length
        if isGroupcast task then
          match getGroupForId env s.groups (env.groupOf task.req.dstAddress) with
          | none => dropped -- unknown group
          | some group =>
            let diff := env.now - group.sendTime
            if !QTime.isValid group.sendTime ∨ diff ≤ 0 ∨ env.gwGroupSendDelay < diff then
              if answer = .success then
                { queue :=
                    { s.handOver seen rest sent with
                      groups := setGroupSendTime env env.now
                        (env.groupOf task.req.dstAddress) s.groups }
                  requests := requests ++ [(sent, answer)] }
              else
                processLoop s env (seen ++ [sent]) rest (requests ++ [(sent, answer)])
            else
              processLoop s env (seen ++ [i]) rest requests -- delayed group sending
        else if task.lightNode.any fun light => !(env.light light).available then
          dropped
        else if answer = .success then
          { queue := s.handOver seen rest sent, requests := requests ++ [(sent, answer)] }
        else
          { queue := { s with tasks := seen ++ rest }
            requests := requests ++ [(sent, answer)] }

/-- `processTasks` -/
def processTasks (s : TaskQueue Addr) (env : Surroundings Addr) : Processed Addr :=
  if !env.apsCtrl then { queue := s }
  else if s.tasks.isEmpty then { queue := s }
  else if !env.inNetwork then { queue := { s with tasks := [], runningTasks := [] } }
  else if !env.channelChangeIdle then { queue := s }
  else if maxBackgroundTasks ≤ s.runningTasks.length then
    match s.runningTasks.findIdx? fun j => decide (120 < env.idleTotalCounter - j.sendTime) with
    | some place => { queue := { s with runningTasks := s.runningTasks.eraseIdx place } }
    | none => { queue := s }
  else
    s.processLoop env [] s.tasks []

def confirm (s : TaskQueue Addr) (id : UInt8) : TaskQueue Addr :=
  { s with runningTasks := s.runningTasks.eraseP fun task => task.req.id == id }

end TaskQueue

end Tasks
end DeconzRest

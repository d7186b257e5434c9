import DeconzRest.Tasks.Builders
import DeconzRest.Tasks.Queue

/-!
# Storing a scene

`storeScene` queues two tasks for a group: one adds the scene anew without light states, and one
stores the present states of the lights in it.  Each of them can find the queue full.
-/

namespace DeconzRest
namespace Tasks

/-- `Scene`; `deleted` says that its state is not `StateNormal`. -/
structure GroupScene where
  id : UInt8
  deleted : Bool := false
  transitionTime : UInt16 := 0
deriving DecidableEq, Repr

/-- `Group` -/
structure SceneGroup where
  address : UInt16
  scenes : List GroupScene
deriving DecidableEq, Repr

/-- `Group::getScene` -/
def SceneGroup.getScene (group : SceneGroup) (sceneId : UInt8) : Option GroupScene :=
  group.scenes.find? fun scene => scene.id == sceneId && !scene.deleted

variable {Addr : Type}

/-- `addTaskAddEmptyScene` -/
def addTaskAddEmptyScene (task : TaskItem Addr) (zclSeq : UInt8) (groupId : UInt16)
    (sceneId : UInt8) (transitionTime : UInt16) : TaskItem Addr :=
  let (commandId, transitionTime) : UInt8 × UInt16 :=
    if 10 ≤ transitionTime then (0x00, transitionTime / 10) -- deci-seconds -> seconds
    else (0x40, transitionTime)
  task.build .addScene 0x0005 clusterFrameControl 0 zclSeq commandId
    (writeLE 2 groupId.toNat ++ [sceneId] ++ writeLE 2 transitionTime.toNat ++ [0])

/-- `addTaskStoreScene` -/
def addTaskStoreScene (task : TaskItem Addr) (zclSeq : UInt8) (groupId : UInt16)
    (sceneId : UInt8) : TaskItem Addr :=
  task.build .storeScene 0x0005 clusterFrameControl 0 zclSeq 0x04
    (writeLE 2 groupId.toNat ++ [sceneId])

/-- What `storeScene` writes to a task before a builder gets it -/
def toGroup (setGroup : UInt16 → Addr) (groupId : UInt16) (task : TaskItem Addr) : TaskItem Addr :=
  { task with
    ordered := true
    req :=
      { task.req with
        dstAddressMode := .group
        dstAddress := setGroup groupId
        dstEndpoint := 0xff
        srcEndpoint := 0x01 } }

/-- What is there when a scene is stored: the two tasks as they are constructed, `setGroup` of an
address, and `zclSeq` -/
structure SceneTasks (Addr : Type) where
  first : TaskItem Addr
  second : TaskItem Addr
  setGroup : UInt16 → Addr
  zclSeq : UInt8

namespace SceneTasks

variable (c : SceneTasks Addr) (group : SceneGroup) (scene : GroupScene)

def add : TaskItem Addr :=
  addTaskAddEmptyScene (toGroup c.setGroup group.address c.first) c.zclSeq group.address scene.id
    scene.transitionTime

def store : TaskItem Addr :=
  addTaskStoreScene (toGroup c.setGroup group.address c.second) (c.zclSeq + 1) group.address
    scene.id

end SceneTasks

variable [DecidableEq Addr]

/-- `DeRestPluginPrivate::storeScene` -/
def TaskQueue.storeScene (s : TaskQueue Addr) (env : Surroundings Addr) (c : SceneTasks Addr)
    (group : Option SceneGroup) (sceneId : UInt8) : Bool × TaskQueue Addr :=
  match group with
  | none => (false, s)
  | some group =>
    match group.getScene sceneId with
    | none => (false, s)
    | some scene =>
      let (added, s) := s.addTask env (c.add group scene)
      if !added then (false, s)
      else s.addTask env (c.store group scene)

/-! ## All or nothing -/

namespace TaskQueue

variable (s : TaskQueue Addr) (env : Surroundings Addr) (c : SceneTasks Addr)

/-- A refused request leaves the queue as it was, and one that is taken puts both tasks at its end,
in their order. -/
structure AllOrNothing (group : Option SceneGroup) (sceneId : UInt8)
    (stored : Bool × TaskQueue Addr) : Prop where
  nothing : stored.1 = false → stored.2.tasks = s.tasks
  all : stored.1 = true → ∃ g scene, group = some g ∧ g.getScene sceneId = some scene ∧
    stored.2.tasks.map Queued.task = s.tasks.map Queued.task ++ [c.add g scene, c.store g scene] ∧
    (c.add g scene).ordered = true ∧ (c.store g scene).ordered = true

theorem addTask_exempt {task : TaskItem Addr} (h : task.taskType.exempt = true) :
    s.addTask env task = if env.inNetwork ∧ env.channelChangeIdle ∧ s.tasks.length <
      maxTasks then
        (true, { s with calls := s.calls + 1, tasks := s.tasks ++ [⟨s.calls, task⟩] })
      else (false, { s with calls := s.calls + 1 }) := by
  unfold addTask enqueue
  cases hnetwork : env.inNetwork with
  | false => simp
  | true =>
    cases hidle : env.channelChangeIdle with
    | false => simp
    | true =>
      by_cases hroom : s.tasks.length < maxTasks
      · simp [h, hroom]
      · simp [h, hroom]

theorem storeScene_found {group : SceneGroup} {sceneId : UInt8} {scene : GroupScene}
    (h : group.getScene sceneId = some scene) :
    s.storeScene env c (some group) sceneId = if (s.addTask env (c.add group scene)).1 =
      true then
        (s.addTask env (c.add group scene)).2.addTask env (c.store group scene)
      else (false, (s.addTask env (c.add group scene)).2) := by
  simp only [storeScene, h]
  cases (s.addTask env (c.add group scene)).1 <;> rfl

/-- **All or nothing.**  It is, but where the task that adds the scene takes the last place of the
queue. -/
theorem storeScene_iff (group : Option SceneGroup) (sceneId : UInt8) :
    s.AllOrNothing c group sceneId (s.storeScene env c group sceneId) ↔
      ¬ ((group.bind (·.getScene sceneId)).isSome ∧ env.inNetwork ∧ env.channelChangeIdle ∧
        s.tasks.length + 1 = maxTasks) := by
  have hrefused (hnone : group.bind (·.getScene sceneId) = none)
      (hstored : s.storeScene env c group sceneId = (false, s)) :
      s.AllOrNothing c group sceneId (s.storeScene env c group sceneId) ↔
        ¬ ((group.bind (·.getScene sceneId)).isSome ∧ env.inNetwork ∧ env.channelChangeIdle ∧
          s.tasks.length + 1 = maxTasks) := by
    rw [hstored, hnone]
    exact iff_of_true ⟨fun _ => rfl, fun h => nomatch h⟩ fun h => nomatch h.1
  cases hgroup : group with
  | none =>
    subst hgroup
    exact hrefused rfl rfl
  | some g =>
    subst hgroup
    cases hscene : g.getScene sceneId with
    | none => exact hrefused hscene (by simp only [storeScene, hscene])
    | some scene =>
      have hadd := addTask_exempt s env (show (c.add g scene).taskType.exempt = true from rfl)
      have hstore : (c.store g scene).taskType.exempt = true := rfl
      rw [storeScene_found s env c hscene, Option.bind_some, hscene]
      by_cases hroom : env.inNetwork ∧ env.channelChangeIdle ∧ s.tasks.length < maxTasks
      · obtain ⟨hnetwork, hidle, hlt⟩ := hroom
        rw [if_pos ⟨hnetwork, hidle, hlt⟩] at hadd
        rw [hadd, if_pos rfl, addTask_exempt _ env hstore]
        by_cases hlast : s.tasks.length + 1 = maxTasks
        · -- the first task is left behind
          rw [if_neg (by simp [hlast])]
          refine iff_of_false (fun h => ?_) (not_not.mpr ⟨rfl, hnetwork, hidle, hlast⟩)
          have hsame := h.nothing rfl
          simp at hsame
        · have hlt' : (s.tasks ++ [(⟨s.calls, c.add g scene⟩ : Queued Addr)]).length <
              maxTasks := by
            rw [List.length_append, List.length_singleton]
            omega
          rw [if_pos ⟨hnetwork, hidle, hlt'⟩]
          refine iff_of_true ⟨(nomatch ·), fun _ => ?_⟩ (fun h => hlast h.2.2.2)
          exact ⟨g, scene, rfl, hscene, by simp, rfl, rfl⟩
      · rw [if_neg hroom] at hadd
        rw [hadd, if_neg Bool.false_ne_true]
        refine iff_of_true ⟨fun _ => rfl, fun h => nomatch h⟩ fun h => hroom ?_
        exact ⟨h.2.1, h.2.2.1, by omega⟩

def groupTask : TaskItem UInt16 where
  taskType := .getGroupMembership
  taskId := 1
  req :=
    { id := 1, dstAddressMode := .group, dstAddress := 1, dstEndpoint := 0xff, srcEndpoint := 1
      profileId := 0x0104, clusterId := 0x0004, txOptions := 0, radius := 0, sendDelay := 0
      asdu := [], fireAndForget := false }
  zclFrame :=
    { frameControl := 0, manufacturerCode := 0, sequenceNumber := 0, commandId := 0, payload := [] }
  ordered := false
  sendTime := 0
  lightNode := none

def almostFull : TaskQueue UInt16 := { tasks := List.replicate 19 ⟨0, groupTask⟩, calls := 1 }

def inNetwork : Surroundings UInt16 where
  apsCtrl := true
  inNetwork := true
  channelChangeIdle := true
  idleTotalCounter := 0
  now := 0
  gwGroup0 := 0xfff0
  gwGroupSendDelay := 50
  groupOf := id
  light := fun _ => { available := true, heard := true }
  answer := fun _ => .success

/-- **The last place**: the request is refused, and the scene is added all the same. -/
theorem almostFull_added :
    ¬ almostFull.AllOrNothing ⟨groupTask, groupTask, id, 7⟩ (some ⟨1, [{ id := 3 }]⟩) 3
      (almostFull.storeScene inNetwork ⟨groupTask, groupTask, id, 7⟩
        (some ⟨1, [{ id := 3 }]⟩) 3) := by
  intro h
  have hsame := congrArg List.length (h.nothing (by decide +kernel))
  exact absurd hsame (by decide +kernel)

end TaskQueue
end Tasks
end DeconzRest

import DeconzRest.Tasks.Builders
import DeconzRest.Tasks.Queue

/-!
# Merging queued tasks

`addTask` puts a new task in the place of a queued one that looks like it.  The payloads are not
compared, and the tasks queued behind the older one are executed after the newer one.
-/

namespace DeconzRest
namespace Tasks

open Transition

/-- For one part of the destination the new task may stand in the place of the old one, in front
of what was queued between them:  what it sets is left as it is, what it leaves alone the old one
leaves alone or something between sets, and if it toggles then nothing else but toggling is done. -/
def HarmlessAt {c : Part} (old : Act c) (between : List (Act c)) : Act c → Prop
  | .keep => old = .keep ∨ ∃ a ∈ between, a.sets = true
  | .set v => Act.applyAll between v = v
  | .toggle => old = .keep ∧ ∀ a ∈ between, a.sets = false

open Act in
theorem harmlessAt_iff {c : Part} (old : Act c) (between : List (Act c)) (new : Act c) :
    HarmlessAt old between new ↔ ∀ v, new.apply (applyAll between (old.apply v)) =
      applyAll between (new.apply v) := by
  cases new with
  | keep =>
    simp only [HarmlessAt, apply_keep]
    constructor
    · rintro (rfl | hsets) v
      · rfl
      · exact applyAll_const hsets _ _
    · intro heq
      by_cases hsets : ∃ a ∈ between, a.sets = true
      · exact .inr hsets
      · have hnone : ∀ a ∈ between, a.sets = false := by simpa using hsets
        exact .inl (eq_keep fun v => applyAll_injective hnone (heq v))
  | set w =>
    simp only [HarmlessAt, apply_set]
    exact ⟨fun heq _ => heq.symm, fun heq => (heq w).symm⟩
  | toggle =>
    simp only [HarmlessAt, apply_toggle]
    constructor
    · rintro ⟨rfl, hnone⟩ v
      exact (applyAll_not hnone v).symm
    · intro heq
      have hnone : ∀ a ∈ between, a.sets = false := by
        by_contra hsets
        have hsome : ∃ a ∈ between, a.sets = true := by simpa using hsets
        -- what is set between would be its own negation
        have hconst := applyAll_const hsome (old.apply true) (!true : Bool)
        have hself := heq true
        rw [hconst] at hself
        simp at hself
      refine ⟨eq_keep fun v => ?_, hnone⟩
      have hv := heq v
      rw [applyAll_not hnone] at hv
      exact applyAll_injective hnone (Bool.not_inj hv)

variable {Addr : Type} [DecidableEq Addr]

/-- The new task may stand in the place of the old one. -/
def Harmless (old : TaskItem Addr) (between : List (TaskItem Addr)) (new : TaskItem Addr) : Prop :=
  ∀ c, HarmlessAt (old.act c)
    (between.map fun task => task.actOn new.req.dstAddress new.req.dstEndpoint c) (new.act c)

def SameDestination (old new : TaskItem Addr) : Prop :=
  old.req.dstAddress = new.req.dstAddress ∧ old.req.dstEndpoint = new.req.dstEndpoint

theorem actOn_self (task : TaskItem Addr) (c : Part) :
    task.actOn task.req.dstAddress task.req.dstEndpoint c = task.act c := by
  simp [TaskItem.actOn]

theorem actOn_same {old new : TaskItem Addr} (h : SameDestination old new) (c : Part) :
    old.actOn new.req.dstAddress new.req.dstEndpoint c = old.act c := by
  obtain ⟨haddress, hendpoint⟩ := h
  simp [TaskItem.actOn, haddress, hendpoint]

theorem actOn_other {task : TaskItem Addr} {address : Addr} {endpoint : UInt8}
    (h : ¬ (task.req.dstAddress = address ∧ task.req.dstEndpoint = endpoint)) (c : Part) :
    task.actOn address endpoint c = .keep := by
  simp only [TaskItem.actOn, if_neg h]

/-- **One replacement** makes no difference to any destination exactly if it is harmless. -/
theorem replace_iff {old new : TaskItem Addr} (hdst : SameDestination old new)
    (between : List (TaskItem Addr)) :
    Harmless old between new ↔ ∀ w : World Addr, executeAll (old :: between ++ [new]) w =
      executeAll (new :: between) w := by
  constructor
  · intro hharmless w
    funext address endpoint c
    simp only [executeAll_apply, List.map_append, List.map_cons, List.map_nil, Act.applyAll_append,
      Act.applyAll_cons, Act.applyAll_nil]
    by_cases hat : new.req.dstAddress = address ∧ new.req.dstEndpoint = endpoint
    · obtain ⟨rfl, rfl⟩ := hat
      rw [actOn_same hdst, actOn_self]
      exact (harmlessAt_iff _ _ _).mp (hharmless c) _
    · rw [actOn_other hat, actOn_other (by rw [hdst.1, hdst.2]; exact hat)]
      rfl
  · intro heq c
    rw [harmlessAt_iff]
    intro v
    -- a world with the value in question at this part
    have hat := congrFun (congrFun (congrFun
      (heq fun _ _ => Function.update (fun _ => default) c v) new.req.dstAddress)
      new.req.dstEndpoint) c
    simp only [executeAll_apply, List.map_append, List.map_cons, List.map_nil, Act.applyAll_append,
      Act.applyAll_cons, Act.applyAll_nil, Function.update_self, actOn_same hdst, actOn_self] at hat
    exact hat

/-! ## The queue -/

/-- Where `addTask` replaces a task it is harmless. -/
def MergesHarmlessly (s : TaskQueue Addr) (call : Surroundings Addr × TaskItem Addr) : Prop :=
  call.1.inNetwork = true → call.1.channelChangeIdle = true → call.2.taskType.exempt = false →
    ∀ front old between, s.tasks = front ++ old :: between →
      (∀ q ∈ front, replaces call.2 q.task = false) → replaces call.2 old.task = true →
      Harmless old.task (between.map Queued.task) call.2

/-- A call of `addTask` -/
def addStep (s : TaskQueue Addr) (call : Surroundings Addr × TaskItem Addr) : TaskQueue Addr :=
  (s.addTask call.1 call.2).2

/-- The tasks that `addTask` accepts, in the order of the calls. -/
def accepted (s : TaskQueue Addr) : List (Surroundings Addr × TaskItem Addr) → List (TaskItem Addr)
  | [] => []
  | call :: calls =>
    (if (s.addTask call.1 call.2).1 then [call.2] else []) ++ accepted (addStep s call) calls

def TaskQueue.items (s : TaskQueue Addr) : List (TaskItem Addr) := s.tasks.map Queued.task

theorem sameDestination_of_replaces {new old : TaskItem Addr} (h : replaces new old = true) :
    SameDestination old new := by
  simp only [replaces, Bool.and_eq_true, decide_eq_true_eq, beq_iff_eq] at h
  exact ⟨h.1.1.1.1.1.1.2, h.1.1.1.1.1.2⟩

theorem replaceFirst_split {q : Queued Addr} {tasks tasks' : List (Queued Addr)}
    (h : replaceFirst q tasks = some tasks') :
    ∃ front old between, tasks = front ++ old :: between ∧ tasks' = front ++ q :: between ∧
      (∀ p ∈ front, replaces q.task p.task = false) ∧ replaces q.task old.task = true := by
  induction tasks generalizing tasks' with
  | nil => cases h
  | cons i rest ih =>
    rw [replaceFirst] at h
    split at h
    · rename_i hreplaces
      cases h
      exact ⟨[], i, rest, rfl, rfl, by simp, hreplaces⟩
    · rename_i hnot
      obtain ⟨rest', hrest, rfl⟩ := Option.map_eq_some_iff.mp h
      obtain ⟨front, old, between, rfl, rfl, hfront, hold⟩ := ih hrest
      exact ⟨i :: front, old, between, rfl, rfl,
        List.forall_mem_cons.mpr ⟨by simpa using hnot, hfront⟩, hold⟩

/-- **One call**: the queue does what it did before and then what the task does. -/
theorem addTask_executes {s : TaskQueue Addr} {call : Surroundings Addr × TaskItem Addr}
    (h : MergesHarmlessly s call) (w : World Addr) :
    executeAll (addStep s call).items w =
      executeAll (s.items ++ if (s.addTask call.1 call.2).1 then [call.2] else []) w := by
  obtain ⟨env, task⟩ := call
  simp only [addStep, TaskQueue.addTask]
  split
  · simp [TaskQueue.items]
  · rename_i hin
    split
    · simp [TaskQueue.items]
    · rename_i hidle
      have hharmless := h (by simpa using hin) (by simpa using hidle)
      split
      · rename_i tasks hadded
        simp only [if_true]
        simp only [TaskQueue.enqueue] at hadded
        split at hadded
        · -- a queued task is replaced
          rename_i tasks' hreplaced
          cases hadded
          split at hreplaced
          · cases hreplaced
          · rename_i hexempt
            obtain ⟨front, old, between, htasks, rfl, hfront, hold⟩ := replaceFirst_split hreplaced
            have hsame := (replace_iff (sameDestination_of_replaces hold) _).mp
              (hharmless (by simpa using hexempt) front old between htasks hfront hold)
            simp only [TaskQueue.items, htasks, List.map_append, List.map_cons, List.append_assoc]
            rw [executeAll_append, executeAll_append]
            exact (hsame _).symm
        · split at hadded
          · cases hadded
            simp [TaskQueue.items]
          · cases hadded
      · simp [TaskQueue.items]

/-- **Merging queued tasks.**  If every replacement that is made is harmless, then executing the
queue in its order leaves every destination as executing the tasks that were there before and
those that were accepted, in the order of the requests. -/
theorem queue_executes (s : TaskQueue Addr) (calls : List (Surroundings Addr × TaskItem Addr))
    (h : AllSteps addStep MergesHarmlessly s calls) (w : World Addr) :
    executeAll (run addStep s calls).items w = executeAll (s.items ++ accepted s calls) w := by
  induction calls generalizing s with
  | nil => simp [accepted]
  | cons call calls ih =>
    obtain ⟨hfirst, hrest⟩ := allSteps_cons h
    rw [run_cons, ih (addStep s call) hrest, executeAll_append, addTask_executes hfirst w,
      ← executeAll_append, accepted, List.append_assoc]

section Builders

variable {task task' old new : TaskItem Addr} {zclSeq zclSeq' : UInt8}

/-- On and off commands may stand for what was there before, toggle may not. -/
theorem setOnOff_harmless_iff {writeFunction writeFunction' : Bool} {cmd cmd' : UInt8}
    {ontime ontime' : UInt16} {flags flags' : UInt8}
    (hold : addTaskSetOnOff task writeFunction zclSeq cmd ontime flags = some old)
    (hnew : addTaskSetOnOff task' writeFunction' zclSeq' cmd' ontime' flags' = some new) :
    Harmless old [] new ↔ cmd' ≠ onOffCommandToggle := by
  constructor
  · rintro h rfl
    have hat := h .onOff
    rw [act_setOnOff hold, act_setOnOff hnew] at hat
    have hkeep : onOffAct cmd .onOff = .keep := hat.1
    obtain ⟨-, on, hset⟩ | ⟨-, htoggle⟩ := setOnOff_cases hold
    · rw [hset] at hkeep
      cases hkeep
    · rw [htoggle] at hkeep
      cases hkeep
  · intro hnot c
    rw [act_setOnOff hold, act_setOnOff hnew]
    cases c with
    | onOff =>
      obtain ⟨-, on, hset⟩ | ⟨htoggle, -⟩ := setOnOff_cases hnew
      · rw [hset]
        rfl
      · exact absurd htoggle hnot
    | level => exact .inl rfl
    | group id => exact .inl rfl
    | zclAttribute clusterId mfrCode attrId => exact .inl rfl
    | day weekday => exact .inl rfl

end Builders

def lightTask : TaskItem Nat :=
  { taskType := .identify
    taskId := 1
    req :=
      { id := 1, dstAddressMode := .ext, dstAddress := 1, dstEndpoint := 1, srcEndpoint := 1
        profileId := 0, clusterId := 0, txOptions := 0, radius := 0, sendDelay := 0, asdu := []
        fireAndForget := false }
    zclFrame :=
      { frameControl := 0, manufacturerCode := 0, sequenceNumber := 0, commandId := 0
        payload := [] }
    ordered := false
    sendTime := 0
    lightNode := none }

def connected : Surroundings Nat :=
  { apsCtrl := true
    inNetwork := true
    channelChangeIdle := true
    idleTotalCounter := 0
    now := 0
    gwGroup0 := 0xfff0
    gwGroupSendDelay := 50
    groupOf := fun _ => 0
    light := fun _ => { available := true, heard := true }
    answer := fun _ => .success }

def offThenOn : List (Surroundings Nat × TaskItem Nat) :=
  ((addTaskSetOnOff lightTask false 1 onOffCommandOff 0 0).toList ++
    (addTaskSetOnOff lightTask false 2 onOffCommandOn 0 0).toList).map fun task => (connected, task)

theorem mergesHarmlessly_nil {s : TaskQueue Nat} (hs : s.tasks = [])
    (call : Surroundings Nat × TaskItem Nat) : MergesHarmlessly s call := by
  intro _ _ _ front old between htasks
  rw [hs] at htasks
  simp at htasks

theorem mergesHarmlessly_single {s : TaskQueue Nat} {q : Queued Nat} (hs : s.tasks = [q])
    {call : Surroundings Nat × TaskItem Nat} (h : Harmless q.task [] call.2) :
    MergesHarmlessly s call := by
  intro _ _ _ front old between htasks _ _
  rw [hs] at htasks
  cases front with
  | nil =>
    obtain ⟨rfl, rfl⟩ := List.cons.inj htasks
    exact h
  | cons p front => simp at htasks

theorem queue_executes_offThenOn :
    executeAll (run addStep {} offThenOn).items (fun _ _ _ => default) =
      executeAll (({} : TaskQueue Nat).items ++ accepted {} offThenOn) (fun _ _ _ => default) := by
  have hoff : addTaskSetOnOff lightTask false 1 onOffCommandOff 0 0 = some _ := rfl
  have hon : addTaskSetOnOff lightTask false 2 onOffCommandOn 0 0 = some _ := rfl
  refine queue_executes {} offThenOn ?_ _
  refine allSteps_of_cons (mergesHarmlessly_nil rfl _)
    (allSteps_of_cons (mergesHarmlessly_single rfl ?_) (allSteps_nil _ _ _))
  exact (setOnOff_harmless_iff hoff hon).mpr (by decide)

def twoGroups : List (Surroundings Nat × TaskItem Nat) :=
  [(connected, addTaskAddToGroup lightTask 1 1), (connected, addTaskAddToGroup lightTask 2 2)]

/-- Both tasks are accepted, but the light does not get into group 1. -/
theorem twoGroups_lost :
    ¬ ∀ (s : TaskQueue Nat) (calls : List (Surroundings Nat × TaskItem Nat)) (w : World Nat),
      executeAll (run addStep s calls).items w = executeAll (s.items ++ accepted s calls) w := by
  intro h
  have hgroup := congrFun (congrFun (congrFun (h {} twoGroups fun _ _ _ => default) 1) 1) (.group 1)
  revert hgroup
  decide +kernel

end Tasks
end DeconzRest

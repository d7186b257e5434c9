import DeconzRest.Tasks.Queue
import Mathlib.Order.Basic
import Mathlib.Order.Defs.LinearOrder

/-!
# What the task queue keeps to

The limits on the lists, what one call of `processTasks` does, and the order of the tasks.
-/

namespace DeconzRest
namespace Tasks

open Transition List

variable {Addr : Type} [DecidableEq Addr]

def onAirTo (running : List (TaskItem Addr)) (address : Addr) : List (TaskItem Addr) :=
  running.filter fun j => !isGroupcast j && decide (j.req.dstAddress = address)

theorem checkRunning_ordered {idleTotalCounter : Int} {i : TaskItem Addr}
    (hordered : i.ordered = true) {running : List (TaskItem Addr)} : ∀ {place onAir : Nat},
    checkRunning idleTotalCounter i running place onAir = .free →
    ∀ j ∈ running, i.taskId ≠ j.taskId + 1 := by
  induction running with
  | nil => simp
  | cons j rest ih =>
    intro place onAir hfree
    rw [checkRunning] at hfree
    split at hfree
    · cases hfree
    · rename_i hnot
      refine forall_mem_cons.mpr ⟨by simpa [hordered] using hnot, ?_⟩
      -- the other branches that end in `free` go on with the rest
      split at hfree
      · split at hfree
        · cases hfree
        · exact ih hfree
      · split at hfree
        · simp only at hfree
          split at hfree
          · split at hfree <;> cases hfree
          · exact ih hfree
        · exact ih hfree

theorem checkRunning_onAir {idleTotalCounter : Int} {i : TaskItem Addr}
    (hunicast : isGroupcast i = false) {running : List (TaskItem Addr)} : ∀ {place onAir : Nat},
    onAir < 2 → checkRunning idleTotalCounter i running place onAir = .free →
    (onAirTo running i.req.dstAddress).length + onAir < 2 := by
  have hmax : maxOnAir i = 2 := by simp [maxOnAir, hunicast]
  induction running with
  | nil =>
    intro place onAir hlt _
    simpa [onAirTo] using hlt
  | cons j rest ih =>
    intro place onAir hlt hfree
    rw [checkRunning] at hfree
    split at hfree
    · cases hfree
    · rw [hunicast, Bool.false_and, if_neg (by simp)] at hfree
      split at hfree
      · rename_i hsame
        simp only at hfree
        split at hfree
        · split at hfree <;> cases hfree
        · rename_i hroom
          have hnext := ih (by omega) hfree
          have hle : (onAirTo (j :: rest) i.req.dstAddress).length ≤
              (onAirTo rest i.req.dstAddress).length + 1 := by
            simp only [onAirTo, filter_cons]
            split <;> simp
          omega
      · rename_i hother
        have hskip : onAirTo (j :: rest) i.req.dstAddress = onAirTo rest i.req.dstAddress := by
          simp [onAirTo, Ne.symm hother]
        rw [hskip]
        exact ih hlt hfree

/-! ## One call of `processTasks` -/

/-- An entry of the queue, whatever its send time is. -/
def Queued.same (q : Queued Addr) : Queued Addr := { q with task := { q.task with sendTime := 0 } }

/-- What a call does to the running tasks: nothing, one is dropped, or one is put to them whose
destination was free. -/
inductive RunningStep (env : Surroundings Addr) (running : List (TaskItem Addr)) :
    List (TaskItem Addr) → Prop where
  | same : RunningStep env running running
  | dropped (place : Nat) : RunningStep env running (running.eraseIdx place)
  | started (task : TaskItem Addr)
      (hfree : isGroupcast task = false → (onAirTo running task.req.dstAddress).length < 2) :
      RunningStep env running (running ++ [task])

/-- A request to the APS layer for an entry of the queue `before`: an ordered task stands at the
front and follows no running task. -/
def Legal (before : List (Queued Addr)) (running : List (TaskItem Addr)) (q : Queued Addr) : Prop :=
  q.same ∈ before.map Queued.same ∧
    (q.task.ordered = true → (before.map Queued.same).head? = some q.same ∧ ∀ j ∈
      running, q.task.taskId ≠ j.taskId + 1)

/-- What the loop does when it is at the entries `after`, behind `seen`. -/
structure LoopSpec (s : TaskQueue Addr) (env : Surroundings Addr) (seen after : List (Queued Addr))
    (requests : List (Queued Addr × ApsResult)) (r : Processed Addr) : Prop where
  kept : (r.queue.tasks.map Queued.same).Sublist ((seen ++ after).map Queued.same)
  removed : (seen ++ after).length ≤ r.queue.tasks.length + 1
  running : RunningStep env s.runningTasks r.queue.runningTasks
  /-- One of the lists loses nothing. -/
  either : r.queue.tasks.length = (seen ++ after).length ∨
    s.runningTasks.Sublist r.queue.runningTasks
  calls : r.queue.calls = s.calls
  requests : ∃ made, r.requests = requests ++ made ∧ made.countP (fun m => m.2 = .success) ≤ 1 ∧
    ∀ m ∈ made, Legal (seen ++ after) s.runningTasks m.1

section Loop

variable {s : TaskQueue Addr} {env : Surroundings Addr} {seen rest : List (Queued Addr)}
  {i : Queued Addr} {requests : List (Queued Addr × ApsResult)}

omit [DecidableEq Addr] in
theorem removed_one : (seen ++ i :: rest).length ≤ (seen ++ rest).length + 1 := by
  simp only [List.length_append, length_cons]
  omega

omit [DecidableEq Addr] in
theorem kept_one : ((seen ++ rest).map Queued.same).Sublist ((seen ++ i :: rest).map Queued.same) :=
  ((sublist_cons_self i rest).append_left seen).map Queued.same

theorem loopSpec_dropped :
    LoopSpec s env seen (i :: rest) requests
      { queue := { s with tasks := seen ++ rest }, requests } where
  kept := kept_one
  removed := removed_one
  running := .same
  either := .inr (List.Sublist.refl _)
  calls := rfl
  requests := ⟨[], by simp⟩

theorem loopSpec_runningDropped (place : Nat) :
    LoopSpec s env seen (i :: rest) requests
      { queue :=
          { s with
            tasks := seen ++ i :: rest
            runningTasks := s.runningTasks.eraseIdx place }
        requests } where
  kept := List.Sublist.refl _
  removed := Nat.le_succ _
  running := .dropped place
  either := .inl rfl
  calls := rfl
  requests := ⟨[], by simp⟩

theorem loopSpec_next {i' : Queued Addr} (hi' : i'.same = i.same)
    (made : List (Queued Addr × ApsResult)) (hfailed : ∀ m ∈ made, m.2 ≠ .success)
    (hlegal : ∀ m ∈ made, Legal (seen ++ i :: rest) s.runningTasks m.1) {r : Processed Addr}
    (h : LoopSpec s env (seen ++ [i']) rest (requests ++ made) r) :
    LoopSpec s env seen (i :: rest) requests r := by
  have hsame : ((seen ++ [i']) ++ rest).map Queued.same = (seen ++ i :: rest).map Queued.same := by
    simp [hi']
  have hlength : ((seen ++ [i']) ++ rest).length = (seen ++ i :: rest).length := by simp
  obtain ⟨more, hmore, hcount, hmoreLegal⟩ := h.requests
  refine ⟨hsame ▸ h.kept, hlength ▸ h.removed, h.running, hlength ▸ h.either, h.calls, made ++ more,
    ?_, ?_, ?_⟩
  · rw [hmore, append_assoc]
  · have hnone : made.countP (fun m => m.2 = .success) = 0 :=
      countP_eq_zero.mpr fun m hm => by simpa using hfailed m hm
    rw [countP_append, hnone, Nat.zero_add]
    exact hcount
  · intro m hm
    rcases mem_append.mp hm with hm | hm
    · exact hlegal m hm
    · have hmlegal := hmoreLegal m hm
      rw [Legal, hsame] at hmlegal
      exact hmlegal

theorem legal_of_free {sent : Queued Addr} (hsent : sent.same = i.same)
    (hordered : sent.task.ordered = i.task.ordered) (hid : sent.task.taskId = i.task.taskId)
    (hfront : i.task.ordered = true → seen = [])
    (hfree : checkRunning env.idleTotalCounter i.task s.runningTasks 0 0 = .free) :
    Legal (seen ++ i :: rest) s.runningTasks sent := by
  refine ⟨?_, fun ho => ?_⟩
  · rw [hsent]
    exact mem_map_of_mem (by simp)
  · rw [hordered] at ho
    rw [hfront ho, hsent, hid]
    exact ⟨rfl, checkRunning_ordered ho hfree⟩

theorem loopSpec_sent {sent : Queued Addr} {answer : ApsResult} {queue : TaskQueue Addr}
    (hlegal : Legal (seen ++ i :: rest) s.runningTasks sent) (htasks : queue.tasks = seen ++ rest)
    (hcalls : queue.calls = s.calls)
    (hrunning : RunningStep env s.runningTasks queue.runningTasks)
    (hsublist : s.runningTasks.Sublist queue.runningTasks) :
    LoopSpec s env seen (i :: rest) requests
      { queue, requests := requests ++ [(sent, answer)] } where
  kept := by
    rw [htasks]
    exact kept_one
  removed := by
    rw [htasks]
    exact removed_one
  running := hrunning
  either := .inr hsublist
  calls := hcalls
  requests := by
    refine ⟨[(sent, answer)], rfl, countP_le_length, ?_⟩
    intro m hm
    rw [mem_singleton.mp hm]
    exact hlegal

end Loop

variable (s : TaskQueue Addr)

theorem handOver_running (env : Surroundings Addr) (seen rest : List (Queued Addr))
    (sent : Queued Addr)
    (hfree : isGroupcast sent.task = false →
      (onAirTo s.runningTasks sent.task.req.dstAddress).length < 2)
    :
    RunningStep env s.runningTasks (s.handOver seen rest sent).runningTasks := by
  unfold TaskQueue.handOver
  simp only
  split
  · exact .same
  · exact .started sent.task hfree

omit [DecidableEq Addr] in
theorem handOver_sublist (seen rest : List (Queued Addr)) (sent : Queued Addr) :
    s.runningTasks.Sublist (s.handOver seen rest sent).runningTasks := by
  unfold TaskQueue.handOver
  simp only
  split
  · exact List.Sublist.refl _
  · exact sublist_append_left _ _

/-- **The loop over the queue** keeps to the discipline, wherever it is. -/
theorem processLoop_spec (env : Surroundings Addr) (after : List (Queued Addr)) :
    ∀ (seen : List (Queued Addr))
    (requests : List (Queued Addr × ApsResult)),
    LoopSpec s env seen after requests (s.processLoop env seen after requests) := by
  induction after with
  | nil =>
    intro seen requests
    refine ⟨?_, ?_, .same, .inr (List.Sublist.refl _), rfl, [], by simp [TaskQueue.processLoop]⟩
    · simp [TaskQueue.processLoop]
    · simp [TaskQueue.processLoop]
  | cons i rest ih =>
    intro seen requests
    -- the loop goes on without a request
    have hnext : LoopSpec s env seen (i :: rest) requests
        (s.processLoop env (seen ++ [i]) rest requests) := by
      refine loopSpec_next rfl [] (by simp) (by simp) ?_
      rw [append_nil]
      exact ih (seen ++ [i]) requests
    rw [TaskQueue.processLoop]
    simp only
    split
    · exact loopSpec_dropped
    · split
      · rename_i place _
        exact loopSpec_runningDropped place
      · exact hnext
      · rename_i hfree
        have hfront : i.task.ordered = true → seen = [] := by
          intro hordered
          by_contra hseen
          rw [hordered, if_pos (by simp [hseen])] at hfree
          cases hfree
        have hcheck : checkRunning env.idleTotalCounter i.task s.runningTasks 0 0 = .free := by
          split at hfree
          · cases hfree
          · exact hfree
        have hroom : isGroupcast i.task = false →
            (onAirTo s.runningTasks i.task.req.dstAddress).length < 2 :=
          fun hunicast => checkRunning_onAir hunicast (by omega) hcheck
        let sent : Queued Addr :=
          { i with task := { i.task with sendTime := env.idleTotalCounter } }
        have hlegal : Legal (seen ++ i :: rest) s.runningTasks sent :=
          legal_of_free rfl rfl rfl hfront hcheck
        split
        · -- groupcast
          split
          · exact loopSpec_dropped
          · split
            · split
              · exact loopSpec_sent hlegal rfl rfl (handOver_running s env seen rest sent hroom)
                  (handOver_sublist s seen rest sent)
              · rename_i hfailed
                have hsame : sent.same = i.same := rfl
                refine loopSpec_next hsame [(sent, env.answer seen.length)] ?_ ?_
                  (ih (seen ++ [sent]) _)
                · exact fun m hm => by rw [mem_singleton.mp hm]; exact hfailed
                · exact fun m hm => by rw [mem_singleton.mp hm]; exact hlegal
            · exact hnext
        · -- unicast and broadcast
          split
          · exact loopSpec_dropped
          · split
            · exact loopSpec_sent hlegal rfl rfl (handOver_running s env seen rest sent hroom)
                (handOver_sublist s seen rest sent)
            · exact loopSpec_sent hlegal rfl rfl .same (List.Sublist.refl _)

structure CallSpec (s : TaskQueue Addr) (env : Surroundings Addr) (r : Processed Addr) : Prop where
  kept : (r.queue.tasks.map Queued.same).Sublist (s.tasks.map Queued.same)
  removed : s.tasks.length ≤ r.queue.tasks.length + 1
  running : RunningStep env s.runningTasks r.queue.runningTasks
  either : r.queue.tasks.length = s.tasks.length ∨ s.runningTasks.Sublist r.queue.runningTasks
  room : r.queue.runningTasks.length ≤ s.runningTasks.length ∨ r.queue.runningTasks.length ≤
    maxBackgroundTasks
  calls : r.queue.calls = s.calls
  accepted : r.requests.countP (fun m => m.2 = .success) ≤ 1
  legal : ∀ m ∈ r.requests, Legal s.tasks s.runningTasks m.1

variable {env : Surroundings Addr}

theorem callSpec_quiet {s : TaskQueue Addr} {queue : TaskQueue Addr}
    (htasks : queue.tasks = s.tasks) (hcalls : queue.calls = s.calls)
    (hrunning : RunningStep env s.runningTasks queue.runningTasks)
    (hroom : queue.runningTasks.length ≤ s.runningTasks.length) :
    CallSpec s env { queue } where
  kept := by rw [htasks]
  removed := by simp [htasks]
  running := hrunning
  either := .inl (by rw [htasks])
  room := .inl hroom
  calls := hcalls
  accepted := by simp
  legal := by simp

variable {running running' : List (TaskItem Addr)}

theorem RunningStep.length_le (h : RunningStep env running running') :
    running'.length ≤ running.length + 1 := by
  cases h with
  | same => omega
  | dropped place =>
    have := length_eraseIdx_le running place
    omega
  | started task hfree => simp

theorem RunningStep.removed (h : RunningStep env running running') :
    running.length ≤ running'.length + 1 := by
  cases h with
  | same => omega
  | dropped place =>
    rw [length_eraseIdx]
    split <;> omega
  | started task hfree =>
    rw [List.length_append, length_singleton]
    omega

/-- **One call of `processTasks`**: out of the network both lists are cleared. -/
theorem processTasks_step (env : Surroundings Addr) :
    CallSpec s env (s.processTasks env) ∨
      (env.inNetwork = false ∧ s.processTasks env =
        { queue := { s with tasks := [], runningTasks := [] } }) := by
  unfold TaskQueue.processTasks
  split
  · exact .inl (callSpec_quiet rfl rfl .same le_rfl)
  · split
    · exact .inl (callSpec_quiet rfl rfl .same le_rfl)
    · split
      · rename_i hout
        exact .inr ⟨by simpa using hout, rfl⟩
      · split
        · exact .inl (callSpec_quiet rfl rfl .same le_rfl)
        · split
          · split
            · rename_i place _
              exact .inl (callSpec_quiet rfl rfl (.dropped place)
                (length_eraseIdx_le s.runningTasks place))
            · exact .inl (callSpec_quiet rfl rfl .same le_rfl)
          · rename_i hroom
            have hspec := processLoop_spec s env s.tasks [] []
            obtain ⟨made, hmade, hcount, hlegal⟩ := hspec.requests
            rw [nil_append] at hmade
            have hlength := hspec.running.length_le
            exact .inl
              { kept := hspec.kept
                removed := hspec.removed
                running := hspec.running
                either := hspec.either
                room := .inr (by omega)
                calls := hspec.calls
                accepted := hmade ▸ hcount
                legal := hmade ▸ hlegal }

/-- A call of the program; what surrounds it may be another each time, and other parts of the
program may change the groups in between. -/
inductive Action (Addr : Type) where
  | setGroups (groups : List TaskGroup)
  | addTask (env : Surroundings Addr) (task : TaskItem Addr)
  | processTasks (env : Surroundings Addr)
  | confirm (id : UInt8)

def step (s : TaskQueue Addr) : Action Addr → TaskQueue Addr
  | .setGroups groups => { s with groups }
  | .addTask env task => (s.addTask env task).2
  | .processTasks env => (s.processTasks env).queue
  | .confirm id => s.confirm id

/-- The queue and the running tasks keep to their limits. -/
structure Bounded (s : TaskQueue Addr) : Prop where
  tasks : s.tasks.length ≤ maxTasks
  running : s.runningTasks.length ≤ maxBackgroundTasks
  destination (address : Addr) : (onAirTo s.runningTasks address).length ≤ 2

variable {q : Queued Addr} {tasks tasks' : List (Queued Addr)}

/-- Behind a task that is never replaced are the ones that were queued after it. -/
structure InOrder (s : TaskQueue Addr) : Prop where
  calls : ∀ q ∈ s.tasks, q.call < s.calls
  behind : s.tasks.Pairwise fun p q => p.task.taskType.exempt = true → p.call < q.call

omit [DecidableEq Addr] in
theorem onAirTo_sublist [DecidableEq Addr] (h : running'.Sublist running) (address : Addr) :
    (onAirTo running' address).length ≤ (onAirTo running address).length :=
  (h.filter _).length_le

theorem RunningStep.destination (h : RunningStep env running running')
    (hold : ∀ address, (onAirTo running address).length ≤ 2) (address : Addr) :
    (onAirTo running' address).length ≤ 2 := by
  cases h with
  | same => exact hold address
  | dropped place =>
    exact (onAirTo_sublist (eraseIdx_sublist running place) address).trans (hold address)
  | started task hfree =>
    have happend : onAirTo (running ++ [task]) address = onAirTo running address ++
        onAirTo [task] address := by simp [onAirTo]
    rw [happend, List.length_append]
    by_cases hto : isGroupcast task = false ∧ task.req.dstAddress = address
    · obtain ⟨hunicast, rfl⟩ := hto
      have hroom := hfree hunicast
      have hone : (onAirTo [task] task.req.dstAddress).length ≤ 1 :=
        length_filter_le _ _
      omega
    · have hnone : onAirTo [task] address = [] := by
        simp only [onAirTo, filter_cons, filter_nil]
        rw [if_neg (by simpa using hto)]
      rw [hnone]
      exact hold address

theorem replaceFirst_length (h : replaceFirst q tasks = some tasks') :
    tasks'.length = tasks.length := by
  induction tasks generalizing tasks' with
  | nil => cases h
  | cons i rest ih =>
    rw [replaceFirst] at h
    split at h
    · cases h
      rfl
    · obtain ⟨rest', hrest, rfl⟩ := Option.map_eq_some_iff.mp h
      simp [ih hrest]

theorem enqueue_length {s : TaskQueue Addr} {task : TaskItem Addr} {tasks' : List (Queued Addr)}
    (h : s.enqueue task = some tasks') (hle : s.tasks.length ≤ maxTasks) :
    tasks'.length ≤ maxTasks := by
  simp only [TaskQueue.enqueue] at h
  split at h
  · rename_i tasks hreplaced
    cases h
    split at hreplaced
    · cases hreplaced
    · rwa [replaceFirst_length hreplaced]
  · split at h
    · cases h
      rw [List.length_append, length_singleton]
      omega
    · cases h

theorem addTask_cases (env : Surroundings Addr) (task : TaskItem Addr) :
    (s.addTask env task).2 = { s with calls := s.calls + 1 } ∨ ∃ tasks, s.enqueue task =
      some tasks ∧ (s.addTask env task).2 = { s with calls := s.calls + 1, tasks } := by
  unfold TaskQueue.addTask
  simp only
  split
  · exact .inl rfl
  · split
    · exact .inl rfl
    · split
      · rename_i tasks htasks
        exact .inr ⟨tasks, htasks, rfl⟩
      · exact .inl rfl

theorem step_bounded (a : Action Addr) (h : Bounded s) : Bounded (step s a) := by
  cases a with
  | setGroups groups => exact ⟨h.tasks, h.running, h.destination⟩
  | addTask env task =>
    simp only [step]
    obtain hkept | ⟨tasks, hadded, hkept⟩ := addTask_cases s env task
    · rw [hkept]
      exact ⟨h.tasks, h.running, h.destination⟩
    · rw [hkept]
      exact ⟨enqueue_length hadded h.tasks, h.running, h.destination⟩
  | processTasks env =>
    simp only [step]
    obtain hcall | ⟨-, hcleared⟩ := processTasks_step s env
    · refine ⟨?_, ?_, hcall.running.destination h.destination⟩
      · have hle := hcall.kept.length_le
        rw [length_map, length_map] at hle
        exact hle.trans h.tasks
      · rcases hcall.room with hle | hle
        · exact hle.trans h.running
        · exact hle
    · rw [hcleared]
      exact ⟨Nat.zero_le _, Nat.zero_le _, fun address => Nat.zero_le _⟩
  | confirm id =>
    have hsublist := eraseP_sublist (p := fun task : TaskItem Addr => task.req.id == id)
      (l := s.runningTasks)
    exact ⟨h.tasks, hsublist.length_le.trans h.running,
      fun address => (onAirTo_sublist hsublist address).trans (h.destination address)⟩

/-- **The limits hold** after every run. -/
theorem queue_bounds (acts : List (Action Addr)) : Bounded (run step ({} : TaskQueue Addr) acts) :=
  run_invariant step_bounded
    ⟨Nat.zero_le _, Nat.zero_le _, fun _ => Nat.zero_le _⟩ acts

/-! ### The order -/

theorem replaceFirst_mem (h : replaceFirst q tasks = some tasks') :
    ∀ p ∈ tasks', p = q ∨ p ∈ tasks := by
  induction tasks generalizing tasks' with
  | nil => cases h
  | cons i rest ih =>
    rw [replaceFirst] at h
    split at h
    · cases h
      intro p hp
      rcases mem_cons.mp hp with hp | hp
      · exact .inl hp
      · exact .inr (mem_cons_of_mem i hp)
    · obtain ⟨rest', hrest, rfl⟩ := Option.map_eq_some_iff.mp h
      intro p hp
      rcases mem_cons.mp hp with hp | hp
      · exact .inr (hp ▸ mem_cons_self)
      · exact (ih hrest p hp).imp_right (mem_cons_of_mem i)

theorem replaceFirst_behind (hq : q.task.taskType.exempt = false)
    (h : replaceFirst q tasks = some tasks') (hcalls : ∀ p ∈ tasks, p.call < q.call)
    (hbehind : tasks.Pairwise fun p q => p.task.taskType.exempt = true → p.call < q.call) :
    tasks'.Pairwise fun p q => p.task.taskType.exempt = true → p.call < q.call := by
  induction tasks generalizing tasks' with
  | nil => cases h
  | cons i rest ih =>
    obtain ⟨hi, hrest⟩ := pairwise_cons.mp hbehind
    rw [replaceFirst] at h
    split at h
    · cases h
      refine pairwise_cons.mpr ⟨fun p _ hexempt => ?_, hrest⟩
      rw [hq] at hexempt
      cases hexempt
    · obtain ⟨rest', hreplaced, rfl⟩ := Option.map_eq_some_iff.mp h
      obtain ⟨hicall, hrestCalls⟩ := forall_mem_cons.mp hcalls
      refine pairwise_cons.mpr ⟨fun p hp hexempt => ?_, ih hreplaced hrestCalls hrest⟩
      rcases replaceFirst_mem hreplaced p hp with rfl | hp
      · exact hicall
      · exact hi p hp hexempt

theorem enqueue_inOrder {s : TaskQueue Addr} {task : TaskItem Addr} {tasks' : List (Queued Addr)}
    (h : s.enqueue task = some tasks') (hs : InOrder s) :
    InOrder { s with calls := s.calls + 1, tasks := tasks' } := by
  simp only [TaskQueue.enqueue] at h
  split at h
  · rename_i tasks hreplaced
    cases h
    split at hreplaced
    · cases hreplaced
    · rename_i hexempt
      refine ⟨fun p hp => ?_, replaceFirst_behind (by simpa using hexempt) hreplaced hs.calls
        hs.behind⟩
      rcases replaceFirst_mem hreplaced p hp with rfl | hp
      · exact Nat.lt_succ_self _
      · exact Nat.lt_succ_of_lt (hs.calls p hp)
  · split at h
    · cases h
      refine ⟨fun p hp => ?_, pairwise_append.mpr ⟨hs.behind, pairwise_singleton _ _,
        fun p hp q hq _ => ?_⟩⟩
      · rcases mem_append.mp hp with hp | hp
        · exact Nat.lt_succ_of_lt (hs.calls p hp)
        · rw [mem_singleton.mp hp]
          exact Nat.lt_succ_self _
      · rw [mem_singleton.mp hq]
        exact hs.calls p hp
    · cases h

omit [DecidableEq Addr] in
theorem inOrder_kept {s s' : TaskQueue Addr} (h : InOrder s) (hcalls : s'.calls = s.calls)
    (hkept : (s'.tasks.map Queued.same).Sublist (s.tasks.map Queued.same)) : InOrder s' := by
  constructor
  · intro p hp
    obtain ⟨p', hp', hsame⟩ := mem_map.mp (hkept.subset (mem_map_of_mem hp))
    have hcall : p'.call = p.call := by simpa [Queued.same] using congrArg Queued.call hsame
    rw [← hcall, hcalls]
    exact h.calls p' hp'
  · have hmapped : (s.tasks.map Queued.same).Pairwise
        fun p q => p.task.taskType.exempt = true → p.call < q.call :=
      pairwise_map.mpr h.behind
    exact pairwise_map.mp (hmapped.sublist hkept)

theorem step_inOrder (a : Action Addr) (h : InOrder s) : InOrder (step s a) := by
  cases a with
  | setGroups groups => exact ⟨h.calls, h.behind⟩
  | addTask env task =>
    simp only [step]
    obtain hkept | ⟨tasks, hadded, hkept⟩ := addTask_cases s env task
    · rw [hkept]
      exact ⟨fun p hp => Nat.lt_succ_of_lt (h.calls p hp), h.behind⟩
    · rw [hkept]
      exact enqueue_inOrder hadded h
  | processTasks env =>
    simp only [step]
    obtain hcall | ⟨-, hcleared⟩ := processTasks_step s env
    · exact inOrder_kept h hcall.calls hcall.kept
    · rw [hcleared]
      exact ⟨by simp, List.Pairwise.nil⟩
  | confirm id => exact ⟨h.calls, h.behind⟩

/-- **The order holds** after every run. -/
theorem queue_order (acts : List (Action Addr)) : InOrder (run step ({} : TaskQueue Addr) acts) :=
  run_invariant step_inOrder ⟨by simp, List.Pairwise.nil⟩ acts

omit [DecidableEq Addr] in
theorem legal_nothing_before {s : TaskQueue Addr} (h : InOrder s)
    (hlegal : Legal s.tasks s.runningTasks q) (hordered : q.task.ordered = true)
    (hexempt : q.task.taskType.exempt = true) : ∀ p ∈ s.tasks, q.call ≤ p.call := by
  have hhead := (hlegal.2 hordered).1
  have hbehind := h.behind
  cases htasks : s.tasks with
  | nil => simp
  | cons i rest =>
    rw [htasks] at hhead hbehind
    have hsame : i.same = q.same := by simpa using hhead
    have hcall : i.call = q.call := by simpa [Queued.same] using congrArg Queued.call hsame
    have htype : i.task.taskType = q.task.taskType := by
      simpa [Queued.same] using congrArg (fun p : Queued Addr => p.task.taskType) hsame
    refine forall_mem_cons.mpr ⟨hcall.ge, fun p hp => ?_⟩
    rw [← hcall]
    exact ((pairwise_cons.mp hbehind).1 p hp (htype ▸ hexempt)).le

/-- **Task queue discipline.**  After every run the limits hold.  A call of `processTasks` takes
no more than one entry out of the queue or of the running tasks while the node is in the network,
and out of it clears both; no more than one request is taken by the APS layer.  An ordered task
is tried only while no running task has the directly preceding id and, if it is of a type that is
never replaced, when no task queued before it is left. -/
theorem queue_discipline (acts : List (Action Addr)) (env : Surroundings Addr) :
    let s := run step ({} : TaskQueue Addr) acts
    let r := s.processTasks env
    (s.runningTasks.length ≤ maxBackgroundTasks ∧
      (∀ address, (onAirTo s.runningTasks address).length ≤ 2) ∧ s.tasks.length ≤ maxTasks) ∧
    r.requests.countP (fun m => m.2 = .success) ≤ 1 ∧
    ((s.tasks.length ≤ r.queue.tasks.length + 1 ∧ s.runningTasks.length ≤
        r.queue.runningTasks.length + 1 ∧
        (r.queue.tasks.length = s.tasks.length ∨ s.runningTasks.Sublist r.queue.runningTasks)) ∨
      (env.inNetwork = false ∧ r.queue.tasks = [] ∧ r.queue.runningTasks = [])) ∧
    ∀ m ∈ r.requests, m.1.task.ordered = true →
      (∀ j ∈ s.runningTasks, m.1.task.taskId ≠ j.taskId + 1) ∧
      (m.1.task.taskType.exempt = true → ∀ q ∈ s.tasks, m.1.call ≤ q.call) := by
  simp only
  have hbounded := queue_bounds acts
  have horder := queue_order acts
  refine ⟨⟨hbounded.running, hbounded.destination, hbounded.tasks⟩, ?_⟩
  obtain hcall | ⟨hout, hcleared⟩ := processTasks_step (run step {} acts) env
  · refine ⟨hcall.accepted, .inl ⟨hcall.removed, hcall.running.removed, hcall.either⟩, ?_⟩
    intro m hm hordered
    have hlegal := hcall.legal m hm
    exact ⟨(hlegal.2 hordered).2, legal_nothing_before horder hlegal hordered⟩
  · rw [hcleared]
    exact ⟨by simp, .inr ⟨hout, rfl, rfl⟩, by simp⟩

/-- A task to the node or the group with the address `dst` -/
def taskTo (taskType : TaskType) (mode : AddressMode) (dst : Nat) (ordered : Bool) : TaskItem Nat :=
  { taskType
    taskId := 1
    req :=
      { id := 1, dstAddressMode := mode, dstAddress := dst, dstEndpoint := 1, srcEndpoint := 1
        profileId := 0x0104, clusterId := 0x0006, txOptions := 0, radius := 0, sendDelay := 0
        asdu := [0x01, 0x01, 0x02], fireAndForget := false }
    zclFrame :=
      { frameControl := 0x01, manufacturerCode := 0, sequenceNumber := 1, commandId := 0x02
        payload := [] }
    ordered
    sendTime := 0
    lightNode := none }

def refusing (inNetwork : Bool) : Surroundings Nat :=
  { apsCtrl := true
    inNetwork
    channelChangeIdle := true
    idleTotalCounter := 10
    now := 1000
    gwGroup0 := 0xfff0
    gwGroupSendDelay := 50
    groupOf := fun _ => 1
    light := fun _ => { available := true, heard := true }
    answer := fun place => if place = 0 then .error else .success }

/-- The queue after a run of `addTask` calls, with one group known. -/
def queueOf (added : List (TaskItem Nat)) : TaskQueue Nat :=
  run step {} (.setGroups [{ address := 1, sendTime := 0 }] :: added.map (.addTask (refusing true)))

/-- Out of the network two entries are cleared at once; after a refused groupcast a second task is
handed over in the same call; and an ordered task that has replaced the first one is handed over
before the one that was queued before it. -/
theorem discipline_ends :
    ((queueOf [taskTo .sendOnOffToggle .nwk 1 false,
          taskTo .sendOnOffToggle .nwk 2 false]).tasks.length = 2 ∧
      ((queueOf [taskTo .sendOnOffToggle .nwk 1 false,
          taskTo .sendOnOffToggle .nwk 2 false]).processTasks (refusing false)).queue.tasks = []) ∧
    ((queueOf [taskTo .sendOnOffToggle .group 1 false,
        taskTo .sendOnOffToggle .nwk 2 false]).processTasks (refusing true)).requests.map
      (fun m => (m.1.call, m.2)) = [(0, .error), (1, .success)] ∧
    let r := (queueOf [taskTo .sendOnOffToggle .nwk 1 false, taskTo .sendOnOffToggle .nwk 2 false,
      taskTo .sendOnOffToggle .nwk 1 true]).processTasks (refusing true)
    r.requests.map (fun m => (m.1.call, m.1.task.ordered)) = [(2, true)] ∧
      r.queue.tasks.map (fun q => q.call) = [1] := by
  decide +kernel

end Tasks
end DeconzRest

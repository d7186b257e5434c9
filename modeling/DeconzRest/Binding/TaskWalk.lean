import DeconzRest.Binding.Tasks
import Mathlib.Data.List.Nodup
import Mathlib.Data.List.Forall2
import Mathlib.Algebra.BigOperators.Group.List.Basic

/-!
# What an event does to the queue

A walk passes some tasks (`Passes`) and ends at a task that it sends, removes or moves to the
end of the queue (`WalkEnds`), or behind the last one.  Where it ends is known before it starts
(`split`).  Responses and binding tables change nothing but the states of tasks (`Restates`).
`moves` says all that is used of the events.
-/

namespace DeconzRest
namespace BindingTasks

/-- The walk ends at a task, when it has counted so many active ones. -/
def endsAt (w : World) (active : Nat) (bt : BindingTask) : Bool :=
  match bt.state with
  | .idle => decide (active < maxActiveBindingTasks) && (w.sendBindRequest 0 bt).1
  | .inProgress => false
  | .finished => true
  | .check => (bt.waitCheck w).1

def counted (bt : BindingTask) : Nat :=
  if bt.state = .inProgress ∧ 0 < bt.timeout then 1 else 0

/-- The tasks that a walk passes, and those from the one on at which it ends -/
def split (w : World) : Nat → List BindingTask → List BindingTask × List BindingTask
  | _, [] => ([], [])
  | active, bt :: rest =>
    if endsAt w active bt then ([], bt :: rest)
    else (bt :: (split w (active + counted bt) rest).1, (split w (active + counted bt) rest).2)

/-- A task in progress that runs out of time and is tried once more -/
def Retried (w : World) (bt : BindingTask) : Prop :=
  bt.state = .inProgress ∧ bt.timeout < 1 ∧ 1 < bt.retries ∧ ∀ node, bt.restNode = some node →
    (w.restNode node).isAvailable = true

instance (w : World) (bt : BindingTask) : Decidable (Retried w bt) :=
  match h : bt.restNode with
  | none => decidable_of_iff (bt.state = .inProgress ∧ bt.timeout < 1 ∧ 1 < bt.retries)
      (by simp [Retried, h])
  | some node => decidable_of_iff (bt.state = .inProgress ∧ bt.timeout < 1 ∧ 1 < bt.retries ∧
      (w.restNode node).isAvailable = true) (by simp [Retried, h])

/-- What becomes of a task that the walk passes. -/
structure Passes (w : World) (bt bt' : BindingTask) : Prop where
  key : bt'.key = bt.key
  unfinished : bt.state ≠ .finished
  inProgress : bt'.state = .inProgress → counted bt = 1 ∧ bt'.zdpSeqNum = bt.zdpSeqNum
  check : bt'.state = .check → bt.state = .check
  idle : bt'.state = .idle → bt.state = .idle ∨ Retried w bt

/-- What becomes of the queue behind the tasks that were passed, and of the requests. -/
inductive WalkEnds (passed : List BindingTask) (log : List Request) :
    List BindingTask → List BindingTask → List Request → Prop where
  | all : WalkEnds passed log [] passed log
  | sent {bt bt' : BindingTask} {rest : List BindingTask} (idle : bt.state = .idle)
      (key : bt'.key = bt.key) (state : bt'.state = .inProgress) :
      WalkEnds passed log (bt :: rest) (passed ++ bt' :: rest)
        (log ++ [{ key := bt.key, zdpSeqNum := bt'.zdpSeqNum }])
  | erased {bt : BindingTask} {rest : List BindingTask} (finished : bt.state = .finished) :
      WalkEnds passed log (bt :: rest) (passed ++ rest) log
  | rotated {bt bt' : BindingTask} {rest : List BindingTask} (check : bt.state = .check)
      (key : bt'.key = bt.key) (state : bt'.state ≠ .inProgress) :
      WalkEnds passed log (bt :: rest) ((passed ++ bt' :: rest ++ [bt']).drop 1) log

/-! ## One task -/

variable {w : World} {bt : BindingTask}

theorem sendBindRequest_task (w : World) (zdpSeq : UInt8) (bt : BindingTask) :
    ∃ zdpSeqNum, (w.sendBindRequest zdpSeq bt).2.1 = { bt with zdpSeqNum } := by
  unfold World.sendBindRequest
  by_cases hctrl : w.apsCtrl = true
  · by_cases hready : w.ready bt.binding.srcAddress = true
    · by_cases hwrite : bt.binding.writeToStream = true
      · exact ⟨zdpSeq, by simp [hctrl, hready, hwrite]⟩
      · exact ⟨zdpSeq, by simp [hctrl, hready, hwrite]⟩
    · exact ⟨bt.zdpSeqNum, by simp [hctrl, hready]⟩
  · exact ⟨bt.zdpSeqNum, by simp [hctrl]⟩

theorem sendBindRequest_sent (w : World) (zdpSeq : UInt8) (bt : BindingTask) :
    (w.sendBindRequest zdpSeq bt).1 = (w.sendBindRequest 0 bt).1 := by
  unfold World.sendBindRequest
  by_cases hctrl : w.apsCtrl = true
  · by_cases hready : w.ready bt.binding.srcAddress = true
    · by_cases hwrite : bt.binding.writeToStream = true
      · simp [hctrl, hready, hwrite]
      · simp [hctrl, hready, hwrite]
    · simp [hctrl, hready]
  · simp [hctrl]

theorem counted_of_ne (h : bt.state ≠ .inProgress) : counted bt = 0 := by
  unfold counted
  rw [if_neg fun hactive => h hactive.1]

theorem passes_self (h : bt.state = .idle) : Passes w bt bt where
  key := rfl
  unfinished hstate := nomatch h.symm.trans hstate
  inProgress hstate := nomatch h.symm.trans hstate
  check hstate := nomatch h.symm.trans hstate
  idle _ := .inl h

theorem passes_sendFailed (h : bt.state = .idle) (zdpSeqNum : UInt8) :
    Passes w bt ({ bt with zdpSeqNum } : BindingTask).sendFailed := by
  have hopen : bt.state ≠ .finished := by rw [h]; exact nofun
  unfold BindingTask.sendFailed
  split
  · exact ⟨rfl, hopen, fun hstate => (nomatch h.symm.trans hstate),
      fun hstate => (nomatch h.symm.trans hstate), fun _ => .inl h⟩
  · exact ⟨rfl, hopen, nofun, nofun, nofun⟩

theorem waitResponse_key : (bt.waitResponse w).key = bt.key := by
  unfold BindingTask.waitResponse
  simp only
  split
  · split
    · split <;> rfl
    · rfl
  · rfl

theorem waitResponse_ne_check (h : bt.state = .inProgress) : (bt.waitResponse w).state ≠ .check := by
  unfold BindingTask.waitResponse
  simp only
  split
  · split
    · split <;> exact nofun
    · exact nofun
  · rw [h]
    exact nofun

theorem waitResponse_state (h : bt.state = .inProgress) :
    (bt.waitResponse w).state = .inProgress ↔ 0 < bt.timeout := by
  unfold BindingTask.waitResponse
  simp only
  by_cases htime : bt.timeout - 1 < 0
  · have hover : ¬ 0 < bt.timeout := by omega
    rw [if_pos htime]
    constructor
    · intro hstate
      split at hstate
      · split at hstate <;> cases hstate
      · cases hstate
    · exact fun hleft => absurd hleft hover
  · rw [if_neg htime]
    exact ⟨fun _ => by omega, fun _ => h⟩

theorem counted_inProgress (h : bt.state = .inProgress) :
    counted bt = if (bt.waitResponse w).state = .inProgress then 1 else 0 := by
  unfold counted
  by_cases htime : 0 < bt.timeout
  · rw [if_pos ⟨h, htime⟩, if_pos ((waitResponse_state h).mpr htime)]
  · rw [if_neg fun hactive => htime hactive.2,
      if_neg fun hstate => htime ((waitResponse_state h).mp hstate)]

theorem passes_waitResponse (h : bt.state = .inProgress) : Passes w bt (bt.waitResponse w) where
  key := waitResponse_key
  unfinished hstate := nomatch h.symm.trans hstate
  inProgress hstate := by
    refine ⟨by rw [counted_inProgress h, if_pos hstate], ?_⟩
    have htime := (waitResponse_state h).mp hstate
    unfold BindingTask.waitResponse
    simp only
    rw [if_neg (by omega)]
  check hstate := absurd hstate (waitResponse_ne_check h)
  idle hstate := by
    refine .inr ⟨h, ?_⟩
    unfold BindingTask.waitResponse at hstate
    simp only at hstate
    by_cases htime : bt.timeout - 1 < 0
    · rw [if_pos htime] at hstate
      by_cases hretries : bt.retries - 1 > 0
      · rw [if_pos hretries] at hstate
        refine ⟨by omega, by omega, ?_⟩
        intro node hnode
        by_contra havailable
        rw [if_pos (by simp [hnode, havailable])] at hstate
        cases hstate
      · rw [if_neg hretries] at hstate
        cases hstate
    · rw [if_neg htime] at hstate
      rw [h] at hstate
      cases hstate

theorem waitCheck_task (h : bt.state = .check) :
    (bt.waitCheck w).2.key = bt.key ∧ (bt.waitCheck w).2.state ≠ .inProgress ∧
      ((bt.waitCheck w).1 = false → (bt.waitCheck w).2.state ≠ .idle) := by
  unfold BindingTask.waitCheck
  simp only
  by_cases htime : bt.timeout - 1 < 0
  · rw [if_pos htime]
    cases bt.restNode with
    | none => exact ⟨rfl, nofun, nofun⟩
    | some node =>
      simp only
      by_cases hretries : bt.retries - 1 > 0
      · rw [if_pos hretries]
        refine ⟨rfl, ?_, nofun⟩
        simp only
        split <;> decide
      · rw [if_neg hretries]
        exact ⟨rfl, nofun, nofun⟩
  · rw [if_neg htime]
    refine ⟨rfl, ?_, ?_⟩
    · show bt.state ≠ .inProgress
      rw [h]
      decide
    · intro _
      show bt.state ≠ .idle
      rw [h]
      decide

theorem passes_waitCheck (h : bt.state = .check) (hstays : (bt.waitCheck w).1 = false) :
    Passes w bt (bt.waitCheck w).2 where
  key := (waitCheck_task h).1
  unfinished hstate := nomatch h.symm.trans hstate
  inProgress hstate := absurd hstate (waitCheck_task h).2.1
  check _ := h
  idle hstate := absurd hstate ((waitCheck_task h).2.2 hstays)

/-! ## The walk -/

/-- A walk passes the front part of the split and ends at the first task of its rest. -/
def WalksAs (w : World) (passed : List BindingTask) (active : Nat) (log : List Request)
    (todo : List BindingTask) (q : Queue) : Prop :=
  ∃ before, List.Forall₂ (Passes w) (split w active todo).1 before ∧
    WalkEnds (passed ++ before) log (split w active todo).2 q.bindingQueue q.sent

theorem walksAs_cons {passed rest : List BindingTask} {active active' : Nat} {log : List Request}
    {bt' : BindingTask} {q : Queue} (hgoes : endsAt w active bt = false)
    (hactive : active' = active + counted bt) (hpasses : Passes w bt bt')
    (hrest : WalksAs w (passed ++ [bt']) active' log rest q) :
    WalksAs w passed active log (bt :: rest) q := by
  obtain ⟨before, hbefore, hends⟩ := hrest
  rw [hactive] at hbefore hends
  refine ⟨bt' :: before, ?_, ?_⟩
  · unfold split
    rw [if_neg (by rw [hgoes]; exact Bool.false_ne_true)]
    exact List.Forall₂.cons hpasses hbefore
  · unfold split
    rw [if_neg (by rw [hgoes]; exact Bool.false_ne_true)]
    rw [List.append_assoc] at hends
    exact hends

theorem walksAs_end {passed rest : List BindingTask} {active : Nat} {log : List Request}
    {q : Queue} (hends : endsAt w active bt = true)
    (h : WalkEnds passed log (bt :: rest) q.bindingQueue q.sent) :
    WalksAs w passed active log (bt :: rest) q := by
  refine ⟨[], ?_, ?_⟩
  · unfold split
    rw [if_pos hends]
    exact List.Forall₂.nil
  · unfold split
    rw [if_pos hends, List.append_nil]
    exact h

theorem walk_spec (w : World) (todo passed : List BindingTask) (active : Nat) (q : Queue) :
    WalksAs w passed active q.sent todo (walk w passed active q todo) := by
  induction todo generalizing passed active q with
  | nil =>
    refine ⟨[], List.Forall₂.nil, ?_⟩
    rw [List.append_nil]
    exact WalkEnds.all
  | cons bt rest ih =>
    unfold walk
    cases hstate : bt.state with
    | idle =>
      have hnone : active = active + counted bt := by
        rw [counted_of_ne (by rw [hstate]; decide), Nat.add_zero]
      simp only
      by_cases hfull : active ≥ maxActiveBindingTasks
      · rw [if_pos hfull]
        refine walksAs_cons ?_ hnone (passes_self hstate) (ih (passed ++ [bt]) active q)
        unfold endsAt
        rw [hstate]
        simp only
        rw [decide_eq_false (Nat.not_lt.mpr hfull), Bool.false_and]
      · have hends : endsAt w active bt = (w.sendBindRequest q.zdpSeq bt).1 := by
          unfold endsAt
          rw [hstate]
          simp only
          rw [decide_eq_true (Nat.lt_of_not_le hfull), Bool.true_and,
            ← sendBindRequest_sent w q.zdpSeq bt]
        obtain ⟨zdpSeqNum, htask⟩ := sendBindRequest_task w q.zdpSeq bt
        rw [if_neg hfull, htask]
        cases hsent : (w.sendBindRequest q.zdpSeq bt).1 with
        | true =>
          rw [hsent] at hends
          exact walksAs_end hends (WalkEnds.sent hstate rfl rfl)
        | false =>
          rw [hsent] at hends
          exact walksAs_cons hends hnone (passes_sendFailed hstate zdpSeqNum)
            (ih _ active { q with zdpSeq := (w.sendBindRequest q.zdpSeq bt).2.2 })
    | inProgress =>
      have hcount : (if (bt.waitResponse w).state = .inProgress then active + 1 else active)
          = active + counted bt := by
        rw [counted_inProgress (w := w) hstate]
        split
        · rfl
        · rfl
      simp only
      refine walksAs_cons ?_ hcount (passes_waitResponse hstate) (ih _ _ q)
      unfold endsAt
      rw [hstate]
    | finished =>
      refine walksAs_end ?_ (WalkEnds.erased hstate)
      unfold endsAt
      rw [hstate]
    | check =>
      have hends : endsAt w active bt = (bt.waitCheck w).1 := by
        unfold endsAt
        rw [hstate]
      simp only
      cases hagain : (bt.waitCheck w).1 with
      | true =>
        rw [hagain] at hends
        rw [if_pos rfl]
        exact walksAs_end hends
          (WalkEnds.rotated hstate (waitCheck_task hstate).1 (waitCheck_task hstate).2.1)
      | false =>
        rw [hagain] at hends
        rw [if_neg Bool.false_ne_true]
        refine walksAs_cons hends ?_ (passes_waitCheck hstate hagain) (ih _ active q)
        rw [counted_of_ne (by rw [hstate]; decide), Nat.add_zero]

theorem split_append (w : World) (active : Nat) (todo : List BindingTask) :
    (split w active todo).1 ++ (split w active todo).2 = todo := by
  induction todo generalizing active with
  | nil => rfl
  | cons bt rest ih =>
    unfold split
    by_cases hends : endsAt w active bt = true
    · rw [if_pos hends]
      rfl
    · rw [if_neg hends]
      exact congrArg (bt :: ·) (ih (active + counted bt))

/-! ## Responses and tables -/

/-- Nothing but the state changes, a task is not found in progress or waiting for the table
unless it was so before, and a finished task stays finished. -/
structure Restates (bt bt' : BindingTask) : Prop where
  key : bt'.key = bt.key
  inProgress : bt'.state = .inProgress → bt' = bt
  check : bt'.state = .check → bt' = bt
  idle : bt'.state = .idle → bt.state = .idle ∨ bt.state = .check
  finished : bt.state = .finished → bt'.state = .finished

theorem Restates.refl (bt : BindingTask) : Restates bt bt :=
  ⟨rfl, fun _ => rfl, fun _ => rfl, .inl, id⟩

theorem Restates.trans {bt bt' bt'' : BindingTask} (h : Restates bt bt')
    (h' : Restates bt' bt'') : Restates bt bt'' where
  key := h'.key.trans h.key
  inProgress hstate := by
    have hlast := h'.inProgress hstate
    rw [hlast] at hstate ⊢
    exact h.inProgress hstate
  check hstate := by
    have hlast := h'.check hstate
    rw [hlast] at hstate ⊢
    exact h.check hstate
  idle hstate := by
    rcases h'.idle hstate with hidle | hcheck
    · exact h.idle hidle
    · rw [h.check hcheck] at hcheck
      exact .inr hcheck
  finished hstate := h'.finished (h.finished hstate)

theorem restates_answered (w : World) (clusterId : UInt16) (status : Nat) (bt : BindingTask) :
    Restates bt (bt.answered w clusterId status) := by
  unfold BindingTask.answered
  split
  · exact Restates.refl bt
  · exact ⟨rfl, nofun, nofun, nofun, fun _ => rfl⟩

theorem restates_listed (bt : BindingTask) : Restates bt bt.listed := by
  unfold BindingTask.listed
  split
  · exact ⟨rfl, nofun, nofun, nofun, fun _ => rfl⟩
  · split
    · rename_i hcheck
      exact ⟨rfl, nofun, nofun, fun _ => .inr hcheck.2, fun h => nomatch h.symm.trans hcheck.2⟩
    · exact Restates.refl bt

theorem restates_notListed (srcAddress : UInt64) (bt : BindingTask) :
    Restates bt (bt.notListed srcAddress) := by
  unfold BindingTask.notListed
  split
  · rename_i hcheck
    split
    · exact ⟨rfl, nofun, nofun, fun _ => .inr hcheck.1, fun h => nomatch h.symm.trans hcheck.1⟩
    · exact ⟨rfl, nofun, nofun, nofun, fun _ => rfl⟩
  · exact Restates.refl bt

theorem exists_of_forall₂ {R : BindingTask → BindingTask → Prop} {tasks tasks' : List BindingTask}
    (h : List.Forall₂ R tasks tasks') {bt' : BindingTask} (hbt' : bt' ∈ tasks') :
    ∃ bt ∈ tasks, R bt bt' := by
  induction h with
  | nil => cases hbt'
  | cons hfirst _ ih =>
    rcases List.mem_cons.mp hbt' with rfl | hrest
    · exact ⟨_, List.mem_cons_self, hfirst⟩
    · obtain ⟨bt, hbt, hrelated⟩ := ih hrest
      exact ⟨bt, List.mem_cons_of_mem _ hbt, hrelated⟩

theorem forall₂_restates_refl (tasks : List BindingTask) : List.Forall₂ Restates tasks tasks :=
  List.forall₂_same.mpr fun bt _ => Restates.refl bt

theorem forall₂_restates_trans {tasks tasks' tasks'' : List BindingTask}
    (h : List.Forall₂ Restates tasks tasks') (h' : List.Forall₂ Restates tasks' tasks'') :
    List.Forall₂ Restates tasks tasks'' := by
  induction h generalizing tasks'' with
  | nil => exact h'
  | cons hfirst _ ih =>
    cases h' with
    | cons hfirst' hrest' => exact .cons (hfirst.trans hfirst') (ih hrest')

theorem restates_changeFirst {sought : BindingTask → Bool} {change : BindingTask → BindingTask}
    (h : ∀ bt, Restates bt (change bt)) (tasks : List BindingTask) :
    List.Forall₂ Restates tasks (changeFirst sought change tasks) := by
  induction tasks with
  | nil => exact .nil
  | cons bt rest ih =>
    unfold changeFirst
    split
    · exact .cons (h bt) (forall₂_restates_refl rest)
    · exact .cons (Restates.refl bt) ih

theorem restates_bindings (bindings : List Binding) (tasks : List BindingTask) :
    List.Forall₂ Restates tasks (bindings.foldl
      (fun tasks bnd => changeFirst (fun bt => bt.binding = bnd) BindingTask.listed tasks)
      tasks) := by
  induction bindings generalizing tasks with
  | nil => exact forall₂_restates_refl tasks
  | cons bnd bindings ih =>
    exact forall₂_restates_trans (restates_changeFirst restates_listed tasks) (ih _)

theorem restates_tableEnd (srcAddress : UInt64) {tasks tasks' : List BindingTask}
    (h : List.Forall₂ Restates tasks tasks') :
    List.Forall₂ Restates tasks (tasks'.map (BindingTask.notListed srcAddress)) := by
  refine forall₂_restates_trans h ?_
  rw [List.forall₂_map_right_iff]
  exact List.forall₂_same.mpr fun bt _ => restates_notListed srcAddress bt

inductive Moves (q q' : Queue) : Event → Prop where
  | restated {e : Event} (tasks : List.Forall₂ Restates q.bindingQueue q'.bindingQueue)
      (sent : q'.sent = q.sent) : Moves q q' e
  | queued {w : World} {new : NewTask}
      (absent : new.task.key ∉ q.bindingQueue.map BindingTask.key)
      (tasks : q'.bindingQueue = q.bindingQueue ++ [new.task]) (sent : q'.sent = q.sent) :
      Moves q q' (.queueBindingTask w new)
  | cleared {w : World} (inactive : w.pluginActive = false) (tasks : q'.bindingQueue = [])
      (sent : q'.sent = q.sent) : Moves q q' (.bindingTimerFired w)
  | walked {w : World} (walks : WalksAs w [] 0 q.sent q.bindingQueue q') :
      Moves q q' (.bindingTimerFired w)

theorem moves_same {q q' : Queue} (e : Event) (tasks : q'.bindingQueue = q.bindingQueue)
    (sent : q'.sent = q.sent) : Moves q q' e := by
  refine .restated ?_ sent
  rw [tasks]
  exact forall₂_restates_refl q.bindingQueue

theorem any_key {tasks : List BindingTask} {bt : BindingTask} :
    (tasks.any fun b => b.key = bt.key) = true ↔ bt.key ∈ tasks.map BindingTask.key := by
  simp [List.any_eq_true]

theorem moves_queueBindingTask (q : Queue) (w : World) (new : NewTask) :
    Moves q (q.queueBindingTask w new.task).2 (.queueBindingTask w new) := by
  unfold Queue.queueBindingTask
  by_cases hnetwork : (!w.apsCtrl || !w.inNetwork) = true
  · rw [if_pos hnetwork]
    exact moves_same _ rfl rfl
  · rw [if_neg hnetwork]
    by_cases hpresent : (q.bindingQueue.any fun b => b.key = new.task.key) = true
    · rw [if_pos hpresent]
      exact moves_same _ rfl rfl
    · rw [if_neg hpresent]
      exact .queued (fun hmem => hpresent (any_key.mpr hmem)) rfl rfl

theorem moves_bindingTimerFired (q : Queue) (w : World) :
    Moves q (q.bindingTimerFired w) (.bindingTimerFired w) := by
  unfold Queue.bindingTimerFired
  split
  · exact moves_same _ rfl rfl
  · split
    · rename_i hinactive
      exact .cleared (by simpa using hinactive) rfl rfl
    · exact .walked (walk_spec w q.bindingQueue [] 0 q)

theorem moves_bindAndUnbindRsp (q : Queue) (w : World) (ind : Indication) :
    Moves q (q.handleBindAndUnbindRspIndication w ind) (.bindAndUnbindRsp w ind) := by
  unfold Queue.handleBindAndUnbindRspIndication
  split
  · exact moves_same _ rfl rfl
  · exact .restated (restates_changeFirst (restates_answered w ind.clusterId _) _) rfl

theorem moves_mgmtBindRsp (q : Queue) (w : World) (ind : Indication) :
    Moves q (q.handleMgmtBindRspIndication w ind) (.mgmtBindRsp w ind) := by
  unfold Queue.handleMgmtBindRspIndication
  simp only
  split
  · exact moves_same _ rfl rfl
  split
  · exact moves_same _ rfl rfl
  split
  · exact moves_same _ rfl rfl
  split
  · exact .restated (restates_bindings _ _) rfl
  · exact .restated (restates_tableEnd ind.srcAddress (restates_bindings _ _)) rfl

theorem moves (q : Queue) (e : Event) : Moves q (step q e) e := by
  cases e with
  | queueBindingTask w new => exact moves_queueBindingTask q w new
  | bindingTimerFired w => exact moves_bindingTimerFired q w
  | bindAndUnbindRsp w ind => exact moves_bindAndUnbindRsp q w ind
  | mgmtBindRsp w ind => exact moves_mgmtBindRsp q w ind
  | nextSequenceNumber => exact moves_same _ rfl rfl

end BindingTasks
end DeconzRest

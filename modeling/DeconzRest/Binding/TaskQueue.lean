import DeconzRest.Binding.TaskWalk

/-!
# Binding tasks are neither lost nor repeated

A walk counts the active tasks up to the one it sends, and a task that waits for the binding
table goes to the end of the queue while the front of the queue is taken away.  Where the tasks
behind leave room for one more (`SendsWithin`) and the task that goes to the end is the front
(`RotatesFront`), no two tasks are equal, at most three are in progress (`Valid`), and a task
stays until it is finished (`queue_loses_nothing`).
-/

namespace DeconzRest
namespace BindingTasks

open Transition List

def keys (tasks : List BindingTask) : List (Action × Binding) := tasks.map BindingTask.key

def inProgress (tasks : List BindingTask) : Nat := tasks.countP fun bt => bt.state = .inProgress

/-- No two tasks are equal, and the limit of active tasks is kept. -/
structure Valid (q : Queue) : Prop where
  distinct : (keys q.bindingQueue).Nodup
  active : inProgress q.bindingQueue ≤ maxActiveBindingTasks

/-- A task that goes to the end of the queue is its front. -/
def RotatesFront (w : World) (tasks : List BindingTask) : Prop :=
  ∀ bt ∈ (split w 0 tasks).2.head?, bt.state = .check → (split w 0 tasks).1 = []

/-- When a task is sent, fewer than three others are in progress, those behind it included. -/
def SendsWithin (w : World) (tasks : List BindingTask) : Prop :=
  ∀ bt ∈ (split w 0 tasks).2.head?, bt.state = .idle → ((split w 0 tasks).1.map counted).sum +
    inProgress (split w 0 tasks).2.tail < maxActiveBindingTasks

/-- The condition on a tick; an inactive plugin clears the queue. -/
def Orderly (q : Queue) : Event → Prop
  | .bindingTimerFired w =>
    (w.pluginActive = true ∨ ∀ bt ∈ q.bindingQueue, bt.state = .finished) ∧
      RotatesFront w q.bindingQueue ∧ SendsWithin w q.bindingQueue
  | _ => True

instance (w : World) (tasks : List BindingTask) : Decidable (RotatesFront w tasks) :=
  inferInstanceAs (Decidable (∀ bt ∈ (split w 0 tasks).2.head?, _))

instance (w : World) (tasks : List BindingTask) : Decidable (SendsWithin w tasks) :=
  inferInstanceAs (Decidable (∀ bt ∈ (split w 0 tasks).2.head?, _))

instance (q : Queue) : (e : Event) → Decidable (Orderly q e)
  | .bindingTimerFired _ => inferInstanceAs (Decidable (_ ∧ _))
  | .queueBindingTask _ _ | .bindAndUnbindRsp _ _ | .mgmtBindRsp _ _ | .nextSequenceNumber =>
    inferInstanceAs (Decidable True)

@[simp] theorem keys_append (tasks tasks' : List BindingTask) :
    keys (tasks ++ tasks') = keys tasks ++ keys tasks' := map_append

variable (bt : BindingTask)

@[simp] theorem keys_cons (tasks : List BindingTask) :
    keys (bt :: tasks) = bt.key :: keys tasks := rfl

@[simp] theorem keys_nil : keys [] = [] := rfl

@[simp] theorem inProgress_append (tasks tasks' : List BindingTask) :
    inProgress (tasks ++ tasks') = inProgress tasks + inProgress tasks' := countP_append

@[simp] theorem inProgress_nil : inProgress [] = 0 := rfl

theorem inProgress_cons (tasks : List BindingTask) :
    inProgress (bt :: tasks) = inProgress tasks + if bt.state = .inProgress then 1 else 0 := by
  unfold inProgress
  rw [countP_cons]
  simp

theorem inProgress_cons_of_ne {bt : BindingTask} (h : bt.state ≠ .inProgress)
    (tasks : List BindingTask) : inProgress (bt :: tasks) = inProgress tasks := by
  rw [inProgress_cons, if_neg h, Nat.add_zero]

theorem le_inProgress_cons (tasks : List BindingTask) :
    inProgress tasks ≤ inProgress (bt :: tasks) := by
  rw [inProgress_cons]
  exact Nat.le_add_right _ _

variable {tasks tasks' : List BindingTask}

theorem keys_of_forall₂ {R : BindingTask → BindingTask → Prop}
    (hkey : ∀ bt bt', R bt bt' → bt'.key = bt.key) (h : List.Forall₂ R tasks tasks') :
    keys tasks' = keys tasks := by
  induction h with
  | nil => rfl
  | cons hfirst _ ih => rw [keys_cons, keys_cons, ih, hkey _ _ hfirst]

theorem keys_of_restates (h : List.Forall₂ Restates tasks tasks') : keys tasks' = keys tasks :=
  keys_of_forall₂ (fun _ _ hrestates => hrestates.key) h

theorem keys_of_passes {w : World} (h : List.Forall₂ (Passes w) tasks tasks') :
    keys tasks' = keys tasks :=
  keys_of_forall₂ (fun _ _ hpasses => hpasses.key) h

theorem inProgress_of_restates (h : List.Forall₂ Restates tasks tasks') :
    inProgress tasks' ≤ inProgress tasks := by
  induction h with
  | nil => exact Nat.le_refl _
  | @cons bt bt' rest rest' hfirst _ ih =>
    by_cases hstate : bt'.state = .inProgress
    · have hsame := hfirst.inProgress hstate
      rw [hsame, inProgress_cons, inProgress_cons]
      omega
    · rw [inProgress_cons_of_ne hstate]
      exact Nat.le_trans ih (le_inProgress_cons bt rest)

theorem inProgress_of_passes {w : World} (h : List.Forall₂ (Passes w) tasks tasks') :
    inProgress tasks' ≤ (tasks.map counted).sum := by
  induction h with
  | nil => exact Nat.le_refl _
  | @cons bt bt' rest rest' hfirst _ ih =>
    rw [map_cons, sum_cons, inProgress_cons]
    by_cases hstate : bt'.state = .inProgress
    · rw [if_pos hstate, (hfirst.inProgress hstate).1]
      omega
    · rw [if_neg hstate]
      omega

theorem sum_counted_le (tasks : List BindingTask) : (tasks.map counted).sum ≤ inProgress tasks := by
  induction tasks with
  | nil => exact Nat.le_refl _
  | cons bt rest ih =>
    rw [map_cons, sum_cons, inProgress_cons]
    have hone : counted bt ≤ if bt.state = .inProgress then 1 else 0 := by
      unfold counted
      by_cases hactive : bt.state = .inProgress ∧ 0 < bt.timeout
      · rw [if_pos hactive, if_pos hactive.1]
      · rw [if_neg hactive]
        exact Nat.zero_le _
    omega

/-! ## One event -/

variable {q q' : Queue} {w : World} {e : Event}

theorem walksAs_keys (h : WalksAs w [] 0 q.sent q.bindingQueue q')
    (hfront : RotatesFront w q.bindingQueue) :
    (keys q'.bindingQueue).Perm (keys q.bindingQueue) ∨ ∃ before bt rest, q.bindingQueue = before ++
      bt :: rest ∧ bt.state = .finished ∧ keys q'.bindingQueue = keys before ++ keys rest := by
  obtain ⟨before, hbefore, hends⟩ := h
  have hsplit := split_append w 0 q.bindingQueue
  have hkeys := keys_of_passes hbefore
  unfold RotatesFront at hfront
  generalize (split w 0 q.bindingQueue).1 = front at *
  generalize (split w 0 q.bindingQueue).2 = back at *
  generalize q'.bindingQueue = tasks at *
  generalize q'.sent = sent at *
  rw [← hsplit, nil_append] at *
  cases hends with
  | all => exact .inl (by simp [hkeys])
  | sent hidle hkey hstate => exact .inl (by simp [hkeys, hkey])
  | erased hfinished => exact .inr ⟨front, _, _, rfl, hfinished, by simp [hkeys]⟩
  | @rotated bt bt' rest hcheck hkey hstate =>
    -- nothing stands in front of the task, so that it is taken away itself
    have hnone : front = [] := hfront bt rfl hcheck
    rw [hnone] at hbefore
    cases hbefore
    rw [hnone]
    refine .inl ?_
    simp only [nil_append, cons_append, drop_succ_cons, drop_zero, keys_append, keys_cons, keys_nil,
      hkey]
    exact perm_append_singleton _ _

theorem walksAs_active (h : WalksAs w [] 0 q.sent q.bindingQueue q')
    (hsend : SendsWithin w q.bindingQueue)
    (hactive : inProgress q.bindingQueue ≤ maxActiveBindingTasks) :
    inProgress q'.bindingQueue ≤ maxActiveBindingTasks := by
  obtain ⟨before, hbefore, hends⟩ := h
  have hsplit := split_append w 0 q.bindingQueue
  have hpassed := inProgress_of_passes hbefore
  unfold SendsWithin at hsend
  generalize (split w 0 q.bindingQueue).1 = front at *
  generalize (split w 0 q.bindingQueue).2 = back at *
  generalize q'.bindingQueue = tasks at *
  generalize q'.sent = sent at *
  rw [← hsplit, inProgress_append] at hactive
  rw [nil_append] at hends
  have hcounted := sum_counted_le front
  cases hends with
  | all =>
    rw [inProgress_nil] at hactive
    omega
  | @sent bt bt' rest hidle hkey hstate =>
    have hroom := hsend bt rfl hidle
    rw [tail_cons] at hroom
    rw [inProgress_append, inProgress_cons, if_pos hstate]
    omega
  | @erased bt rest hfinished =>
    have hrest := le_inProgress_cons bt rest
    rw [inProgress_append]
    omega
  | @rotated bt bt' rest hcheck hkey hstate =>
    have hrest := le_inProgress_cons bt rest
    have hdrop : inProgress ((before ++ bt' :: rest ++ [bt']).drop 1) ≤
        inProgress (before ++ bt' :: rest ++ [bt']) :=
      List.Sublist.countP_le (drop_sublist 1 _)
    rw [inProgress_append, inProgress_append, inProgress_cons_of_ne hstate,
      inProgress_cons_of_ne hstate, inProgress_nil] at hdrop
    omega

theorem valid_of_nil (h : q.bindingQueue = []) : Valid q := by
  constructor
  · rw [h]
    exact nodup_nil
  · rw [h]
    exact Nat.zero_le _

variable (q : Queue)

theorem distinct_step (e : Event)
    (hfront : ∀ w, e = .bindingTimerFired w → RotatesFront w q.bindingQueue)
    (h : (keys q.bindingQueue).Nodup) : (keys (step q e).bindingQueue).Nodup := by
  cases moves q e with
  | restated htasks =>
    rw [keys_of_restates htasks]
    exact h
  | queued habsent htasks =>
    rw [htasks, keys_append, keys_cons, keys_nil, nodup_append]
    refine ⟨h, nodup_singleton _, ?_⟩
    intro k hk k' hk' hsame
    rw [mem_singleton.mp hk'] at hsame
    exact habsent (hsame ▸ hk)
  | cleared _ htasks =>
    rw [htasks]
    exact nodup_nil
  | @walked w hwalks =>
    rcases walksAs_keys hwalks (hfront w rfl) with hperm | ⟨before, bt, rest, hsplit, _, hkeys⟩
    · exact hperm.nodup_iff.mpr h
    · rw [hsplit, keys_append, keys_cons] at h
      rw [hkeys]
      exact h.sublist ((sublist_cons_self _ _).append_left _)

theorem active_step (e : Event) (horderly : Orderly q e)
    (h : inProgress q.bindingQueue ≤ maxActiveBindingTasks) :
    inProgress (step q e).bindingQueue ≤ maxActiveBindingTasks := by
  cases moves q e with
  | restated htasks => exact Nat.le_trans (inProgress_of_restates htasks) h
  | @queued w new habsent htasks =>
    rw [htasks, inProgress_append, inProgress_cons_of_ne new.state]
    exact h
  | cleared _ htasks =>
    rw [htasks]
    exact Nat.zero_le _
  | walked hwalks => exact walksAs_active hwalks horderly.2.2 h

theorem valid_step (e : Event) (horderly : Orderly q e) (h : Valid q) : Valid (step q e) := by
  refine ⟨distinct_step q e ?_ h.distinct, active_step q e horderly h.active⟩
  intro w htick
  rw [htick] at horderly
  exact horderly.2.1

theorem key_stays (e : Event) (horderly : Orderly q e) {k : Action × Binding}
    (hk : k ∈ keys q.bindingQueue)
    (hopen : ∀ bt ∈ q.bindingQueue, bt.key = k → bt.state ≠ .finished) :
    k ∈ keys (step q e).bindingQueue := by
  cases moves q e with
  | restated htasks =>
    rw [keys_of_restates htasks]
    exact hk
  | queued habsent htasks =>
    rw [htasks, keys_append]
    exact mem_append_left _ hk
  | cleared hinactive htasks =>
    -- an inactive plugin clears a queue of finished tasks only
    obtain ⟨bt, hbt, hkey⟩ := mem_map.mp hk
    rcases horderly.1 with hactive | hfinished
    · rw [hinactive] at hactive
      cases hactive
    · exact absurd (hfinished bt hbt) (hopen bt hbt hkey)
  | walked hwalks =>
    rcases walksAs_keys hwalks horderly.2.1 with
      hperm | ⟨before, bt, rest, hsplit, hfinished, hkeys⟩
    · exact hperm.mem_iff.mpr hk
    · have hother : k ≠ bt.key := by
        intro hsame
        exact hopen bt (by rw [hsplit]; simp) hsame.symm hfinished
      rw [hsplit, keys_append, keys_cons] at hk
      rw [hkeys]
      rcases mem_append.mp hk with hbefore | hrest
      · exact mem_append_left _ hbefore
      · exact mem_append_right _ ((mem_cons.mp hrest).resolve_left hother)

theorem queueBindingTask_mem (w : World) (new : NewTask) (hctrl : w.apsCtrl = true)
    (hnetwork : w.inNetwork = true) :
    new.task.key ∈ keys (step q (.queueBindingTask w new)).bindingQueue := by
  show new.task.key ∈ keys (q.queueBindingTask w new.task).2.bindingQueue
  unfold Queue.queueBindingTask
  rw [hctrl, hnetwork, if_neg (by decide)]
  split
  · rename_i hpresent
    exact any_key.mp hpresent
  · simp

/-- The queue before the `n`-th event of a run -/
def queueAt (start : Queue) (events : List Event) (n : Nat) : List BindingTask :=
  (stateAt step start events n).bindingQueue

/-- A task that is queued is in the queue exactly once until it is finished. -/
def Kept (start : Queue) (events : List Event) : Prop :=
  ∀ k w new, events[k]? = some (.queueBindingTask w new) → w.apsCtrl = true → w.inNetwork = true →
    ∀ n, k < n → n ≤ events.length → (keys (queueAt start events n)).count new.task.key =
      1 ∨ ∃ m, k < m ∧ m < n ∧ ∃ bt ∈
        queueAt start events m, bt.key = new.task.key ∧ bt.state = .finished

def LosesNothing (start : Queue) (events : List Event) : Prop :=
  (∀ n ≤ events.length, Valid (stateAt step start events n)) ∧ Kept start events

theorem valid_run {start : Queue} {events : List Event} (hstart : start.bindingQueue = [])
    (hall : AllSteps step Orderly start events) :
    ∀ n ≤ events.length, Valid (stateAt step start events n) := by
  refine stateAt_induction (valid_of_nil hstart) ?_
  intro k hk hvalid
  exact valid_step _ _ (hall k hk) hvalid

theorem count_of_mem {tasks : List BindingTask} (hdistinct : (keys tasks).Nodup)
    {k : Action × Binding} (h : k ∈ keys tasks) : (keys tasks).count k = 1 :=
  count_eq_one_of_mem hdistinct h

theorem kept_run {start : Queue} {events : List Event} (hstart : start.bindingQueue = [])
    (hall : AllSteps step Orderly start events) : Kept start events := by
  intro k w new hevent hctrl hnetwork
  obtain ⟨hk, hevent⟩ := List.getElem?_eq_some_iff.mp hevent
  have hvalid := valid_run hstart hall
  intro n hkn
  -- the induction is on the events after the one that queues the task
  induction n, hkn using Nat.le_induction with
  | base =>
    intro hn
    refine .inl (count_of_mem (hvalid (k + 1) hn).distinct ?_)
    rw [stateAt_succ step start events hk, hevent]
    exact queueBindingTask_mem _ w new hctrl hnetwork
  | succ n hkn ih =>
    intro hn
    rcases ih (by omega) with hcount | ⟨m, hkm, hmn, hfinished⟩
    · by_cases hdone : ∃ bt ∈ queueAt start events n, bt.key = new.task.key ∧ bt.state = .finished
      · exact .inr ⟨n, by omega, by omega, hdone⟩
      · refine .inl (count_of_mem (hvalid (n + 1) hn).distinct ?_)
        rw [stateAt_succ step start events hn]
        refine key_stays _ _ (hall n hn) ?_ ?_
        · exact count_pos_iff.mp (by rw [← queueAt, hcount]; decide)
        · intro bt hbt hkey hfinished
          exact hdone ⟨bt, hbt, hkey, hfinished⟩
    · exact .inr ⟨m, hkm, by omega, hfinished⟩

theorem queue_loses_nothing {start : Queue} {events : List Event}
    (hstart : start.bindingQueue = []) (hall : AllSteps step Orderly start events) :
    LosesNothing start events :=
  ⟨valid_run hstart hall, kept_run hstart hall⟩

def twoDevices : World where
  restNode _ := { isAvailable := true, mgmtBindSupported := true, receiverOnWhenIdle := some true }
  apsdeDataRequest _ _ := true
  configureReporting _ _ := true

def onOffTask (device : UInt64) (state : State) : BindingTask where
  action := .bind
  state := state
  zdpSeqNum := 0
  timeout := timeout
  retries := 2
  restNode := some device.toNat
  binding :=
    { srcAddress := device
      dstAddress := 0x00212effff000001
      clusterId := 6
      dstAddrMode := extendedAddressMode
      srcEndpoint := 1
      dstEndpoint := 1 }

/-- One task is sent; another one waits for the binding table and goes to the end of the queue
twenty-one seconds later. -/
def oneWaits : List Event :=
  [.queueBindingTask twoDevices ⟨onOffTask 1 .idle, by decide⟩,
    .queueBindingTask twoDevices ⟨onOffTask 2 .check, by decide⟩] ++
    List.replicate 22 (.bindingTimerFired twoDevices)

/-- The first task was dropped, the other one is in the queue twice. -/
theorem oneWaits_lost : ¬ LosesNothing { zdpSeq := 0 } oneWaits := by
  intro h
  have hkept := h.2 0 twoDevices ⟨onOffTask 1 .idle, by decide⟩ rfl rfl rfl 24 (by decide)
    (by decide)
  have hgone : (keys (queueAt { zdpSeq := 0 } oneWaits 24)).count (onOffTask 1 .idle).key = 0 := by
    decide +kernel
  have hopen : ∀ m < 24, ∀ bt ∈ queueAt { zdpSeq := 0 } oneWaits m, bt.key =
      (onOffTask 1 .idle).key → bt.state ≠ .finished := by
    decide +kernel
  rcases hkept with hcount | ⟨m, _, hm, bt, hbt, hkey, hfinished⟩
  · rw [hgone] at hcount
    cases hcount
  · exact hopen m hm bt hbt hkey hfinished

theorem queue_loses_nothing_twoTasks : LosesNothing { zdpSeq := 0 } (oneWaits.take 22) :=
  queue_loses_nothing rfl (by unfold AllSteps; decide +kernel)

end BindingTasks
end DeconzRest

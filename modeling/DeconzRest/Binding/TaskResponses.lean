import DeconzRest.Binding.TaskQueue

/-!
# Bind responses and the tasks they are for

A response is taken for the first task with its sequence number, whatever device it comes from
and whatever became of the task since.  A successful bind response that is followed by a
configure reporting request leaves the task in progress, so that it is sent again when its time
is over.  `responses_right` says what holds where neither happens.
-/

namespace DeconzRest
namespace BindingTasks

open Transition List

def Indication.zdpSeqNum (ind : Indication) : UInt8 := .ofNat (readNumber 1 ind.asdu).1

def Indication.status (ind : Indication) : Nat := (readNumber 1 (readNumber 1 ind.asdu).2).1

def Action.rspClid : Action → UInt16
  | .bind => bindRspClid
  | .unbind => unbindRspClid

/-- The sequence number of the last request for a task -/
def lastSent (sent : List Request) (k : Action × Binding) : Option UInt8 :=
  (sent.reverse.find? fun r => r.key = k).map (·.zdpSeqNum)

def requestsFor (k : Action × Binding) (sent : List Request) : List Request :=
  sent.filter fun r => r.key = k

/-- The response is the one to the last request for a task in progress. -/
structure Answers (q : Queue) (ind : Indication) (bt : BindingTask) : Prop where
  source : ind.srcAddress = bt.binding.srcAddress
  zdpSeqNum : lastSent q.sent bt.key = some ind.zdpSeqNum
  kind : ind.clusterId = bt.action.rspClid
  inProgress : bt.state = .inProgress

/-- The task that a response is taken for -/
def addressee (q : Queue) (ind : Indication) : Option BindingTask :=
  q.bindingQueue.find? fun bt => bt.zdpSeqNum = ind.zdpSeqNum

/-- The task that a response is taken for is finished already, or is left alone, or it waits for
a response of this kind from this device. -/
def TakenRightly (q : Queue) (w : World) (ind : Indication) : Prop :=
  w.managed ind.srcAddress = some true ∨ ∀ bt ∈ addressee q ind, bt.state = .finished ∨
    (ind.status = 0 ∧ ind.clusterId = bindRspClid ∧ w.sendConfigureReportingRequest bt = true) ∨
    (ind.srcAddress = bt.binding.srcAddress ∧ ind.clusterId = bt.action.rspClid ∧ bt.state =
      .inProgress)

/-- The condition on an event; a tick takes no task twice into the queue. -/
def Addressed (q : Queue) : Event → Prop
  | .bindAndUnbindRsp w ind => TakenRightly q w ind
  | .bindingTimerFired w => RotatesFront w q.bindingQueue
  | _ => True

instance (q : Queue) (w : World) (ind : Indication) : Decidable (TakenRightly q w ind) :=
  inferInstanceAs (Decidable (_ ∨ ∀ bt ∈ addressee q ind, _))

instance (q : Queue) : (e : Event) → Decidable (Addressed q e)
  | .bindAndUnbindRsp w ind => inferInstanceAs (Decidable (TakenRightly q w ind))
  | .bindingTimerFired w => inferInstanceAs (Decidable (RotatesFront w q.bindingQueue))
  | .queueBindingTask _ _ | .mgmtBindRsp _ _ | .nextSequenceNumber =>
    inferInstanceAs (Decidable True)

/-! ## What is known of tasks in progress -/

/-- No two tasks are equal, and a task in progress has the number of its last request. -/
structure Noted (q : Queue) : Prop where
  distinct : (keys q.bindingQueue).Nodup
  lastSent : ∀ bt ∈ q.bindingQueue, bt.state = .inProgress → lastSent q.sent bt.key =
    some bt.zdpSeqNum

theorem lastSent_concat (sent : List Request) (r : Request) (k : Action × Binding) :
    lastSent (sent ++ [r]) k = if r.key = k then some r.zdpSeqNum else lastSent sent k := by
  unfold lastSent
  rw [reverse_append, reverse_singleton, singleton_append, List.find?_cons]
  by_cases hkey : r.key = k
  · simp [hkey]
  · simp [hkey]

variable {tasks : List BindingTask}

theorem eq_of_key (hdistinct : (keys tasks).Nodup) {bt bt' : BindingTask} (h : bt ∈ tasks)
    (h' : bt' ∈ tasks) (hkey : bt.key = bt'.key) :
    bt = bt' :=
  inj_on_of_nodup_map hdistinct h h' hkey

variable {q q' : Queue} {w : World} {ind : Indication}

theorem walksAs_mem (h : WalksAs w [] 0 q.sent q.bindingQueue q') {bt' : BindingTask}
    (hbt' : bt' ∈ q'.bindingQueue) :
    (∃ bt ∈ (split w 0 q.bindingQueue).1, Passes w bt bt') ∨ bt' ∈ (split w 0 q.bindingQueue).2 ∨
      (∃ bt ∈ q.bindingQueue, bt'.key = bt.key ∧ bt.state = .check ∧ bt'.state ≠ .inProgress) ∨
      (∃ bt ∈ q.bindingQueue, bt'.key = bt.key ∧ bt.state = .idle ∧ bt'.state = .inProgress ∧
        q'.sent = q.sent ++ [{ key := bt'.key, zdpSeqNum := bt'.zdpSeqNum }]) := by
  obtain ⟨before, hbefore, hends⟩ := h
  have hsplit := split_append w 0 q.bindingQueue
  generalize (split w 0 q.bindingQueue).1 = front at *
  generalize (split w 0 q.bindingQueue).2 = back at *
  generalize q'.bindingQueue = tasks at *
  generalize q'.sent = sent at *
  rw [nil_append] at hends
  rw [← hsplit]
  have hpassed : bt' ∈ before → ∃ bt ∈ front, Passes w bt bt' := exists_of_forall₂ hbefore
  cases hends with
  | all => exact .inl (hpassed hbt')
  | @sent bt bt₁ rest hidle hkey hstate =>
    rcases mem_append.mp hbt' with hmem | hmem
    · exact .inl (hpassed hmem)
    rcases mem_cons.mp hmem with rfl | hrest
    · exact .inr (.inr (.inr ⟨bt, by simp, hkey, hidle, hstate, by rw [hkey]⟩))
    · exact .inr (.inl (mem_cons_of_mem bt hrest))
  | @erased bt rest hfinished =>
    rcases mem_append.mp hbt' with hmem | hrest
    · exact .inl (hpassed hmem)
    · exact .inr (.inl (mem_cons_of_mem bt hrest))
  | @rotated bt bt₁ rest hcheck hkey hstate =>
    have hrotated : bt' = bt₁ → (∃ b ∈ front ++ bt :: rest, bt'.key = b.key ∧ b.state = .check ∧
        bt'.state ≠ .inProgress) := by
      rintro rfl
      exact ⟨bt, by simp, hkey, hcheck, hstate⟩
    rcases mem_append.mp (mem_of_mem_drop hbt') with hmem | hlast
    · rcases mem_append.mp hmem with hmem | hmem
      · exact .inl (hpassed hmem)
      rcases mem_cons.mp hmem with hsame | hrest
      · exact .inr (.inr (.inl (hrotated hsame)))
      · exact .inr (.inl (mem_cons_of_mem bt hrest))
    · exact .inr (.inr (.inl (hrotated (mem_singleton.mp hlast))))

theorem walksAs_sent (h : WalksAs w [] 0 q.sent q.bindingQueue q') :
    q'.sent = q.sent ∨ ∃ bt ∈ q.bindingQueue, bt.state = .idle ∧ ∃ zdpSeqNum, q'.sent = q.sent ++
      [{ key := bt.key, zdpSeqNum }] := by
  obtain ⟨before, hbefore, hends⟩ := h
  have hsplit := split_append w 0 q.bindingQueue
  generalize (split w 0 q.bindingQueue).2 = back at *
  generalize q'.bindingQueue = tasks at *
  generalize q'.sent = sent at *
  rw [← hsplit]
  cases hends with
  | all | erased | rotated => exact .inl rfl
  | @sent bt bt₁ rest hidle hkey hstate => exact .inr ⟨bt, by simp, hidle, bt₁.zdpSeqNum, rfl⟩

variable {bt : BindingTask}

theorem mem_of_split_fst (h : bt ∈ (split w 0 tasks).1) : bt ∈ tasks := by
  rw [← split_append w 0 tasks]
  exact mem_append_left _ h

theorem mem_of_split_snd (h : bt ∈ (split w 0 tasks).2) : bt ∈ tasks := by
  rw [← split_append w 0 tasks]
  exact mem_append_right _ h

theorem lastSent_tick (h : Noted q) (hwalks : WalksAs w [] 0 q.sent q.bindingQueue q')
    (hbt : bt ∈ q.bindingQueue) (hstate : bt.state = .inProgress) :
    lastSent q'.sent bt.key = some bt.zdpSeqNum := by
  rcases walksAs_sent hwalks with hsame | ⟨idle, hidle, hidleState, zdpSeqNum, hsent⟩
  · rw [hsame]
    exact h.lastSent bt hbt hstate
  · have hother : idle.key ≠ bt.key := by
      intro hkey
      have hsame := eq_of_key h.distinct hidle hbt hkey
      rw [hsame, hstate] at hidleState
      cases hidleState
    rw [hsent, lastSent_concat, if_neg hother]
    exact h.lastSent bt hbt hstate

theorem noted_step (q : Queue) (e : Event) (hok : Addressed q e) (h : Noted q) :
    Noted (step q e) := by
  refine ⟨distinct_step q e ?_ h.distinct, ?_⟩
  · intro w htick
    rw [htick] at hok
    exact hok
  intro bt' hbt' hstate
  cases moves q e with
  | restated htasks hsent =>
    obtain ⟨bt, hbt, hrestates⟩ := exists_of_forall₂ htasks hbt'
    have hsame := hrestates.inProgress hstate
    rw [hsame] at hstate ⊢
    rw [hsent]
    exact h.lastSent bt hbt hstate
  | @queued w new habsent htasks hsent =>
    rw [htasks] at hbt'
    rcases mem_append.mp hbt' with hbt | hnew
    · rw [hsent]
      exact h.lastSent bt' hbt hstate
    · rw [mem_singleton.mp hnew] at hstate
      exact absurd hstate new.state
  | cleared _ htasks =>
    rw [htasks] at hbt'
    cases hbt'
  | walked hwalks =>
    rcases walksAs_mem hwalks hbt' with ⟨bt, hbt, hpasses⟩ | hbehind |
      ⟨bt, _, _, _, hother⟩ | ⟨bt, _, _, _, _, hsent⟩
    · -- a task in progress that the walk passed kept its number
      have hcounted := (hpasses.inProgress hstate).1
      have hprogress : bt.state = .inProgress := by
        by_contra hne
        rw [counted_of_ne hne] at hcounted
        cases hcounted
      rw [hpasses.key, (hpasses.inProgress hstate).2]
      exact lastSent_tick h hwalks (mem_of_split_fst hbt) hprogress
    · exact lastSent_tick h hwalks (mem_of_split_snd hbehind) hstate
    · exact absurd hstate hother
    · rw [hsent, lastSent_concat, if_pos rfl]

theorem changeFirst_changes {sought : BindingTask → Bool} {change : BindingTask → BindingTask}
    {P : BindingTask → Prop} (tasks : List BindingTask) :
    List.Forall₂ (fun bt bt' => bt' ≠ bt → P bt) tasks (changeFirst sought change tasks) ↔ ∀ bt ∈
      tasks.find? sought, change bt ≠ bt → P bt := by
  induction tasks with
  | nil => simp [changeFirst]
  | cons bt rest ih =>
    unfold changeFirst
    rw [List.find?_cons]
    cases hsought : sought bt with
    | true => simp [forall₂_same]
    | false => simp [ih]

theorem answered_ne (w : World) (clusterId : UInt16) (status : Nat) (bt : BindingTask) :
    bt.answered w clusterId status ≠ bt ↔ bt.state ≠ .finished ∧
      ¬ (status = 0 ∧ clusterId = bindRspClid ∧ w.sendConfigureReportingRequest bt = true) := by
  unfold BindingTask.answered
  by_cases hleft : status = 0 ∧ clusterId = bindRspClid ∧ w.sendConfigureReportingRequest bt = true
  · rw [if_pos hleft]
    exact ⟨fun h => absurd rfl h, fun h => absurd hleft h.2⟩
  · rw [if_neg hleft]
    constructor
    · intro hne
      refine ⟨?_, hleft⟩
      intro hfinished
      apply hne
      rw [← hfinished]
    · rintro ⟨hopen, _⟩ hsame
      exact hopen (by rw [← hsame])

theorem takenRightly_iff (h : Noted q) (w : World) (ind : Indication) :
    List.Forall₂ (fun bt bt' => bt' ≠ bt → Answers q ind bt) q.bindingQueue
        (step q (.bindAndUnbindRsp w ind)).bindingQueue ↔
      TakenRightly q w ind := by
  show List.Forall₂ _ _ (q.handleBindAndUnbindRspIndication w ind).bindingQueue ↔ _
  unfold Queue.handleBindAndUnbindRspIndication TakenRightly
  by_cases hmanaged : w.managed ind.srcAddress = some true
  · rw [if_pos hmanaged]
    exact ⟨fun _ => .inl hmanaged, fun _ => forall₂_same.mpr fun _ _ hne => absurd rfl hne⟩
  · rw [if_neg hmanaged]
    refine (changeFirst_changes q.bindingQueue).trans ?_
    rw [or_iff_right hmanaged]
    refine forall₂_congr ?_
    intro bt hbt
    have hmem : bt ∈ q.bindingQueue := mem_of_find?_eq_some hbt
    have hfound := List.find?_some hbt
    have hseq : bt.zdpSeqNum = ind.zdpSeqNum := of_decide_eq_true hfound
    rw [answered_ne]
    constructor
    · intro hchange
      by_cases hfinished : bt.state = .finished
      · exact .inl hfinished
      by_cases hleft : ind.status = 0 ∧ ind.clusterId = bindRspClid ∧
          w.sendConfigureReportingRequest bt = true
      · exact .inr (.inl hleft)
      · have hanswers := hchange ⟨hfinished, hleft⟩
        exact .inr (.inr ⟨hanswers.source, hanswers.kind, hanswers.inProgress⟩)
    · rintro (hfinished | hleft | ⟨hsource, hkind, hstate⟩) ⟨hopen, hnotLeft⟩
      · exact absurd hfinished hopen
      · exact absurd hleft hnotLeft
      · exact ⟨hsource, by rw [h.lastSent bt hmem hstate, hseq], hkind, hstate⟩

/-! ## Runs -/

/-- The `k`-th event of a run is a successful response that answers a task. -/
def Succeeded (start : Queue) (events : List Event) (k : Nat) (key : Action × Binding) : Prop :=
  ∃ w ind, events[k]? = some (.bindAndUnbindRsp w ind) ∧ ind.status = 0 ∧ ∃ bt ∈
    queueAt start events k, bt.key = key ∧ Answers (stateAt step start events k) ind bt

/-- The task is in the queue from the event `k` on up to the event `n`. -/
def Stays (start : Queue) (events : List Event) (key : Action × Binding) (k n : Nat) : Prop :=
  ∀ m, k ≤ m → m ≤ n → key ∈ keys (queueAt start events m)

/-- No task for which a successful response was received runs out of time. -/
def NotRetried (start : Queue) (events : List Event) : Prop :=
  ∀ k key, Succeeded start events k key → ∀ n w, k < n → events[n]? = some (.bindingTimerFired w) →
    Stays start events key k n → ∀ bt ∈ (split w 0 (queueAt start events n)).1, bt.key = key →
      ¬ Retried w bt

/-- A response changes only a task that it answers, and a task for which a successful response
was received is not sent again. -/
def ResponsesRight (start : Queue) (events : List Event) : Prop :=
  (∀ k w ind, events[k]? = some (.bindAndUnbindRsp w ind) →
    List.Forall₂ (fun bt bt' => bt' ≠ bt → Answers (stateAt step start events k) ind bt)
      (queueAt start events k) (queueAt start events (k + 1))) ∧
  ∀ k key, Succeeded start events k key → ∀ n, k < n → n ≤ events.length →
    Stays start events key k n →
      requestsFor key (stateAt step start events n).sent =
        requestsFor key (stateAt step start events k).sent

variable {start : Queue} {events : List Event}

theorem noted_run (hstart : start.bindingQueue = [])
    (hall : AllSteps step Addressed start events) :
    ∀ n ≤ events.length, Noted (stateAt step start events n) := by
  refine stateAt_induction ?_ fun k hk hnoted => noted_step _ _ (hall k hk) hnoted
  constructor
  · rw [hstart]
    exact nodup_nil
  · rw [hstart]
    exact fun bt hbt => nomatch hbt

def SentOrDone (key : Action × Binding) (tasks : List BindingTask) : Prop :=
  ∀ bt ∈ tasks, bt.key = key → bt.state = .inProgress ∨ bt.state = .finished

theorem sentOrDone_step (q : Queue) (e : Event) (key : Action × Binding)
    (hmem : key ∈ keys q.bindingQueue) (h : SentOrDone key q.bindingQueue)
    (hretry : ∀ w, e = .bindingTimerFired w → ∀ bt ∈ (split w 0 q.bindingQueue).1, bt.key = key →
      ¬ Retried w bt) :
    SentOrDone key (step q e).bindingQueue ∧ requestsFor key (step q e).sent =
      requestsFor key q.sent := by
  cases moves q e with
  | restated htasks hsent =>
    refine ⟨?_, by rw [hsent]⟩
    intro bt' hbt' hkey
    obtain ⟨bt, hbt, hrestates⟩ := exists_of_forall₂ htasks hbt'
    have hbefore := h bt hbt (hrestates.key ▸ hkey)
    cases hstate : bt'.state with
    | inProgress => exact .inl rfl
    | finished => exact .inr rfl
    | idle =>
      rcases hrestates.idle hstate with hother | hother <;> rw [hother] at hbefore <;>
        simp at hbefore
    | check =>
      rw [← hrestates.check hstate, hstate] at hbefore
      simp at hbefore
  | @queued w new habsent htasks hsent =>
    refine ⟨?_, by rw [hsent]⟩
    intro bt hbt hkey
    rw [htasks] at hbt
    rcases mem_append.mp hbt with hold | hnew
    · exact h bt hold hkey
    · rw [mem_singleton.mp hnew] at hkey
      exact absurd (hkey ▸ hmem) habsent
  | cleared _ htasks hsent =>
    refine ⟨?_, by rw [hsent]⟩
    intro bt hbt
    rw [htasks] at hbt
    cases hbt
  | @walked w hwalks =>
    constructor
    · intro bt' hbt' hkey
      rcases walksAs_mem hwalks hbt' with ⟨bt, hbt, hpasses⟩ | hbehind |
        ⟨bt, hbt, hsame, hcheck, _⟩ | ⟨_, _, _, _, hprogress, _⟩
      · have hbtKey : bt.key = key := hpasses.key ▸ hkey
        have hbefore := h bt (mem_of_split_fst hbt) hbtKey
        cases hstate : bt'.state with
        | inProgress => exact .inl rfl
        | finished => exact .inr rfl
        | idle =>
          rcases hpasses.idle hstate with hidle | hretried
          · rw [hidle] at hbefore
            simp at hbefore
          · exact absurd hretried (hretry w rfl bt hbt hbtKey)
        | check =>
          rw [hpasses.check hstate] at hbefore
          simp at hbefore
      · exact h bt' (mem_of_split_snd hbehind) hkey
      · have hbefore := h bt hbt (hsame ▸ hkey)
        rw [hcheck] at hbefore
        simp at hbefore
      · exact .inl hprogress
    · rcases walksAs_sent hwalks with hsame | ⟨idle, hidle, hstate, zdpSeqNum, hsent⟩
      · rw [hsame]
      · have hother : idle.key ≠ key := by
          intro hkey
          have hbefore := h idle hidle hkey
          rw [hstate] at hbefore
          simp at hbefore
        rw [hsent]
        unfold requestsFor
        simp [hother]

theorem not_sent_again (hstart : start.bindingQueue = [])
    (hall : AllSteps step Addressed start events) (hretry : NotRetried start events)
    {k : Nat} {key : Action × Binding} (hsucceeded : Succeeded start events k key) {n : Nat}
    (hkn : k ≤ n) : n ≤ events.length → Stays start events key k n →
      SentOrDone key (queueAt start events n) ∧
        requestsFor key (stateAt step start events n).sent =
          requestsFor key (stateAt step start events k).sent := by
  induction n, hkn using Nat.le_induction with
  | base =>
    intro hk _
    refine ⟨?_, rfl⟩
    obtain ⟨w, ind, _, _, bt, hbt, hkey, hanswers⟩ := hsucceeded
    intro bt' hbt' hkey'
    have hdistinct := (noted_run hstart hall k hk).distinct
    rw [eq_of_key hdistinct hbt' hbt (hkey'.trans hkey.symm)]
    exact .inl hanswers.inProgress
  | succ n hkn ih =>
    intro hn hstays
    obtain ⟨hstate, hrequests⟩ := ih (by omega) fun m hkm hmn => hstays m hkm (by omega)
    have hstep := sentOrDone_step (stateAt step start events n) events[n] key
      (hstays n hkn (by omega)) hstate ?_
    · rw [← stateAt_succ step start events hn] at hstep
      exact ⟨hstep.1, hstep.2.trans hrequests⟩
    · intro w hevent bt hbt hkey
      rcases Nat.lt_or_eq_of_le hkn with hlt | rfl
      · exact hretry k key hsucceeded n w hlt
          (List.getElem?_eq_some_iff.mpr ⟨hn, hevent⟩)
          (fun m hkm hmn => hstays m hkm (by omega)) bt hbt hkey
      · -- the event `k` is the response itself
        obtain ⟨w', ind, hresponse, _⟩ := hsucceeded
        rw [List.getElem?_eq_getElem hn, hevent] at hresponse
        cases hresponse

theorem responses_right (hstart : start.bindingQueue = [])
    (hall : AllSteps step Addressed start events) (hretry : NotRetried start events) :
    ResponsesRight start events := by
  constructor
  · intro k w ind hevent
    obtain ⟨hk, hevent⟩ := List.getElem?_eq_some_iff.mp hevent
    have hnoted := noted_run hstart hall k (Nat.le_of_lt hk)
    have hok := hall k hk
    rw [hevent] at hok
    have hchanges := (takenRightly_iff hnoted w ind).mpr hok
    rw [← hevent, ← stateAt_succ step start events hk] at hchanges
    exact hchanges
  · intro k key hsucceeded n hkn hn hstays
    exact (not_sent_again hstart hall hretry hsucceeded (Nat.le_of_lt hkn) hn hstays).2

def bindRsp (device : UInt64) (zdpSeqNum status : UInt8) : Event :=
  .bindAndUnbindRsp twoDevices
    { srcAddress := device, clusterId := bindRspClid, asdu := [zdpSeqNum, status] }

theorem onOffTask_idle : (onOffTask 1 .idle).state ≠ .inProgress :=
  State.noConfusion

/-- A task is sent and answered with success, and a configure reporting request is sent. -/
def oneAnswered : List Event :=
  [.queueBindingTask twoDevices ⟨onOffTask 1 .idle, onOffTask_idle⟩, .bindingTimerFired twoDevices,
    bindRsp 1 0 0] ++
    List.replicate 22 (.bindingTimerFired twoDevices)

/-- It is sent again twenty-two seconds later. -/
theorem oneAnswered_again : ¬ ResponsesRight { zdpSeq := 0 } oneAnswered := by
  intro h
  have hsucceeded : Succeeded { zdpSeq := 0 } oneAnswered 2 (onOffTask 1 .idle).key := by
    refine ⟨twoDevices, _, rfl, by decide, { onOffTask 1 .inProgress with zdpSeqNum := 0 },
      by decide, rfl, ⟨rfl, by decide, rfl, rfl⟩⟩
  have hstays : Stays { zdpSeq := 0 } oneAnswered (onOffTask 1 .idle).key 2 25 := by
    have hall : ∀ m < 26, (onOffTask 1 .idle).key ∈ keys (queueAt { zdpSeq := 0 } oneAnswered m) ∨
        m < 2 := by decide +kernel
    intro m hlow hhigh
    exact (hall m (by omega)).resolve_right (by omega)
  have hsame := h.2 2 _ hsucceeded 25 (by decide) (by decide) hstays
  have htwice : (requestsFor (onOffTask 1 .idle).key
      (stateAt step { zdpSeq := 0 } oneAnswered 25).sent).length = 2 := by decide +kernel
  rw [hsame] at htwice
  exact absurd htwice (by decide +kernel)

/-- The same run up to one second before the task runs out of time -/
theorem responses_right_oneAnswered : ResponsesRight { zdpSeq := 0 } (oneAnswered.take 23) := by
  refine responses_right rfl (by unfold AllSteps; decide +kernel) ?_
  intro k key _ n w _ hevent _ bt hbt _
  obtain ⟨hn, hevent⟩ := List.getElem?_eq_some_iff.mp hevent
  have hworld : w = twoDevices := by
    have hmem := getElem_mem hn
    rw [hevent] at hmem
    simpa [oneAnswered, bindRsp] using hmem
  have hall : ∀ n < 23, ∀ bt ∈ (split twoDevices 0
      (queueAt { zdpSeq := 0 } (oneAnswered.take 23) n)).1, ¬ Retried twoDevices bt := by
    decide +kernel
  rw [hworld] at hbt ⊢
  exact hall n hn bt hbt

end BindingTasks
end DeconzRest

import DeconzRest.Event.Duplicate
import DeconzRest.Lib.Transition

/-!
# The event emitter

`process` delivers the urgent events and then one normal event, again and again until nothing is
left or its time is over.  Each delivery calls the handlers, which may enqueue events; a step of
the machine here is one call of `enqueueEvent`, a timer that expires, a call of `process`, or the
return of the handlers from one delivery.

What was accepted and what was delivered is kept, oldest first, for the urgent and for the normal
events.
-/

namespace DeconzRest

open List

/-- Where `process` waits for the handlers; `fired` says that `timerFired` has called it. -/
inductive ProcessPoint where
  /-- `process` is not running. -/
  | out
  /-- The handlers run for `m_urgentQueue[i]`. -/
  | urgent (i : Nat) (fired : Bool)
  /-- The handlers run for `m_queue[m_pos - 1]`. -/
  | normal (fired : Bool)
deriving DecidableEq, Repr

/-- `EventEmitter` -/
structure Emitter where
  urgentQueue : List EventRecord := []
  queue : List EventRecord := []
  pos : Nat := 0
  timer : Bool := false
  point : ProcessPoint := .out
  urgentAccepted : List EventRecord := []
  urgentDelivered : List EventRecord := []
  accepted : List EventRecord := []
  delivered : List EventRecord := []
deriving DecidableEq, Repr

inductive EmitterAction where
  /-- `enqueueEvent`, from anywhere; the data buffers and the nodes are as they are then. -/
  | enqueue (buffers : List EventData) (ext : EventRecord → Nat) (e : EventRecord)
  /-- The single shot timer expires. -/
  | timerFired
  /-- `process` is called. -/
  | process
  /-- The handlers return, and `stop` says that the time of `process` is over. -/
  | returned (stop : Bool)

namespace Emitter

/-- `EventEmitter::enqueueEvent` -/
def enqueueEvent (s : Emitter) (buffers : List EventData) (ext : EventRecord → Nat)
    (e : EventRecord) : Emitter :=
  if e.urgent then
    { s with urgentQueue := s.urgentQueue ++ [e], urgentAccepted := s.urgentAccepted ++ [e],
             timer := true }
  else if EventRecord.isDuplicate buffers s.pos s.queue (e.attachDeviceKey ext) then
    { s with timer := true }
  else
    { s with queue := s.queue ++ [e.attachDeviceKey ext],
             accepted := s.accepted ++ [e.attachDeviceKey ext], timer := true }

/-- `process` returns; `timerFired` starts the timer again when events are left in `m_queue`. -/
def finish (s : Emitter) (fired : Bool) : Emitter :=
  { s with point := .out, timer := s.timer || (fired && !s.queue.isEmpty) }

/-- The normal event of an iteration.  Without one the loop ends: both queues are empty then. -/
def processNormal (s : Emitter) (fired : Bool) : Emitter :=
  match s.queue[s.pos]? with
  | some ev =>
    { s with pos := s.pos + 1, point := .normal fired, delivered := s.delivered ++ [ev] }
  | none => s.finish fired

/-- The urgent event at `i` is delivered. -/
def processUrgent (s : Emitter) (fired : Bool) (i : Nat) (ev : EventRecord) : Emitter :=
  { s with point := .urgent i fired, urgentDelivered := s.urgentDelivered ++ [ev] }

def iterate (s : Emitter) (fired : Bool) : Emitter :=
  match s.urgentQueue with
  | ev :: _ => s.processUrgent fired 0 ev
  | [] => s.processNormal fired

/-- `m_queue` is cleared when all its events are delivered. -/
def clearQueue (s : Emitter) : Emitter :=
  if s.pos = s.queue.length then { s with queue := [], pos := 0 } else s

/-- The loop goes on after a delivery. -/
def returned (s : Emitter) (stop : Bool) : Emitter :=
  match s.point with
  | .out => s
  | .urgent i fired =>
    if i + 1 = s.urgentQueue.length then { s with urgentQueue := [] }.processNormal fired
    else
      match s.urgentQueue[i + 1]? with
      | some ev => s.processUrgent fired (i + 1) ev
      | none => s.processNormal fired
  | .normal fired =>
    if stop then s.clearQueue.finish fired else s.clearQueue.iterate fired

def step (s : Emitter) : EmitterAction → Emitter
  | .enqueue buffers ext e => s.enqueueEvent buffers ext e
  | .timerFired =>
    if s.timer ∧ s.point = .out then { s with timer := false }.iterate true else s
  | .process => if s.point = .out then s.iterate false else s
  | .returned stop => s.returned stop

/-! ## Undelivered events -/

def urgentLeft (s : Emitter) : List EventRecord :=
  match s.point with
  | .urgent i _ => s.urgentQueue.drop (i + 1)
  | .out | .normal _ => s.urgentQueue

variable {s : Emitter} {fired : Bool}

theorem urgentLeft_urgent {i : Nat} (h : s.point = .urgent i fired) :
    s.urgentLeft = s.urgentQueue.drop (i + 1) := by
  unfold urgentLeft
  rw [h]

theorem urgentLeft_normal (h : s.point = .normal fired) : s.urgentLeft = s.urgentQueue := by
  unfold urgentLeft
  rw [h]

theorem urgentLeft_out (h : s.point = .out) : s.urgentLeft = s.urgentQueue := by
  unfold urgentLeft
  rw [h]

def left (s : Emitter) : List EventRecord := s.queue.drop s.pos

/-- What holds after each action. -/
structure Sound (s : Emitter) : Prop where
  /-- What was accepted is delivered or left, in order. -/
  urgent : s.urgentAccepted = s.urgentDelivered ++ s.urgentLeft
  normal : s.accepted = s.delivered ++ s.left
  pos_le : s.pos ≤ s.queue.length
  /-- Where `process` is. -/
  point : match s.point with
    | .out => (s.queue ≠ [] → s.pos < s.queue.length) ∧
        (s.urgentQueue ≠ [] ∨ s.queue ≠ [] → s.timer = true)
    | .urgent i fired => i < s.urgentQueue.length ∧
        (s.queue ≠ [] → s.pos < s.queue.length) ∧ (fired = false → s.timer = true)
    | .normal fired => s.queue ≠ [] ∧ (fired = false ∨ s.urgentQueue ≠ [] → s.timer = true)

/-- What holds between two iterations. -/
structure Between (s : Emitter) (fired : Bool) : Prop where
  urgent : s.urgentAccepted = s.urgentDelivered ++ s.urgentQueue
  normal : s.accepted = s.delivered ++ s.left
  pos_le : s.pos ≤ s.queue.length
  pos_lt : s.queue ≠ [] → s.pos < s.queue.length
  timer : fired = false → s.urgentQueue ≠ [] ∨ s.queue ≠ [] → s.timer = true

theorem left_eq_cons {ev : EventRecord} (h : s.queue[s.pos]? = some ev) :
    s.left = ev :: s.queue.drop (s.pos + 1) := by
  obtain ⟨hlt, rfl⟩ := List.getElem?_eq_some_iff.mp h
  exact drop_eq_getElem_cons hlt

theorem queue_ne_nil {ev : EventRecord} (h : s.queue[s.pos]? = some ev) : s.queue ≠ [] := by
  intro hnil
  rw [hnil] at h
  exact absurd h (by simp)

theorem sound_processNormal (h : Between s fired) (hurgent : s.urgentQueue = []) :
    Sound (s.processNormal fired) := by
  unfold processNormal
  split
  · rename_i ev hev
    obtain ⟨hlt, -⟩ := List.getElem?_eq_some_iff.mp hev
    have hsome : s.queue ≠ [] := queue_ne_nil hev
    refine ⟨h.urgent, ?_, hlt, hsome, ?_⟩
    · rw [h.normal, left_eq_cons hev]
      exact append_cons _ _ _
    · rintro (hfired | hmore)
      · exact h.timer hfired (.inr hsome)
      · exact absurd hurgent hmore
  · rename_i hnone
    have hempty : s.queue = [] := by
      by_contra hsome
      rw [List.getElem?_eq_getElem (h.pos_lt hsome)] at hnone
      exact absurd hnone (by simp)
    refine ⟨h.urgent, h.normal, h.pos_le, h.pos_lt, ?_⟩
    rintro (hsome | hsome)
    · exact absurd hurgent hsome
    · exact absurd hempty hsome

theorem sound_iterate (h : Between s fired) : Sound (s.iterate fired) := by
  unfold iterate
  split
  · rename_i ev rest hqueue
    refine ⟨?_, h.normal, h.pos_le, ?_, h.pos_lt, ?_⟩
    · show s.urgentAccepted = s.urgentDelivered ++ [ev] ++ s.urgentQueue.drop 1
      rw [h.urgent, hqueue]
      exact append_cons _ _ _
    · show 0 < s.urgentQueue.length
      rw [hqueue]
      exact Nat.zero_lt_succ _
    · intro hfired
      exact h.timer hfired (.inl (by rw [hqueue]; exact cons_ne_nil _ _))
  · rename_i hqueue
    exact sound_processNormal h hqueue

theorem sound_finish (h : Between s fired) (htimer : s.urgentQueue ≠ [] → s.timer = true) :
    Sound (s.finish fired) := by
  refine ⟨h.urgent, h.normal, h.pos_le, h.pos_lt, ?_⟩
  show s.urgentQueue ≠ [] ∨ s.queue ≠ [] → (s.timer || (fired && !s.queue.isEmpty)) = true
  rintro (hsome | hsome)
  · rw [htimer hsome]
    rfl
  · cases fired with
    | false => rw [h.timer rfl (.inr hsome)]; rfl
    | true =>
      have hleft : s.queue.isEmpty = false := isEmpty_eq_false_iff.mpr hsome
      rw [hleft, Bool.or_eq_true]
      exact .inr rfl

theorem sound_enqueueUrgent (h : Sound s) (e : EventRecord) :
    Sound { s with urgentQueue := s.urgentQueue ++ [e], urgentAccepted := s.urgentAccepted ++ [e],
                   timer := true } := by
  have hi := h.point
  have haccepted := h.urgent
  unfold urgentLeft at haccepted
  refine ⟨?_, h.normal, h.pos_le, ?_⟩
  · rw [haccepted]
    unfold urgentLeft
    cases hpoint : s.point with
    | out => exact append_assoc _ _ _
    | normal fired => exact append_assoc _ _ _
    | urgent i fired =>
      rw [hpoint] at hi
      simp only [drop_append_of_le_length (Nat.succ_le_of_lt hi.1)]
      exact append_assoc _ _ _
  · cases hpoint : s.point with
    | out =>
      rw [hpoint] at hi
      exact ⟨hi.1, fun _ => rfl⟩
    | normal fired =>
      rw [hpoint] at hi
      exact ⟨hi.1, fun _ => rfl⟩
    | urgent i fired =>
      rw [hpoint] at hi
      refine ⟨?_, hi.2.1, fun _ => rfl⟩
      show i < (s.urgentQueue ++ [e]).length
      rw [List.length_append]
      exact Nat.lt_add_right _ hi.1

theorem sound_enqueueNormal (h : Sound s) (e : EventRecord) :
    Sound { s with queue := s.queue ++ [e], accepted := s.accepted ++ [e], timer := true } := by
  have hi := h.point
  have hlt : s.pos < (s.queue ++ [e]).length := by
    rw [List.length_append]
    exact Nat.lt_succ_of_le h.pos_le
  have hsome : s.queue ++ [e] ≠ [] := append_ne_nil_of_right_ne_nil _ (cons_ne_nil _ _)
  refine ⟨h.urgent, ?_, Nat.le_of_lt hlt, ?_⟩
  · rw [h.normal]
    unfold left
    simp only [drop_append_of_le_length h.pos_le]
    exact append_assoc _ _ _
  · cases hpoint : s.point with
    | out => exact ⟨fun _ => hlt, fun _ => rfl⟩
    | normal fired => exact ⟨hsome, fun _ => rfl⟩
    | urgent i fired =>
      rw [hpoint] at hi
      exact ⟨hi.1, fun _ => hlt, fun _ => rfl⟩

theorem sound_startTimer (h : Sound s) : Sound { s with timer := true } := by
  have hi := h.point
  refine ⟨h.urgent, h.normal, h.pos_le, ?_⟩
  cases hpoint : s.point with
  | out =>
    rw [hpoint] at hi
    exact ⟨hi.1, fun _ => rfl⟩
  | normal fired =>
    rw [hpoint] at hi
    exact ⟨hi.1, fun _ => rfl⟩
  | urgent i fired =>
    rw [hpoint] at hi
    exact ⟨hi.1, hi.2.1, fun _ => rfl⟩

theorem sound_enqueueEvent (h : Sound s) (buffers : List EventData) (ext : EventRecord → Nat)
    (e : EventRecord) : Sound (s.enqueueEvent buffers ext e) := by
  unfold enqueueEvent
  split
  · exact sound_enqueueUrgent h e
  · split
    · exact sound_startTimer h
    · exact sound_enqueueNormal h _

@[simp] theorem clearQueue_urgentQueue (s : Emitter) :
    s.clearQueue.urgentQueue = s.urgentQueue := by
  unfold clearQueue
  split <;> rfl

@[simp] theorem clearQueue_timer (s : Emitter) : s.clearQueue.timer = s.timer := by
  unfold clearQueue
  split <;> rfl

@[simp] theorem clearQueue_left (s : Emitter) : s.clearQueue.left = s.left := by
  unfold clearQueue
  split
  · rename_i hlast
    exact (drop_eq_nil_of_le (Nat.le_of_eq hlast.symm)).symm
  · rfl

theorem clearQueue_histories (s : Emitter) : s.clearQueue.urgentAccepted = s.urgentAccepted ∧
    s.clearQueue.urgentDelivered = s.urgentDelivered ∧ s.clearQueue.accepted = s.accepted ∧
    s.clearQueue.delivered = s.delivered := by
  unfold clearQueue
  split <;> exact ⟨rfl, rfl, rfl, rfl⟩

theorem between_urgent (h : Sound s) {i : Nat} (hpoint : s.point = .urgent i fired)
    (hlast : i + 1 = s.urgentQueue.length) :
    Between { s with urgentQueue := [] } fired := by
  have hi := h.point
  rw [hpoint] at hi
  obtain ⟨-, hlt, htimer⟩ := hi
  refine ⟨?_, h.normal, h.pos_le, hlt, fun hfired _ => htimer hfired⟩
  rw [h.urgent, urgentLeft_urgent hpoint]
  exact congrArg (s.urgentDelivered ++ ·) (drop_eq_nil_of_le (Nat.le_of_eq hlast.symm))

theorem between_normal (h : Sound s) (hpoint : s.point = .normal fired) :
    Between s.clearQueue fired := by
  have hi := h.point
  rw [hpoint] at hi
  obtain ⟨-, htimer⟩ := hi
  have haccepted := h.urgent
  rw [urgentLeft_normal hpoint] at haccepted
  unfold clearQueue
  split
  · rename_i hlast
    refine ⟨haccepted, ?_, Nat.le_refl _, fun hsome => absurd rfl hsome, ?_⟩
    · rw [h.normal]
      exact congrArg (s.delivered ++ ·) (drop_eq_nil_of_le (Nat.le_of_eq hlast.symm))
    · exact fun hfired _ => htimer (.inl hfired)
  · rename_i hmore
    exact ⟨haccepted, h.normal, h.pos_le, fun _ => Nat.lt_of_le_of_ne h.pos_le hmore,
      fun hfired _ => htimer (.inl hfired)⟩

theorem sound_returned (h : Sound s) (stop : Bool) : Sound (s.returned stop) := by
  have hi := h.point
  unfold returned
  split
  · exact h
  · rename_i i fired hpoint
    rw [hpoint] at hi
    obtain ⟨hbound, hlt, htimer⟩ := hi
    split
    · rename_i hlast
      exact sound_processNormal (between_urgent h hpoint hlast) rfl
    · rename_i hmore
      have hnext : i + 1 < s.urgentQueue.length := Nat.lt_of_le_of_ne hbound hmore
      rw [List.getElem?_eq_getElem hnext]
      refine ⟨?_, h.normal, h.pos_le, hnext, hlt, htimer⟩
      show s.urgentAccepted = s.urgentDelivered ++ [s.urgentQueue[i + 1]] ++
        s.urgentQueue.drop (i + 1 + 1)
      rw [h.urgent, urgentLeft_urgent hpoint, drop_eq_getElem_cons hnext]
      exact append_cons _ _ _
  · rename_i fired hpoint
    rw [hpoint] at hi
    have hbetween := between_normal h hpoint
    split
    · refine sound_finish hbetween ?_
      rw [clearQueue_urgentQueue, clearQueue_timer]
      exact fun hsome => hi.2 (.inr hsome)
    · exact sound_iterate hbetween

theorem between_out (h : Sound s) (hpoint : s.point = .out) (fired timer : Bool)
    (htimer : fired = false → timer = s.timer) : Between { s with timer := timer } fired := by
  have hi := h.point
  rw [hpoint] at hi
  refine ⟨?_, h.normal, h.pos_le, hi.1, ?_⟩
  · have haccepted := h.urgent
    rw [urgentLeft_out hpoint] at haccepted
    exact haccepted
  · exact fun hfired hsome => (htimer hfired).trans (hi.2 hsome)

theorem sound_step (h : Sound s) (a : EmitterAction) : Sound (s.step a) := by
  cases a with
  | enqueue buffers ext e => exact sound_enqueueEvent h buffers ext e
  | timerFired =>
    simp only [step]
    split
    · rename_i hstart
      exact sound_iterate (between_out h hstart.2 true false nofun)
    · exact h
  | process =>
    simp only [step]
    split
    · rename_i hpoint
      exact sound_iterate (between_out h hpoint false s.timer fun _ => rfl)
    · exact h
  | returned stop => exact sound_returned h stop

/-- The emitter after the first `k` actions. -/
def after (acts : List EmitterAction) (k : Nat) : Emitter := Transition.stateAt step {} acts k

theorem after_succ {acts : List EmitterAction} {k : Nat} (hk : k < acts.length) :
    after acts (k + 1) = (after acts k).step acts[k] :=
  Transition.stateAt_succ step {} acts hk

theorem sound_init : Sound {} :=
  ⟨rfl, rfl, Nat.le_refl _, fun hsome => absurd rfl hsome, fun hsome =>
    hsome.elim (fun h => absurd rfl h) fun h => absurd rfl h⟩

theorem sound_after (acts : List EmitterAction) (k : Nat) : Sound (after acts k) :=
  Transition.run_invariant (P := Sound) (fun _ a h => sound_step h a) sound_init (acts.take k)

theorem processNormal_delivered (h : Between s fired) (hurgent : s.urgentQueue = []) :
    s.urgentDelivered = s.urgentAccepted := by
  rw [h.urgent, hurgent, append_nil]

theorem iterate_delivered (h : Between s fired) (hnew : (s.iterate fired).delivered ≠ s.delivered) :
    s.urgentDelivered = s.urgentAccepted := by
  unfold iterate at hnew
  split at hnew
  · exact absurd rfl hnew
  · rename_i hqueue
    exact processNormal_delivered h hqueue

theorem urgent_first (h : Sound s) (a : EmitterAction) (hnew : (s.step a).delivered ≠ s.delivered) :
    s.urgentDelivered = s.urgentAccepted := by
  cases a with
  | enqueue buffers ext e =>
    refine absurd ?_ hnew
    show (s.enqueueEvent buffers ext e).delivered = s.delivered
    unfold enqueueEvent
    split
    · rfl
    · split <;> rfl
  | timerFired =>
    simp only [step] at hnew
    split at hnew
    · rename_i hstart
      have hbetween := between_out h hstart.2 true false nofun
      have hdone := iterate_delivered hbetween hnew
      exact hdone
    · exact absurd rfl hnew
  | process =>
    simp only [step] at hnew
    split at hnew
    · rename_i hpoint
      have hbetween := between_out h hpoint false s.timer fun _ => rfl
      have hdone := iterate_delivered hbetween hnew
      exact hdone
    · exact absurd rfl hnew
  | returned stop =>
    simp only [step, returned] at hnew
    split at hnew
    · exact absurd rfl hnew
    · rename_i i fired hpoint
      split at hnew
      · rename_i hlast
        have hbetween := between_urgent h hpoint hlast
        have hdone := processNormal_delivered hbetween rfl
        exact hdone
      · rename_i hmore
        have hi := h.point
        rw [hpoint] at hi
        have hnext : i + 1 < s.urgentQueue.length := Nat.lt_of_le_of_ne hi.1 hmore
        rw [List.getElem?_eq_getElem hnext] at hnew
        exact absurd rfl hnew
    · rename_i fired hpoint
      have hbetween := between_normal h hpoint
      obtain ⟨haccepted, hdelivered, -, hsame⟩ := clearQueue_histories s
      split at hnew
      · exact absurd hsame hnew
      · have hdone := iterate_delivered hbetween (by rwa [hsame])
        rwa [hdelivered, haccepted] at hdone

/-! ## Delivery goes on -/

def leftCount (s : Emitter) : Nat := s.urgentLeft.length + s.left.length

/-- What is done when no event is enqueued: the timer expires, or the handlers return. -/
def service (s : Emitter) (stop : Bool) : EmitterAction :=
  if s.point = .out then .timerFired else .returned stop

def serve (s : Emitter) (stop : Bool) : Emitter := s.step (s.service stop)

/-- Two services for each event, and one for `process` to return. -/
def rank (s : Emitter) : Nat := 2 * s.leftCount + if s.point = .out then 0 else 1

theorem rank_processNormal (h : Between s fired) (hurgent : s.urgentQueue = []) :
    (s.processNormal fired).rank ≤ 2 * (s.urgentQueue.length + s.left.length) - 1 := by
  unfold processNormal
  split
  · rename_i ev hev
    have hleft := congrArg List.length (left_eq_cons hev)
    show 2 * (s.urgentQueue.length + (s.queue.drop (s.pos + 1)).length) + 1 ≤ _
    rw [hleft, length_cons]
    omega
  · rename_i hnone
    have hempty : s.queue = [] := by
      by_contra hsome
      rw [List.getElem?_eq_getElem (h.pos_lt hsome)] at hnone
      exact absurd hnone (by simp)
    show 2 * (s.urgentQueue.length + (s.queue.drop s.pos).length) + 0 ≤ _
    rw [hurgent, hempty, drop_nil]
    exact Nat.zero_le _

theorem rank_iterate (h : Between s fired) :
    (s.iterate fired).rank ≤ 2 * (s.urgentQueue.length + s.left.length) - 1 := by
  unfold iterate
  split
  · rename_i ev rest hqueue
    show 2 * ((s.urgentQueue.drop 1).length + s.left.length) + 1 ≤ _
    rw [hqueue, length_cons]
    simp only [drop_succ_cons, drop_zero]
    omega
  · rename_i hqueue
    exact rank_processNormal h hqueue

theorem rank_running (hrunning : s.point ≠ .out) : s.rank = 2 * s.leftCount + 1 := by
  unfold rank
  rw [if_neg hrunning]

theorem rank_returned (h : Sound s) (stop : Bool) (hrunning : s.point ≠ .out) :
    (s.returned stop).rank ≤ s.rank - 1 := by
  rw [rank_running hrunning]
  have hi := h.point
  unfold returned leftCount
  split
  · rename_i hpoint
    exact absurd hpoint hrunning
  · rename_i i fired hpoint
    rw [hpoint] at hi
    rw [urgentLeft_urgent hpoint]
    split
    · rename_i hlast
      have hrank := rank_processNormal (between_urgent h hpoint hlast) rfl
      have hleft : ({ s with urgentQueue := [] } : Emitter).left = s.left := rfl
      rw [hleft, length_nil] at hrank
      omega
    · rename_i hmore
      have hnext : i + 1 < s.urgentQueue.length := Nat.lt_of_le_of_ne hi.1 hmore
      rw [List.getElem?_eq_getElem hnext]
      show 2 * ((s.urgentQueue.drop (i + 1 + 1)).length + s.left.length) + 1 ≤ _
      rw [length_drop, length_drop]
      omega
  · rename_i fired hpoint
    have hbetween := between_normal h hpoint
    rw [urgentLeft_normal hpoint]
    split
    · show 2 * (s.clearQueue.urgentQueue.length + s.clearQueue.left.length) + 0 ≤ _
      rw [clearQueue_urgentQueue, clearQueue_left]
      omega
    · have hrank := rank_iterate hbetween
      rw [clearQueue_urgentQueue, clearQueue_left] at hrank
      omega

theorem rank_serve (h : Sound s) (stop : Bool) : (s.serve stop).rank ≤ s.rank - 1 := by
  unfold serve service
  split
  · rename_i hpoint
    have hrank : s.rank = 2 * (s.urgentQueue.length + s.left.length) := by
      unfold rank leftCount
      rw [urgentLeft_out hpoint, if_pos hpoint]
      rfl
    simp only [step]
    split
    · rw [hrank]
      exact rank_iterate (between_out h hpoint true false nofun)
    · rename_i hidle
      have hi := h.point
      rw [hpoint] at hi
      have hnone : ¬ (s.urgentQueue ≠ [] ∨ s.queue ≠ []) := fun hsome => hidle ⟨hi.2 hsome, hpoint⟩
      obtain ⟨hurgent, hqueue⟩ := not_or.mp hnone
      have hleft : s.left = [] := by
        unfold left
        rw [not_not.mp hqueue, drop_nil]
      rw [hrank, not_not.mp hurgent, hleft]
      exact Nat.le_refl _
  · rename_i hrunning
    exact rank_returned h stop hrunning

theorem serve_accepted (s : Emitter) (stop : Bool) :
    (s.serve stop).urgentAccepted = s.urgentAccepted ∧ (s.serve stop).accepted = s.accepted := by
  have hnormal : ∀ (s : Emitter) fired, (s.processNormal fired).urgentAccepted = s.urgentAccepted ∧
      (s.processNormal fired).accepted = s.accepted := by
    intro s fired
    unfold processNormal
    split <;> exact ⟨rfl, rfl⟩
  have hiterate : ∀ (s : Emitter) fired, (s.iterate fired).urgentAccepted = s.urgentAccepted ∧
      (s.iterate fired).accepted = s.accepted := by
    intro s fired
    unfold iterate
    split
    · exact ⟨rfl, rfl⟩
    · exact hnormal s fired
  unfold serve service
  split
  · simp only [step]
    split
    · exact hiterate _ _
    · exact ⟨rfl, rfl⟩
  · simp only [step, returned]
    split
    · exact ⟨rfl, rfl⟩
    · split
      · exact hnormal _ _
      · split
        · exact ⟨rfl, rfl⟩
        · exact hnormal _ _
    · obtain ⟨haccepted, -, hnormalAccepted, -⟩ := clearQueue_histories s
      split
      · exact ⟨haccepted, hnormalAccepted⟩
      · have hsame := hiterate s.clearQueue
        exact ⟨(hsame _).1.trans haccepted, (hsame _).2.trans hnormalAccepted⟩

/-- **Delivery is completed** by two services for each event that is left and one more, wherever
the time limit stops `process`, if no event is enqueued meanwhile. -/
theorem serve_delivers (h : Sound s) (stops : List Bool) (hstops : s.rank ≤ stops.length) :
    (stops.foldl serve s).urgentDelivered = s.urgentAccepted ∧ (stops.foldl serve s).delivered =
      s.accepted := by
  induction stops generalizing s with
  | nil =>
    have hcount : s.leftCount = 0 := by
      unfold rank at hstops
      rw [length_nil] at hstops
      omega
    have hurgent : s.urgentLeft = [] :=
      eq_nil_of_length_eq_zero (Nat.eq_zero_of_add_eq_zero_right hcount)
    have hnormal : s.left = [] :=
      eq_nil_of_length_eq_zero (Nat.eq_zero_of_add_eq_zero_left hcount)
    constructor
    · rw [h.urgent, hurgent]
      exact (append_nil _).symm
    · rw [h.normal, hnormal]
      exact (append_nil _).symm
  | cons stop stops ih =>
    have hrank := rank_serve h stop
    rw [length_cons] at hstops
    have hshorter : (s.serve stop).rank ≤ stops.length := by omega
    obtain ⟨hurgent, hnormal⟩ := ih (sound_step h _) hshorter
    obtain ⟨hsameUrgent, hsame⟩ := serve_accepted s stop
    exact ⟨hurgent.trans hsameUrgent, hnormal.trans hsame⟩

/-- What a run of the emitter promises. -/
structure Reliable (acts : List EmitterAction) : Prop where
  /-- Accepted urgent events are delivered once, in order, or still left. -/
  urgent : ∀ k ≤ acts.length, (after acts k).urgentAccepted = (after acts k).urgentDelivered ++
    (after acts k).urgentLeft
  /-- Accepted normal events are delivered once, in order, or still left. -/
  normal : ∀ k ≤ acts.length, (after acts k).accepted = (after acts k).delivered ++
    (after acts k).left
  /-- Nothing stays left when no more events come. -/
  complete : ∀ k ≤ acts.length, ∀ stops : List Bool, 2 * (after acts k).leftCount < stops.length →
    (stops.foldl serve (after acts k)).urgentDelivered = (after acts k).urgentAccepted ∧
      (stops.foldl serve (after acts k)).delivered = (after acts k).accepted
  /-- A normal event is delivered after the urgent events that were accepted before. -/
  urgentFirst : ∀ k < acts.length, (after acts (k + 1)).delivered ≠ (after acts k).delivered →
    (after acts k).urgentDelivered = (after acts k).urgentAccepted
  pos_le : ∀ k ≤ acts.length, (after acts k).pos ≤ (after acts k).queue.length
  /-- What is left will be delivered: the timer is active or `process` is running. -/
  active : ∀ k ≤ acts.length, 0 < (after acts k).leftCount → (after acts k).timer = true ∨
    (after acts k).point ≠ .out

theorem active_of_left (h : Sound s) (hleft : 0 < s.leftCount) :
    s.timer = true ∨ s.point ≠ .out := by
  by_cases hpoint : s.point = .out
  · have hi := h.point
    rw [hpoint] at hi
    refine .inl (hi.2 ?_)
    by_contra hnone
    obtain ⟨hurgent, hqueue⟩ := not_or.mp hnone
    unfold leftCount left at hleft
    rw [urgentLeft_out hpoint, not_not.mp hurgent, not_not.mp hqueue, drop_nil] at hleft
    exact absurd hleft (Nat.lt_irrefl 0)
  · exact .inr hpoint

/-- **The event queue neither loses nor repeats**, for every order of enqueued events, expired
timers, calls of `process` and returning handlers. -/
theorem run_reliable (acts : List EmitterAction) : Reliable acts where
  urgent := fun k _ => (sound_after acts k).urgent
  normal := fun k _ => (sound_after acts k).normal
  complete := by
    intro k _ stops hstops
    refine serve_delivers (sound_after acts k) stops ?_
    unfold rank
    split
    · exact Nat.le_of_lt hstops
    · exact hstops
  urgentFirst := by
    intro k hk hnew
    rw [after_succ hk] at hnew
    exact urgent_first (sound_after acts k) acts[k] hnew
  pos_le := fun k _ => (sound_after acts k).pos_le
  active := fun k _ => active_of_left (sound_after acts k)

end Emitter
end DeconzRest

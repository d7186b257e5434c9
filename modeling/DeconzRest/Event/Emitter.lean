import DeconzRest.Qt.Text

/-!
# Events and the event queue

`EventEmitter` keeps the events that are not yet delivered, oldest first, and
delivers the head; `m_queue` from `m_pos` on is the list `queue` here.  An event
that equals an undelivered one in all that `isDuplicate` compares is not queued
again.
-/

namespace DeconzRest

/-- `Event`, with the fields that the alarm system code and the event queue look
at; `dataSize` is `none` where `hasData()` is false. -/
structure Event where
  resource : String
  what : String
  id : QString := []
  num : Int := 0
  numPrevious : Int := 0
  deviceKey : Nat := 0
  dataSize : Option Nat := none
deriving DecidableEq, Repr

namespace EventEmitter

/-- `isDuplicate`: an undelivered event that agrees in all but the previous
number. -/
def isDuplicate (queue : List Event) (e : Event) : Bool :=
  queue.any fun x =>
    decide (e.deviceKey = x.deviceKey ∧ e.resource = x.resource ∧ e.what = x.what ∧ e.num = x.num ∧
      e.id = x.id ∧ e.dataSize = x.dataSize)

/-- `EventEmitter::enqueueEvent` of an event that is not urgent. -/
def enqueueEvent (queue : List Event) (e : Event) : List Event :=
  if isDuplicate queue e then queue else queue ++ [e]

def enqueueEvents (queue events : List Event) : List Event :=
  events.foldl enqueueEvent queue

/-- Some undelivered event is of the given kind. -/
def Pending (kind : String → String → Prop) (queue : List Event) : Prop :=
  ∃ x ∈ queue, kind x.resource x.what

variable {kind : String → String → Prop}

instance [∀ resource what, Decidable (kind resource what)] (queue : List Event) :
    Decidable (Pending kind queue) :=
  inferInstanceAs (Decidable (∃ x ∈ queue, kind x.resource x.what))

theorem pending_enqueueEvent (queue : List Event) (e : Event) :
    Pending kind (enqueueEvent queue e) ↔ Pending kind queue ∨ kind e.resource e.what := by
  unfold enqueueEvent
  by_cases hdup : isDuplicate queue e = true
  · rw [if_pos hdup]
    constructor
    · exact .inl
    · rintro (hpending | hkind)
      · exact hpending
      · obtain ⟨x, hx, hsame⟩ := List.any_eq_true.mp hdup
        obtain ⟨-, hresource, hwhat, -⟩ := of_decide_eq_true hsame
        rw [hresource, hwhat] at hkind
        exact ⟨x, hx, hkind⟩
  · rw [if_neg hdup]
    constructor
    · rintro ⟨x, hx, hkind⟩
      rcases List.mem_append.mp hx with hx | hx
      · exact .inl ⟨x, hx, hkind⟩
      · rw [List.mem_singleton.mp hx] at hkind
        exact .inr hkind
    · rintro (⟨x, hx, hkind⟩ | hkind)
      · exact ⟨x, List.mem_append_left _ hx, hkind⟩
      · exact ⟨e, List.mem_append_right _ List.mem_cons_self, hkind⟩

theorem pending_enqueueEvents (queue events : List Event) :
    Pending kind (enqueueEvents queue events) ↔ Pending kind queue ∨ Pending kind events := by
  induction events generalizing queue with
  | nil => simp [enqueueEvents, Pending]
  | cons e events ih =>
    have hcons : Pending kind (e :: events) ↔ kind e.resource e.what ∨ Pending kind events := by
      simp [Pending]
    have hstep : enqueueEvents queue (e :: events) =
        enqueueEvents (enqueueEvent queue e) events := rfl
    rw [hstep, ih, pending_enqueueEvent, hcons, or_assoc]

end EventEmitter

end DeconzRest

import DeconzRest.Binding.Machine

/-!
# The states of the binding level

What an event can do in a state: the handler stays, or it sets one of the `successors` of the
state, whose state enter event then waits; and it adds outputs of its own kind to the log.
Outside of the first state the state enter event waits exactly before it was delivered
(`Settled`).
-/

namespace DeconzRest
namespace BindingContext

def successors : BindingState → List BindingState
  | .binding => [.tableRead, .tableVerify]
  | .tableRead => [.binding, .tableVerify]
  | .tableVerify => [.binding, .create, .remove, .readReport]
  | .create => [.binding, .tableVerify]
  | .remove => [.binding, .idle]
  | .readReport => [.binding, .tableVerify, .readNextReport, .configureReporting]
  | .readNextReport => [.readReport]
  | .configureNextReport => [.configureReporting]
  | .configureReporting => [.binding, .tableVerify, .readNextReport, .configureNextReport]
  | .idle => [.binding]

def emits : BindingState → BindingOutput → Bool
  | .tableRead, .startTable | .tableRead, .mgmtBindReq _ => true
  | .tableVerify, .startReports => true
  | .create, .bindReq _ => true
  | .remove, .unbindReq _ => true
  | .readReport, .readReportConfiguration _ | .readReport, .accepted
  | .readReport, .nextBinding => true
  | .configureReporting, .configureReporting _ | .configureReporting, .acknowledged
  | .configureReporting, .nextBinding => true
  | _, _ => false

def Logs (s : BindingState) (c c' : BindingContext) : Prop :=
  ∃ out, c'.log = c.log ++ out ∧ ∀ o ∈ out, emits s o = true

structure Stays (s : BindingState) (c c' : BindingContext) : Prop where
  state : c'.state = c.state
  stateEnterLock : c'.stateEnterLock = c.stateEnterLock
  enters : c'.enters = c.enters
  logs : Logs s c c'

/-- A successor is set and its state enter event waits. -/
structure Moves (s : BindingState) (c c' : BindingContext) : Prop where
  state : ∃ s' ∈ successors s, c'.state = some s'
  stateEnterLock : c'.stateEnterLock = true
  enters : c'.enters = c.enters + 1
  logs : Logs s c c'

def Does (s : BindingState) (c c' : BindingContext) : Prop := Stays s c c' ∨ Moves s c c'

theorem not_mem_successors_self (s : BindingState) : s ∉ successors s := by
  cases s <;> decide

variable {s : BindingState} {c c' : BindingContext}

theorem logs_same (h : c'.log = c.log) : Logs s c c' :=
  ⟨[], by rw [h, List.append_nil], fun o ho => absurd ho List.not_mem_nil⟩

theorem logs_one {o : BindingOutput} (h : c'.log = c.log ++ [o]) (ho : emits s o = true) :
    Logs s c c' := by
  refine ⟨[o], h, fun o' ho' => ?_⟩
  rw [List.mem_singleton.mp ho']
  exact ho

theorem logs_two {o o' : BindingOutput} (h : c'.log = c.log ++ [o] ++ [o']) (ho : emits s o = true)
    (ho' : emits s o' = true) :
    Logs s c c' := by
  refine ⟨[o, o'], by rw [h, List.append_assoc]; rfl, ?_⟩
  rintro o'' (_ | ⟨_, _ | ⟨_, h⟩⟩)
  · exact ho
  · exact ho'
  · cases h

theorem Stays.refl (s : BindingState) (c : BindingContext) : Stays s c c :=
  ⟨rfl, rfl, rfl, logs_same rfl⟩

theorem Stays.setState {s s' : BindingState} (h : Stays s c c') (hstate : c.state = some s)
    (hs' : s' ∈ successors s) : Does s c (c'.setState s') := by
  have hne : c'.state ≠ some s' := by
    rw [h.state, hstate]
    intro hsame
    cases hsame
    exact not_mem_successors_self s hs'
  have hlog := (same_setState c' s').log
  refine .inr ⟨⟨s', hs', setState_state c' s'⟩, ?_, ?_, ?_⟩
  · unfold BindingContext.setState
    rw [if_neg hne]
  · unfold BindingContext.setState
    rw [if_neg hne]
    show c'.enters + 1 = c.enters + 1
    rw [h.enters]
  · obtain ⟨out, hout, hemits⟩ := h.logs
    exact ⟨out, by rw [hlog, hout], hemits⟩

theorem Stays.awaitConfirm (h : Stays s c c') (hstate : c.state = some s)
    (hs : .binding ∈ successors s) (isEnqueued : Bool) :
    Does s c (c'.awaitConfirm isEnqueued) := by
  unfold BindingContext.awaitConfirm
  split
  · exact .inl ⟨h.state, h.stateEnterLock, h.enters, h.logs⟩
  · exact h.setState hstate hs

theorem does_apsConfirm {c : BindingContext} (hstate : c.state = some s)
    (hs : .binding ∈ successors s) (apsReqId id status : UInt8) :
    Does s c (c.apsConfirm apsReqId id status) := by
  unfold apsConfirm
  split
  · split
    · exact .inl ⟨rfl, rfl, rfl, logs_same rfl⟩
    · exact (Stays.refl s c).setState hstate hs
  · exact .inl (Stays.refl s c)

theorem Does.enqueueTick (h : Does s c c') : Does s c c'.enqueueTick := by
  rcases h with hstays | hmoves
  · exact .inl ⟨hstays.state, hstays.stateEnterLock, hstays.enters, hstays.logs⟩
  · exact .inr ⟨hmoves.state, hmoves.stateEnterLock, hmoves.enters, hmoves.logs⟩

/-! ## The handlers -/

theorem does_bindingHandler {c : BindingContext} (hstate : c.state = some .binding)
    (e : BindingEvent) (w : World) : Does .binding c (c.bindingHandler e w) := by
  have hstart : Stays .binding c { c with bindingIter := 0 } := ⟨rfl, rfl, rfl, logs_same rfl⟩
  have hpoll : Does .binding c (c.bindingHandler .poll w) := by
    unfold bindingHandler
    simp only
    split
    · exact .inl (Stays.refl _ c)
    · split
      · exact .inl (Stays.refl _ c)
      · split
        · exact hstart.setState hstate (by decide)
        · exact hstart.setState hstate (by decide)
  cases e with
  | poll | bindingTick => exact hpoll
  | bindingTable status =>
    unfold bindingHandler
    simp only
    split
    · exact .inl ⟨rfl, rfl, rfl, logs_same rfl⟩
    · split
      · exact .inl ⟨rfl, rfl, rfl, logs_same rfl⟩
      · exact .inl (Stays.refl _ c)
  | apsConfirm | zdpMgmtBindResponse | zdpResponse | zclReadReportConfigResponse | zclResponse =>
    exact .inl (Stays.refl _ c)

theorem does_tableReadHandler {c : BindingContext} (hstate : c.state = some .tableRead)
    (e : BindingEvent) (w : World) : Does .tableRead c (c.tableReadHandler e w) := by
  cases e with
  | bindingTick =>
    unfold tableReadHandler
    simp only
    apply Stays.awaitConfirm
    · exact ⟨rfl, rfl, rfl, logs_one rfl rfl⟩
    · exact hstate
    · decide
  | apsConfirm id status => exact does_apsConfirm hstate (by decide) _ _ _
  | zdpMgmtBindResponse data =>
    unfold tableReadHandler mgmtBindResponse
    simp only
    split
    · exact .inl (Stays.refl _ c)
    · split
      · exact .inl (Stays.refl _ c)
      · split
        · split
          · exact .inl ⟨rfl, rfl, rfl, logs_same rfl⟩
          · refine Stays.setState ⟨rfl, rfl, rfl, ?_⟩ hstate (by decide)
            exact logs_same rfl
        · split
          · refine Stays.setState ⟨rfl, rfl, rfl, ?_⟩ hstate (by decide)
            exact logs_same rfl
          · exact (Stays.refl _ c).setState hstate (by decide)
  | poll | bindingTable | zdpResponse | zclReadReportConfigResponse | zclResponse =>
    exact .inl (Stays.refl _ c)

theorem does_verifyBinding (h : Stays .tableVerify c c') (hlog : c'.log = c.log)
    (hstate : c.state = some .tableVerify) (b : DdfBinding) (tBound : Int) (w : World) :
    Does .tableVerify c (c'.verifyBinding b tBound w) := by
  unfold verifyBinding
  split
  · exact h.setState hstate (by decide)
  · rename_i bnd confirmed _
    simp only
    split
    · refine Stays.setState ⟨h.state, h.stateEnterLock, h.enters, ?_⟩ hstate (by decide)
      exact logs_same hlog
    · cases bnd.dstAddressMode with
      | ext =>
        simp only
        refine Stays.setState ⟨h.state, h.stateEnterLock, h.enters, ?_⟩ hstate (by decide)
        apply logs_one
        · show c'.log ++ [.startReports] = c.log ++ [.startReports]
          rw [hlog]
        · rfl
      | group => exact .inl ⟨h.state, h.stateEnterLock, h.enters, logs_same hlog⟩
      | none => exact .inl ⟨h.state, h.stateEnterLock, h.enters, logs_same hlog⟩

theorem does_tableVerifyHandler {c : BindingContext} (hstate : c.state = some .tableVerify)
    (e : BindingEvent) (w : World) : Does .tableVerify c (c.tableVerifyHandler e w) := by
  cases e with
  | bindingTick =>
    unfold tableVerifyHandler
    simp only
    split
    · refine Stays.setState ⟨rfl, rfl, rfl, ?_⟩ hstate (by decide)
      exact logs_same rfl
    · split
      · split
        · exact (Stays.refl _ c).setState hstate (by decide)
        · exact .inl ⟨rfl, rfl, rfl, logs_same rfl⟩
        · apply does_verifyBinding
          · exact ⟨rfl, rfl, rfl, logs_same rfl⟩
          · rfl
          · exact hstate
      · exact .inl ⟨rfl, rfl, rfl, logs_same rfl⟩
  | poll | bindingTable | apsConfirm | zdpMgmtBindResponse | zdpResponse
  | zclReadReportConfigResponse | zclResponse => exact .inl (Stays.refl _ c)

theorem does_createHandler {c : BindingContext} (hstate : c.state = some .create)
    (e : BindingEvent) (w : World) : Does .create c (c.createHandler e w) := by
  cases e with
  | apsConfirm id status => exact does_apsConfirm hstate (by decide) _ _ _
  | zdpResponse seq status =>
    unfold createHandler
    simp only
    split
    · split
      · split
        · refine Stays.setState ⟨rfl, rfl, rfl, ?_⟩ hstate (by decide)
          exact logs_same rfl
        · exact .inl ⟨rfl, rfl, rfl, logs_same rfl⟩
      · exact (Stays.refl _ c).setState hstate (by decide)
    · exact .inl (Stays.refl _ c)
  | poll | bindingTick | bindingTable | zdpMgmtBindResponse | zclReadReportConfigResponse
  | zclResponse => exact .inl (Stays.refl _ c)

theorem does_createEnter {c : BindingContext} (hstate : c.state = some .create) (w : World) :
    Does .create c (c.createEnter w) := by
  unfold createEnter
  split
  · apply Stays.awaitConfirm
    · exact ⟨rfl, rfl, rfl, logs_one rfl rfl⟩
    · exact hstate
    · decide
  · exact .inl ⟨rfl, rfl, rfl, logs_same rfl⟩

theorem does_removeEnter {c : BindingContext} (hstate : c.state = some .remove) (w : World) :
    Does .remove c (c.removeEnter w) := by
  unfold removeEnter
  split
  · exact (Stays.refl _ c).setState hstate (by decide)
  · apply Stays.awaitConfirm
    · exact ⟨rfl, rfl, rfl, logs_one rfl rfl⟩
    · exact hstate
    · decide

theorem does_removeHandler {c : BindingContext} (hstate : c.state = some .remove)
    (e : BindingEvent) : Does .remove c (c.removeHandler e) := by
  cases e with
  | apsConfirm id status => exact does_apsConfirm hstate (by decide) _ _ _
  | zdpResponse seq status =>
    unfold removeHandler
    simp only
    split
    · exact ((Stays.refl _ c).setState hstate (by decide)).enqueueTick
    · exact .inl (Stays.refl _ c)
  | poll | bindingTick | bindingTable | zdpMgmtBindResponse | zclReadReportConfigResponse
  | zclResponse => exact .inl (Stays.refl _ c)

theorem does_readReportEnter {c : BindingContext} (hstate : c.state = some .readReport)
    (w : World) : Does .readReport c (c.readReportEnter w) := by
  unfold readReportEnter
  split
  · exact .inl ⟨rfl, rfl, rfl, logs_same rfl⟩
  · simp only
    split
    · refine Stays.setState ⟨rfl, rfl, rfl, ?_⟩ hstate (by decide)
      exact logs_one rfl rfl
    · split
      · refine Stays.setState ⟨rfl, rfl, rfl, ?_⟩ hstate (by decide)
        exact logs_one rfl rfl
      · apply Stays.awaitConfirm
        · exact ⟨rfl, rfl, rfl, logs_one rfl rfl⟩
        · exact hstate
        · decide

theorem does_readReportHandler {c : BindingContext} (hstate : c.state = some .readReport)
    (e : BindingEvent) (w : World) : Does .readReport c (c.readReportHandler e w) := by
  cases e with
  | apsConfirm id status => exact does_apsConfirm hstate (by decide) _ _ _
  | zclReadReportConfigResponse rsp =>
    unfold readReportHandler
    simp only
    split
    · exact .inl ⟨rfl, rfl, rfl, logs_same rfl⟩
    · split
      · split
        · refine Stays.setState ⟨rfl, rfl, rfl, ?_⟩ hstate (by decide)
          exact logs_one rfl rfl
        · refine Stays.setState ⟨rfl, rfl, rfl, ?_⟩ hstate (by decide)
          exact logs_two rfl rfl rfl
      · exact (Stays.refl _ c).setState hstate (by decide)
  | poll | bindingTick | bindingTable | zdpMgmtBindResponse | zdpResponse | zclResponse =>
    exact .inl (Stays.refl _ c)

theorem does_configureEnter {c : BindingContext} (hstate : c.state = some .configureReporting)
    (w : World) : Does .configureReporting c (c.configureEnter w) := by
  unfold configureEnter
  split
  · exact .inl ⟨rfl, rfl, rfl, logs_same rfl⟩
  · simp only
    split
    · refine Stays.setState ⟨rfl, rfl, rfl, ?_⟩ hstate (by decide)
      exact logs_same rfl
    · apply Stays.awaitConfirm
      · exact ⟨rfl, rfl, rfl, logs_one rfl rfl⟩
      · exact hstate
      · decide

theorem does_configureHandler {c : BindingContext} (hstate : c.state = some .configureReporting)
    (e : BindingEvent) : Does .configureReporting c (c.configureHandler e) := by
  cases e with
  | apsConfirm id status => exact does_apsConfirm hstate (by decide) _ _ _
  | zclResponse seq status =>
    unfold configureHandler
    simp only
    split
    · split
      · split
        · exact .inl ⟨rfl, rfl, rfl, logs_same rfl⟩
        · split
          · refine Stays.setState ⟨rfl, rfl, rfl, ?_⟩ hstate (by decide)
            exact logs_one rfl rfl
          · split
            · refine Stays.setState ⟨rfl, rfl, rfl, ?_⟩ hstate (by decide)
              exact logs_one rfl rfl
            · refine Stays.setState ⟨rfl, rfl, rfl, ?_⟩ hstate (by decide)
              exact logs_two rfl rfl rfl
      · exact (Stays.refl _ c).setState hstate (by decide)
    · exact .inl (Stays.refl _ c)
  | poll | bindingTick | bindingTable | zdpMgmtBindResponse | zdpResponse
  | zclReadReportConfigResponse => exact .inl (Stays.refl _ c)

/-- **What an event can do.** -/
theorem does_handle {c : BindingContext} (hstate : c.state = some s) (e : BindingEvent) (w : World)
    : Does s c (c.handle e w) := by
  unfold handle
  rw [hstate]
  cases s with
  | readNextReport | configureNextReport | idle => exact .inl (Stays.refl _ c)
  | binding => exact does_bindingHandler hstate e w
  | tableRead => exact does_tableReadHandler hstate e w
  | tableVerify => exact does_tableVerifyHandler hstate e w
  | create => exact does_createHandler hstate e w
  | remove => exact does_removeHandler hstate e
  | readReport => exact does_readReportHandler hstate e w
  | configureReporting => exact does_configureHandler hstate e

/-- **What a state enter event can do.** -/
theorem does_enter {c : BindingContext} (hstate : c.state = some s) (w : World) :
    Does s c (c.enter w) := by
  unfold enter
  rw [hstate]
  cases s with
  | binding => exact .inl (Stays.refl _ c)
  | tableRead => exact .inl ⟨rfl, rfl, rfl, logs_one rfl rfl⟩
  | tableVerify | idle => exact .inl ⟨rfl, rfl, rfl, logs_same rfl⟩
  | create => exact does_createEnter hstate w
  | remove => exact does_removeEnter hstate w
  | readReport => exact does_readReportEnter hstate w
  | readNextReport => exact (Stays.refl _ c).setState hstate (by decide)
  | configureNextReport => exact (Stays.refl _ c).setState hstate (by decide)
  | configureReporting => exact does_configureEnter hstate w

/-- The event is taken from the queue: a tick was waiting, and is no more. -/
structure Dequeued (c : BindingContext) (e : BindingEvent) (c' : BindingContext) : Prop where
  eq : c' = { c with tick := c.tick && e ≠ .bindingTick }
  waits : e = .bindingTick → c.tick = true

/-- What becomes of an event of the queue. -/
inductive Delivered (c : BindingContext) (e : BindingEvent) (w : World) : BindingContext → Prop
  | waits : Delivered c e w c
  | skipped {c' : BindingContext} (h : Dequeued c e c') : Delivered c e w c'
  | handled {c' : BindingContext} (h : Dequeued c e c') (henters : c.enters = 0)
      (hlock : c'.stateEnterLock = false) : Delivered c e w (c'.handle e w)

theorem dequeued_of_some {e : BindingEvent} (h : c.dequeue e = some c') : Dequeued c e c' := by
  have hother : e ≠ .bindingTick → c' = c → c' = { c with tick := c.tick && e ≠ .bindingTick } := by
    intro he hc
    rw [hc]
    simp [he]
  cases e with
  | bindingTick =>
    unfold dequeue at h
    simp only at h
    split at h
    · rename_i htick
      cases h
      exact ⟨by simp, fun _ => htick⟩
    · cases h
  | poll | bindingTable | apsConfirm | zdpMgmtBindResponse | zdpResponse
  | zclReadReportConfigResponse | zclResponse =>
    cases h
    exact ⟨hother (by simp) rfl, fun he => by cases he⟩

/-- **What becomes of an event of the queue.** -/
theorem handleEvent_delivered (c : BindingContext) (e : BindingEvent) (w : World) :
    Delivered c e w (c.handleEvent e w) := by
  unfold handleEvent
  split
  · exact .waits
  · rename_i henters
    split
    · exact .waits
    · rename_i c' hdequeue
      have hdequeued := dequeued_of_some hdequeue
      split
      · exact .skipped hdequeued
      · rename_i hlock
        exact .handled hdequeued (not_not.mp henters) (by simpa using hlock)

/-! ## State enter events -/

/-- The state enter event of a state waits exactly before it was delivered.  In the first
state more of them can wait, which it ignores. -/
def Settled (c : BindingContext) : Prop :=
  ∀ s, c.state = some s → s ≠ .binding → c.enters = if c.stateEnterLock then 1 else 0

theorem settled_setState_binding (c : BindingContext) : Settled (c.setState .binding) := by
  intro s hs hother
  rw [setState_state, Option.some.injEq] at hs
  exact absurd hs.symm hother

theorem settled_of_none {c : BindingContext} (h : c.state = none) : Settled c := by
  intro s hs
  rw [h] at hs
  cases hs

theorem settled_does (henters : c.enters = 0) (hlock : c.stateEnterLock = false)
    (hdoes : Does s c c') : Settled c' := by
  intro s' _ _
  rcases hdoes with hstays | hmoves
  · rw [hstays.enters, hstays.stateEnterLock, henters, hlock]
    rfl
  · rw [hmoves.enters, hmoves.stateEnterLock, henters]
    rfl

theorem enter_eq_self {c : BindingContext} (h : c.state = none ∨ c.state = some .binding)
    (w : World) : c.enter w = c := by
  unfold enter
  rcases h with hnone | hbinding
  · rw [hnone]
  · rw [hbinding]

theorem settled_enter {c : BindingContext} (hlock : c.stateEnterLock = false)
    (henters : ∀ s, c.state = some s → s ≠ .binding → c.enters = 0) (w : World) :
    Settled (c.enter w) := by
  cases hstate : c.state with
  | none =>
    rw [enter_eq_self (.inl hstate)]
    exact settled_of_none hstate
  | some s =>
    by_cases hs : s = .binding
    · rw [hs] at hstate
      rw [enter_eq_self (.inr hstate)]
      intro s' hs' hother
      rw [hstate, Option.some.injEq] at hs'
      exact absurd hs'.symm hother
    · exact settled_does (henters s hstate hs) hlock (does_enter hstate w)

theorem settled_step {c : BindingContext} (h : Settled c) (a : BindingAction) :
    Settled (c.step a) := by
  cases a with
  | stateEnter w =>
    unfold step stateEnter
    simp only
    split
    · exact h
    · rename_i hwaits
      apply settled_enter
      · rfl
      · intro s hs hother
        -- one waits at most, and it is delivered now
        show c.enters - 1 = 0
        have henters := h s hs hother
        split at henters
        · omega
        · omega
  | event e w =>
    have hdelivered := handleEvent_delivered c e w
    unfold step
    simp only
    generalize c.handleEvent e w = c'' at hdelivered
    cases hdelivered with
    | waits => exact h
    | skipped hdequeued =>
      rw [hdequeued.eq]
      exact h
    | @handled c' hdequeued henters hlock =>
      cases hstate : c'.state with
      | none =>
        unfold handle
        rw [hstate]
        exact settled_of_none hstate
      | some s =>
        have hnone : c'.enters = 0 := by
          rw [hdequeued.eq]
          exact henters
        exact settled_does hnone hlock (does_handle hstate e w)
  | timeout =>
    unfold step stateTimeout
    simp only
    split
    · split
      · exact h
      · split
        · exact settled_setState_binding _
        · exact h
    · exact h
  | idleEnter => exact settled_setState_binding _
  | idleLeave | ddfReload => exact settled_of_none rfl
  | clearBindings =>
    unfold step clearBindings
    simp only
    split
    · exact h
    · exact settled_setState_binding _
  | addBinding bnd =>
    unfold step addBinding
    simp only
    split
    · exact h
    · exact h
  | setSupportsMgmtBind supported => exact h

end BindingContext
end DeconzRest

import DeconzRest.Alarm.Invariant

/-!
# Requests for a target arm mode

An accepted request does not change the target state: it writes `config/armmode`
and leaves an event in the queue, and the state machine follows when that event
is delivered.  `ArmWorld` is one alarm system with the queue of its events, so a
run is any interleaving of requests (REST calls and keypads), deliveries, timer
ticks and events of other parts of the program.

While an arm mode event waits, the mode that the target state is going to be is
`prospect`; without one the target state is the prospect (`Settled`).  Every
step but an accepted request keeps the prospect, and an accepted request sets it
to its mode, unless the request is skipped because it asks for the present
target state.
-/

namespace DeconzRest

open Transition

/-- `handleArmCommand` of the keypad code; the result is the arm notification. -/
def AlarmSystem.handleArmCommand (as : AlarmSystem) (armMode : Nat) (validCode : Bool) :
    AlarmSystem × Nat :=
  if 3 < armMode then
    (as, 5)
  else if validCode = false then
    (as, 4)
  else if as.targetState.toNat = 0 ∧ armMode = as.targetState.toNat then
    (as, 6)
  else if as.targetState.toNat ≠ armMode then
    ((as.setTargetArmMode armMode).1, armMode)
  else
    (as, armMode)

structure ArmWorld where
  as : AlarmSystem
  queue : List Event

/-- What can happen: a request by REST or by a keypad, an event queued by another
part of the program, the delivery of the oldest event, a tick of the timer. -/
inductive ArmAction where
  | setTargetArmMode (mode : Nat)
  | keypad (armMode : Nat) (validCode : Bool)
  | enqueue (event : Event)
  | deliver (now : Int)
  | timerFired (now : Int)
deriving DecidableEq, Repr

namespace ArmWorld

/-- The world after the alarm system became `as`, with what it emitted queued. -/
def absorb (queue : List Event) (as : AlarmSystem) : ArmWorld where
  as := { as with emitted := [] }
  queue := EventEmitter.enqueueEvents queue as.emitted

def step (w : ArmWorld) : ArmAction → ArmWorld
  | .setTargetArmMode mode => absorb w.queue (w.as.setTargetArmMode mode).1
  | .keypad armMode validCode => absorb w.queue (w.as.handleArmCommand armMode validCode).1
  | .enqueue event => { w with queue := EventEmitter.enqueueEvent w.queue event }
  | .deliver now =>
    match w.queue with
    | [] => w
    | event :: rest => absorb rest (w.as.handleEvent now event)
  | .timerFired now => absorb w.queue (w.as.timerFired now)

/-- The call of `setTargetArmMode` that returns true in this action, if there is
one: its mode. -/
def accepted (w : ArmWorld) : ArmAction → Option ArmMode
  | .setTargetArmMode mode => ArmMode.ofNat? mode
  | .keypad armMode validCode =>
    if validCode = true ∧ w.as.targetState.toNat ≠ armMode then ArmMode.ofNat? armMode else none
  | _ => none

/-- The alarm systems of a program that starts: the default one, constructed, and
those loaded from the database. -/
inductive Initial : AlarmSystem → Prop
  | default (id : Nat) : Initial (AlarmSystem.new id)
  | loaded (id : Nat) (rows : List AlarmSystem.DbItem) (configured : Bool) :
      Initial (AlarmSystem.started id rows configured)

def launch (as : AlarmSystem) : ArmWorld := absorb [] as

/-- The mode that `config/armmode` asks for. -/
def requested (as : AlarmSystem) : Option ArmMode := ArmMode.fromString (as.text .armMode)

/-- The target state once all arm mode events are delivered. -/
def prospect (w : ArmWorld) : ArmMode := (requested w.as).getD w.as.targetState

def ArmModePending (queue : List Event) : Prop :=
  EventEmitter.Pending (fun resource what => resource = rAlarmSystems ∧ what = rConfigArmMode)
    queue

instance (queue : List Event) : Decidable (ArmModePending queue) :=
  inferInstanceAs (Decidable (EventEmitter.Pending _ queue))

/-- A request that asks for the present target state is skipped; it is lost when
another mode is already requested. -/
def Lost (w : ArmWorld) (mode : ArmMode) : Prop :=
  w.as.targetState = mode ∧ ∃ other, requested w.as = some other ∧ other ≠ mode

/-- Nothing is left in `emitted`, and without a waiting arm mode event the target
state is the prospect. -/
structure Settled (w : ArmWorld) : Prop where
  emitted : w.as.emitted = []
  target : ¬ ArmModePending w.queue → w.as.targetState = w.prospect

section Event

variable {as : AlarmSystem} {now : Int} {event : Event}

theorem handleEvent_requested : requested (as.handleEvent now event) = requested as :=
  congrArg AlarmSystem.AlarmEnv.requested (AlarmSystem.handleEvent_env now event as)

theorem handleEvent_target_of_armMode (h : AlarmSystem.IsArmModeEvent event) :
    (as.handleEvent now event).targetState = (requested as).getD as.targetState := by
  have hstep := AlarmSystem.handleEvent_controlStep now event as
  cases hreq : requested as with
  | none =>
    have hnot : ¬ (AlarmSystem.IsArmModeEvent event ∧ as.env.requested.isSome) := by
      rintro ⟨-, hsome⟩
      have hnone : as.env.requested = none := hreq
      rw [hnone] at hsome
      exact Bool.noConfusion hsome
    exact (hstep.of_not_load hnot).2.2
  | some mode => exact hstep.target_of_requested h hreq

theorem handleEvent_target_of_other (h : ¬ AlarmSystem.IsArmModeEvent event) :
    (as.handleEvent now event).targetState = as.targetState :=
  ((AlarmSystem.handleEvent_controlStep now event as).of_not_load fun hload => h hload.1).2.2

theorem handleEvent_not_armModePending (hempty : as.emitted = []) :
    ¬ ArmModePending (as.handleEvent now event).emitted := by
  obtain ⟨events, heq, hown⟩ := (AlarmSystem.handleEvent_writesState now event as).emitted
  rw [heq, hempty, List.nil_append]
  rintro ⟨e, he, -, hwhat⟩
  obtain ⟨i, hi, hsuffix⟩ := hown e he
  rw [hwhat] at hsuffix
  rcases hi with rfl | rfl <;> exact absurd hsuffix (by decide)

end Event

/-! ## What one action does to the prospect -/

theorem absorb_eq_self {w : ArmWorld} (hempty : w.as.emitted = []) : absorb w.queue w.as = w := by
  unfold absorb
  rw [hempty, EventEmitter.enqueueEvents, List.foldl_nil, ← hempty]

theorem absorb_handleEvent (queue : List Event) (as : AlarmSystem) (now : Int) (event : Event)
    (hempty : as.emitted = []) :
    (absorb queue (as.handleEvent now event)).prospect = (requested as).getD as.targetState ∧
      (ArmModePending (absorb queue (as.handleEvent now event)).queue ↔ ArmModePending queue) := by
  constructor
  · show (requested (as.handleEvent now event)).getD (as.handleEvent now event).targetState = _
    rw [handleEvent_requested]
    by_cases harm : AlarmSystem.IsArmModeEvent event
    · rw [handleEvent_target_of_armMode harm]
      cases requested as <;> rfl
    · rw [handleEvent_target_of_other harm]
  · show EventEmitter.Pending _ (EventEmitter.enqueueEvents _ _) ↔ _
    rw [EventEmitter.pending_enqueueEvents]
    have hnone : ¬ ArmModePending (as.handleEvent now event).emitted :=
      handleEvent_not_armModePending hempty
    exact ⟨fun h => h.resolve_right hnone, .inl⟩

theorem setTargetArmMode_cases (as : AlarmSystem) {n : Nat} {mode : ArmMode}
    (h : ArmMode.ofNat? n = some mode) :
    (mode = as.targetState ∧ (as.setTargetArmMode n).1 = as) ∨
      (mode ≠ as.targetState ∧ requested as = some mode ∧ (as.setTargetArmMode n).1 = as) ∨
      (mode ≠ as.targetState ∧ (as.setTargetArmMode n).1.targetState = as.targetState ∧
        requested (as.setTargetArmMode n).1 = some mode ∧
        ∃ e, (as.setTargetArmMode n).1.emitted = as.emitted ++ [e] ∧
          AlarmSystem.IsArmModeEvent e) := by
  unfold AlarmSystem.setTargetArmMode
  rw [h]
  by_cases hsame : mode = as.targetState
  · exact .inl ⟨hsame, by simp [hsame]⟩
  · refine .inr ?_
    simp only [hsame, if_false, AlarmSystem.setText]
    by_cases htext : as.text .armMode = mode.toString
    · refine .inl ⟨hsame, ?_, by simp [htext]⟩
      rw [requested, htext, ArmMode.fromString_toString]
    · refine .inr ⟨hsame, ?_, ?_, ?_⟩
      · simp [htext]
      · simp [htext, requested, ResourceItem.setString]
      · simp only [ne_eq, htext, not_false_eq_true, if_true]
        exact ⟨_, rfl, rfl, rfl⟩

theorem setTargetArmMode_invalid (as : AlarmSystem) {n : Nat} (h : ArmMode.ofNat? n = none) :
    (as.setTargetArmMode n).1 = as := by
  unfold AlarmSystem.setTargetArmMode
  rw [h]

theorem handleArmCommand_eq (as : AlarmSystem) (armMode : Nat) (validCode : Bool) :
    (as.handleArmCommand armMode validCode).1 = if validCode = true ∧ as.targetState.toNat ≠
      armMode then
        (as.setTargetArmMode armMode).1
      else
        as := by
  have hlarge : 3 < armMode → (as.setTargetArmMode armMode).1 = as := by
    intro h
    refine setTargetArmMode_invalid as ?_
    exact List.getElem?_eq_none h
  unfold AlarmSystem.handleArmCommand
  by_cases hbig : 3 < armMode
  · simp [hbig, hlarge hbig]
  · cases validCode with
    | false => simp [hbig]
    | true =>
      by_cases hsame : as.targetState.toNat = armMode
      · by_cases hzero : armMode = 0
        · simp [hsame, hzero]
        · simp [hbig, hsame, hzero]
      · have hsame' : ¬ armMode = as.targetState.toNat := fun h => hsame h.symm
        simp [hbig, hsame, hsame']

/-- The prospect after the call of `setTargetArmMode` that an action makes. -/
def prospectAfter (w : ArmWorld) : Option ArmMode → ArmMode
  | none => w.prospect
  | some mode => if mode = w.as.targetState then w.prospect else mode

theorem Settled.setTargetArmMode {w : ArmWorld} (hw : w.Settled) (n : Nat) :
    (absorb w.queue (w.as.setTargetArmMode n).1).Settled ∧
      (absorb w.queue (w.as.setTargetArmMode n).1).prospect =
        w.prospectAfter (ArmMode.ofNat? n) := by
  cases h : ArmMode.ofNat? n with
  | none =>
    rw [setTargetArmMode_invalid w.as h, absorb_eq_self hw.emitted]
    exact ⟨hw, rfl⟩
  | some mode =>
    rcases setTargetArmMode_cases w.as h with
      ⟨hsame, heq⟩ | ⟨hne, hreq, heq⟩ | ⟨hne, htarget, hreq, e, hemitted, harm⟩
    · rw [heq, absorb_eq_self hw.emitted]
      exact ⟨hw, by rw [prospectAfter, if_pos hsame]⟩
    · rw [heq, absorb_eq_self hw.emitted]
      refine ⟨hw, ?_⟩
      rw [prospectAfter, if_neg hne, prospect, hreq]
      rfl
    · -- the written mode is the prospect, and its event waits
      have hpending : ArmModePending (absorb w.queue (w.as.setTargetArmMode n).1).queue := by
        refine (EventEmitter.pending_enqueueEvents _ _).mpr (.inr ?_)
        rw [hemitted]
        exact ⟨e, List.mem_append_right _ List.mem_cons_self, harm⟩
      refine ⟨{ emitted := rfl, target := fun hnone => absurd hpending hnone }, ?_⟩
      rw [prospectAfter, if_neg hne]
      show (requested (w.as.setTargetArmMode n).1).getD _ = mode
      rw [hreq]
      rfl

theorem Settled.handleEvent {w : ArmWorld} (hw : w.Settled) (now : Int) (event : Event)
    (queue : List Event)
    (htarget : ¬ ArmModePending queue → (w.as.handleEvent now event).targetState = w.prospect) :
    (absorb queue (w.as.handleEvent now event)).Settled ∧
      (absorb queue (w.as.handleEvent now event)).prospect = w.prospect := by
  obtain ⟨hprospect, hpending⟩ := absorb_handleEvent queue w.as now event hw.emitted
  refine ⟨{ emitted := rfl, target := ?_ }, hprospect⟩
  intro hnone
  rw [hpending] at hnone
  rw [hprospect]
  exact htarget hnone

/-- **One action.**  It keeps the world settled, and the prospect changes only by
an accepted request. -/
theorem Settled.step {w : ArmWorld} (hw : w.Settled) (act : ArmAction) :
    (w.step act).Settled ∧ (w.step act).prospect = w.prospectAfter (w.accepted act) := by
  cases act with
  | setTargetArmMode mode => exact hw.setTargetArmMode mode
  | keypad armMode validCode =>
    unfold ArmWorld.step accepted
    simp only
    rw [handleArmCommand_eq]
    by_cases hcall : validCode = true ∧ w.as.targetState.toNat ≠ armMode
    · rw [if_pos hcall, if_pos hcall]
      exact hw.setTargetArmMode armMode
    · rw [if_neg hcall, if_neg hcall, absorb_eq_self hw.emitted]
      exact ⟨hw, rfl⟩
  | enqueue event =>
    refine ⟨{ emitted := hw.emitted, target := ?_ }, rfl⟩
    intro hnone
    refine hw.target fun hpending => hnone ?_
    exact (EventEmitter.pending_enqueueEvent _ _).mpr (.inl hpending)
  | deliver now =>
    unfold ArmWorld.step accepted
    cases hqueue : w.queue with
    | nil => exact ⟨hw, rfl⟩
    | cons event rest =>
      refine hw.handleEvent now event rest ?_
      intro hnone
      by_cases harm : AlarmSystem.IsArmModeEvent event
      · exact handleEvent_target_of_armMode harm
      · rw [handleEvent_target_of_other harm]
        refine hw.target ?_
        rw [hqueue]
        rintro ⟨x, hx, hkind⟩
        rcases List.mem_cons.mp hx with rfl | hx
        · exact harm hkind
        · exact hnone ⟨x, hx, hkind⟩
  | timerFired now =>
    refine hw.handleEvent now _ w.queue ?_
    intro hnone
    rw [handleEvent_target_of_other (by decide)]
    exact hw.target hnone

/-! ## Whole runs -/

theorem start_targetState (configured : Bool) (as : AlarmSystem) :
    (AlarmSystem.start configured as).targetState = (requested as).getD as.targetState := by
  have hpublish : ∀ bs : AlarmSystem, bs.updateArmStateAndPanelStatus.targetState =
      bs.targetState := fun bs =>
    congrArg (fun c : AlarmSystem.Control => c.d.targetState)
      (AlarmSystem.updateArmStateAndPanelStatus_control bs)
  unfold AlarmSystem.start requested
  cases ArmMode.fromString (as.text .armMode) with
  | none => exact hpublish as
  | some mode => cases mode <;> exact (hpublish _).trans (hpublish _)

theorem start_requested (configured : Bool) (as : AlarmSystem) :
    requested (AlarmSystem.start configured as) = requested as := by
  have hpublish : ∀ bs : AlarmSystem, requested bs.updateArmStateAndPanelStatus = requested bs :=
    fun bs => congrArg AlarmSystem.AlarmEnv.requested
      (AlarmSystem.updateArmStateAndPanelStatus_writesState bs).env_eq
  have hset : ∀ (bs : AlarmSystem) (it : ResourceItem), requested (bs.setItem .configured it) =
      requested bs := by
    intro bs it
    simp [requested]
  unfold AlarmSystem.start
  simp only [hset]
  cases hmode : ArmMode.fromString (as.text .armMode) with
  | none => exact hpublish as
  | some mode => cases mode <;> exact (hpublish _).trans (hpublish _)

theorem launch_settled {as : AlarmSystem} (h : Initial as) : (launch as).Settled := by
  refine { emitted := rfl, target := fun _ => ?_ }
  show as.targetState = (requested as).getD as.targetState
  cases h with
  | default id => rfl
  | loaded id rows configured =>
    unfold AlarmSystem.started
    rw [start_requested, start_targetState]
    cases requested _ <;> rfl

theorem run_settled {w : ArmWorld} (hw : w.Settled) (acts : List ArmAction) :
    (run step w acts).Settled ∧ ∀ mode before, lastWhere step accepted w acts none =
      some (mode, before) → (run step w acts).prospect = before.prospectAfter (some mode) := by
  induction acts using List.reverseRecOn with
  | nil =>
    refine ⟨hw, ?_⟩
    intro mode before h
    simp [lastWhere] at h
  | append_singleton acts act ih =>
    obtain ⟨hsettled, hprospect⟩ := ih
    obtain ⟨hsettled', hprospect'⟩ := hsettled.step act
    rw [run_concat, lastWhere_concat]
    refine ⟨hsettled', ?_⟩
    intro mode before hlast
    rw [hprospect']
    cases hobs : accepted (run step w acts) act with
    | none =>
      rw [hobs] at hlast
      exact hprospect mode before hlast
    | some m =>
      rw [hobs] at hlast
      obtain ⟨rfl, rfl⟩ : m = mode ∧ run step w acts = before := by
        simpa using hlast
      rfl

theorem prospectAfter_eq_iff (w : ArmWorld) (mode : ArmMode) :
    w.prospectAfter (some mode) = mode ↔ ¬ w.Lost mode := by
  unfold prospectAfter Lost prospect
  by_cases hsame : mode = w.as.targetState
  · simp only [hsame, if_true, true_and]
    cases requested w.as with
    | none => simp
    | some other => simp
  · have hsame' : ¬ w.as.targetState = mode := fun h => hsame h.symm
    simp [hsame, hsame']

/-- **When the last request wins.**  In every run in which no arm mode event is left
undelivered, the target state is the mode of the last accepted request exactly
when that request was not made for the then present target state while another
mode was requested. -/
theorem last_request_wins_iff {as : AlarmSystem} (h : Initial as) (acts : List ArmAction)
    {mode : ArmMode} {before : ArmWorld}
    (hlast : lastWhere step accepted (launch as) acts none = some (mode, before))
    (hdelivered : ¬ ArmModePending (run step (launch as) acts).queue) :
    (run step (launch as) acts).as.targetState = mode ↔ ¬ before.Lost mode := by
  obtain ⟨hsettled, hprospect⟩ := run_settled (launch_settled h) acts
  rw [hsettled.target hdelivered, hprospect mode before hlast]
  exact prospectAfter_eq_iff before mode

def armThenDisarm : List ArmAction :=
  [.setTargetArmMode 3, .setTargetArmMode 0, .deliver 0]

theorem last_request_wins_iff_armThenDisarm :
    (run step (launch (AlarmSystem.new 1)) armThenDisarm).as.targetState = .disarmed ↔
      ¬ (step (launch (AlarmSystem.new 1)) (.setTargetArmMode 3)).Lost .disarmed :=
  last_request_wins_iff (.default 1) armThenDisarm rfl (by decide)

/-- The last request does not always win: after `armThenDisarm` the accepted disarm
request is forgotten, and the alarm system is armed away. -/
theorem disarm_request_lost :
    ¬ ∀ (as : AlarmSystem), Initial as → ∀ (acts : List ArmAction) (mode : ArmMode)
        (before : ArmWorld),
        lastWhere step accepted (launch as) acts none = some (mode, before) →
        ¬ ArmModePending (run step (launch as) acts).queue →
        (run step (launch as) acts).as.targetState = mode := by
  intro hclaim
  have htarget := hclaim (AlarmSystem.new 1) (.default 1) armThenDisarm .disarmed _ rfl (by decide)
  have haway : (run step (launch (AlarmSystem.new 1)) armThenDisarm).as.targetState =
      .armedAway := by decide
  rw [haway] at htarget
  exact ArmMode.noConfusion htarget

end ArmWorld
end DeconzRest

import DeconzRest.Alarm.Control

/-!
# What holds in every reachable state of an alarm system

`alarmStep` runs an alarm system on events (arm mode changes, timer ticks at any
time, device alarms, anything else), on requests for a target arm mode and on
changes of the configured delays.  `Control.Consistent` ties the timer, the
target state, the event mask and the panel status to the current state; every
step of the control machine keeps it, so every run from `started` has it.
-/

namespace DeconzRest

/-- The states in which the state timer runs. -/
def AlarmState.timed : AlarmState → Bool
  | .exitDelay | .entryDelay | .inAlarm | .arming => true
  | .disarmed | .armed => false

/-- The states that only an armed target leads to. -/
def AlarmState.guarded : AlarmState → Bool
  | .armed | .arming | .entryDelay | .inAlarm => true
  | .disarmed | .exitDelay => false

/-- What may happen to an alarm system after it was started. -/
inductive AlarmAction (D : Type) where
  | event (now : Int) (event : Event)
  | setTargetArmMode (mode : Nat)
  | setDelay (i : AlarmItem) (val : QVariant D)

namespace AlarmSystem

variable {D : Type}

/-- One action; `setDelay` reaches only the delay items. -/
def alarmStep (qt : Qt D) (as : AlarmSystem) : AlarmAction D → AlarmSystem
  | .event now event => as.handleEvent now event
  | .setTargetArmMode mode => (as.setTargetArmMode mode).1
  | .setDelay i val => if i.isDelay then (setVariant qt as i val).1 else as

/-- The timer runs exactly in the timed states, a guarded state has an armed
target, the mask is the target's mask, and the panel shows the status of the
state and its target. -/
structure Control.Consistent (c : Control) : Prop where
  timer : c.d.timerActive = c.d.curState.timed
  target : c.d.curState.guarded = true → c.d.targetState ≠ .disarmed
  mask : c.d.armMask = targetArmMask c.d.targetState
  panel : (panelStatus c.d.curState c.d.targetState).map PanelStatus.code = some c.status

theorem panelStatus_armStateStatus (state : AlarmState) (target : ArmMode) (present : Int)
    (h : state.guarded = true → target ≠ .disarmed) :
    (panelStatus state target).map PanelStatus.code =
      some (armStateStatus state target present) := by
  cases state <;> cases target <;>
    first
    | rfl
    | exact absurd rfl (h rfl)

variable (as : AlarmSystem)

theorem Control.Consistent.step {env : AlarmEnv} {now : Int} {event : Event} {c c' : Control}
    (hc : c.Consistent) (hstep : ControlStep env now event c c') : c'.Consistent := by
  cases hstep with
  | ignored => exact hc
  | reloaded harm hreq =>
    exact { timer := hc.timer, target := hc.target, mask := rfl, panel := hc.panel }
  | retargeted mode harm hreq hne =>
    exact { timer := rfl, target := fun h => Bool.noConfusion h, mask := rfl, panel := rfl }
  | exitToDisarmed harm hev hs hdt htarget =>
    exact { timer := rfl, target := fun h => Bool.noConfusion h, mask := hc.mask, panel := rfl }
  | exitToArming harm hev hs hdt htarget =>
    have hpanel := panelStatus_armStateStatus .arming c.d.targetState c.status fun _ => htarget
    exact { timer := rfl, target := fun _ => htarget, mask := hc.mask, panel := hpanel }
  | entryToAlarm harm hev hs hdt =>
    have htarget : c.d.targetState ≠ .disarmed := hc.target (by rw [hs]; rfl)
    exact { timer := rfl, target := fun _ => htarget, mask := hc.mask, panel := rfl }
  | armedToEntry harm hev hs hmask hid =>
    have htarget : c.d.targetState ≠ .disarmed := hc.target (by rw [hs]; rfl)
    exact { timer := rfl, target := fun _ => htarget, mask := hc.mask, panel := rfl }
  | alarmToArmed harm hev hs hdt =>
    have htarget : c.d.targetState ≠ .disarmed := hc.target (by rw [hs]; rfl)
    have hpanel := panelStatus_armStateStatus .armed c.d.targetState c.status fun _ => htarget
    exact { timer := rfl, target := fun _ => htarget, mask := hc.mask, panel := hpanel }
  | armingToArmed harm hev hs =>
    have htarget : c.d.targetState ≠ .disarmed := hc.target (by rw [hs]; rfl)
    have hpanel := panelStatus_armStateStatus .armed c.d.targetState c.status fun _ => htarget
    exact { timer := rfl, target := fun _ => htarget, mask := hc.mask, panel := hpanel }

theorem setText_control {i : AlarmItem} (hi : i ≠ .armState) (val : QString) :
    (as.setText i val).1.control = as.control := by
  unfold setText
  split
  · simp [control, number_setItem_of_ne as _ hi.symm]
  · rfl

theorem setTargetArmMode_control (mode : Nat) :
    (as.setTargetArmMode mode).1.control = as.control := by
  unfold setTargetArmMode
  cases ArmMode.ofNat? mode with
  | none => rfl
  | some m =>
    simp only
    split
    · rfl
    · exact setText_control as (by decide) _

variable (qt : Qt D)

theorem setVariant_control (as : AlarmSystem) {i : AlarmItem} (hi : i ≠ .armState)
    (val : QVariant D) : (setVariant qt as i val).1.control = as.control := by
  unfold setVariant
  split
  · rfl
  · simp only
    split
    · simp [control, number_setItem_of_ne as _ hi.symm]
    · rfl

theorem alarmStep_control (as : AlarmSystem) (act : AlarmAction D) :
    (∃ now event, act = .event now event) ∨ (alarmStep qt as act).control = as.control := by
  cases act with
  | event now event => exact .inl ⟨now, event, rfl⟩
  | setTargetArmMode mode => exact .inr (setTargetArmMode_control as mode)
  | setDelay i val =>
    refine .inr ?_
    simp only [alarmStep]
    split
    · rename_i hdelay
      refine setVariant_control qt as ?_ val
      rintro rfl
      exact absurd hdelay (by decide)
    · rfl

theorem alarmStep_consistent (as : AlarmSystem) (act : AlarmAction D) (h : as.control.Consistent) :
    (alarmStep qt as act).control.Consistent := by
  rcases alarmStep_control qt as act with ⟨now, event, rfl⟩ | hsame
  · exact h.step (handleEvent_controlStep now event as)
  · rw [hsame]
    exact h

/-! ## The started alarm system -/

theorem loadItem_toPrivate (row : DbItem) :
    (as.loadItem row).toAlarmSystemPrivate = as.toAlarmSystemPrivate := by
  unfold loadItem
  split
  · rfl
  · split <;> rfl

theorem loaded_toPrivate (rows : List DbItem) (as : AlarmSystem) :
    (rows.foldl loadItem as).toAlarmSystemPrivate = as.toAlarmSystemPrivate := by
  induction rows generalizing as with
  | nil => rfl
  | cons row rows ih =>
    rw [List.foldl_cons, ih, loadItem_toPrivate]

theorem publish_consistent (htimer : as.timerActive = as.curState.timed)
    (htarget : as.curState.guarded = true → as.targetState ≠ .disarmed) :
    as.updateArmStateAndPanelStatus.updateTargetStateValues.control.Consistent := by
  have hcontrol := updateArmStateAndPanelStatus_control as
  set bs := as.updateArmStateAndPanelStatus
  have hd : bs.toAlarmSystemPrivate = as.toAlarmSystemPrivate := congrArg Control.d hcontrol
  have hstatus : bs.number .armState =
      armStateStatus as.curState as.targetState (as.number .armState) :=
    congrArg Control.status hcontrol
  refine { timer := ?_, target := ?_, mask := rfl, panel := ?_ }
  · show bs.timerActive = bs.curState.timed
    rw [hd]
    exact htimer
  · show bs.curState.guarded = true → bs.targetState ≠ .disarmed
    rw [hd]
    exact htarget
  · show (panelStatus bs.curState bs.targetState).map PanelStatus.code = some (bs.number .armState)
    rw [hd, hstatus]
    exact panelStatus_armStateStatus _ _ _ htarget

theorem setState_toPrivate (state : AlarmState) :
    (as.setState state).toAlarmSystemPrivate = { as.toAlarmSystemPrivate with curState := state } :=
  congrArg Control.d (setState_control as state)

/-- The state that `start` chooses for the stored arm mode. -/
def startState : ArmMode → AlarmState
  | .disarmed => .disarmed
  | .armedStay | .armedNight | .armedAway => .armed

theorem start_consistent (configured : Bool) (as : AlarmSystem)
    (hs : as.curState = .disarmed) (htimer : as.timerActive = false) :
    (start configured as).control.Consistent := by
  have hmode : ∀ mode : ArmMode,
      ((({ as with targetState := mode } : AlarmSystem).setState (startState mode))
        |>.updateArmStateAndPanelStatus.updateTargetStateValues).control.Consistent := by
    intro mode
    have hd := setState_toPrivate { as with targetState := mode } (startState mode)
    refine publish_consistent _ ?_ ?_
    · rw [hd]
      cases mode <;> exact htimer
    · rw [hd]
      cases mode <;> simp [startState, AlarmState.guarded]
  unfold start
  cases ArmMode.fromString (as.text .armMode) with
  | none => exact publish_consistent as (by rw [hs, htimer]; rfl) (by rw [hs]; simp [AlarmState.guarded])
  | some mode =>
    have hthis := hmode mode
    cases mode <;> exact hthis

theorem started_consistent (id : Nat) (rows : List DbItem) (configured : Bool) :
    (started id rows configured).control.Consistent := by
  have hd := loaded_toPrivate rows (new id)
  refine start_consistent configured _ ?_ ?_
  · rw [hd]
    rfl
  · rw [hd]
    rfl

theorem run_consistent (id : Nat) (rows : List DbItem) (configured : Bool)
    (acts : List (AlarmAction D)) :
    (Transition.run (alarmStep qt) (started id rows configured) acts).control.Consistent :=
  Transition.run_invariant (P := fun as : AlarmSystem => as.control.Consistent)
    (alarmStep_consistent qt) (started_consistent id rows configured) acts

variable {c : Control}

theorem Control.Consistent.status_eq_iff (h : c.Consistent) (s : PanelStatus) :
    c.status = s.code ↔ panelStatus c.d.curState c.d.targetState = some s := by
  obtain ⟨shown, hshown, hcode⟩ := Option.map_eq_some_iff.mp h.panel
  rw [hshown, ← hcode, Option.some_inj]
  exact PanelStatus.code_injective.eq_iff

theorem Control.Consistent.disarmed_iff (h : c.Consistent) :
    c.status = PanelStatus.disarmed.code ↔ c.d.curState = .disarmed := by
  rw [h.status_eq_iff]
  cases c.d.curState <;> cases c.d.targetState <;> decide

theorem Control.Consistent.inAlarm_iff (h : c.Consistent) :
    c.status = PanelStatus.inAlarm.code ↔ c.d.curState = .inAlarm := by
  rw [h.status_eq_iff]
  cases c.d.curState <;> cases c.d.targetState <;> decide

/-- **The reachable states of an alarm system.**  After `start` and any sequence
of events, requests and delay changes: the timer runs exactly in the exit delay,
entry delay, in-alarm and arming states; a guarded state has an armed target
mode; the event mask is the target's mask; and `state/armstate` is the panel
status of the state and its target, so it shows "disarmed" exactly in the
disarmed state. -/
theorem started_run_invariant (qt : Qt D) (id : Nat) (rows : List DbItem) (configured : Bool)
    (acts : List (AlarmAction D)) :
    let as := Transition.run (alarmStep qt) (started id rows configured) acts
    (as.timerActive = true ↔ as.curState = .exitDelay ∨ as.curState = .entryDelay ∨ as.curState =
      .inAlarm ∨ as.curState = .arming) ∧
    (as.curState = .armed ∨ as.curState = .arming ∨ as.curState = .entryDelay ∨ as.curState =
        .inAlarm → as.targetState ≠ .disarmed) ∧
    as.armMask = targetArmMask as.targetState ∧
    (∃ status, panelStatus as.curState as.targetState = some status ∧ as.number .armState =
      status.code) ∧
    (as.number .armState = PanelStatus.disarmed.code ↔ as.curState = .disarmed) := by
  intro as
  have hc : as.control.Consistent := run_consistent qt id rows configured acts
  have htimer : as.timerActive = as.curState.timed := hc.timer
  have htarget : as.curState.guarded = true → as.targetState ≠ .disarmed := hc.target
  obtain ⟨status, hsome, hcode⟩ := Option.map_eq_some_iff.mp hc.panel
  refine ⟨?_, ?_, hc.mask, ⟨status, hsome, hcode.symm⟩, hc.disarmed_iff⟩
  · rw [htimer]
    cases as.curState <;> simp [AlarmState.timed]
  · intro hs
    apply htarget
    rcases hs with hs | hs | hs | hs <;> rw [hs] <;> rfl

/-! ## Left alone -/

/-- The delay of the state has passed. -/
def Late (d : AlarmSystemPrivate) (now : Int) : Prop :=
  match d.curState with
  | .exitDelay => d.exitDelay * 1000 < now - d.tState
  | .entryDelay => d.entryDelay * 1000 < now - d.tState
  | .inAlarm => d.triggerDuration * 1000 < now - d.tState
  | .disarmed | .armed | .arming => True

/-- What a late tick does -/
def afterTick (now : Int) (d : AlarmSystemPrivate) : AlarmSystemPrivate :=
  match d.curState with
  | .disarmed | .armed => d
  | .exitDelay =>
    if d.targetState = .disarmed then { d with timerActive := false, curState := .disarmed }
    else { d with tState := now, timerActive := true, curState := .arming }
  | .entryDelay => { d with tState := now, timerActive := true, curState := .inAlarm }
  | .inAlarm | .arming => { d with timerActive := false, curState := .armed }

theorem timerFired_toPrivate {now : Int} (h : Late as.toAlarmSystemPrivate now) :
    (as.timerFired now).toAlarmSystemPrivate = afterTick now as.toAlarmSystemPrivate := by
  unfold Late at h
  unfold timerFired handleEvent curStateFunction afterTick
  rw [if_neg (fun harm => absurd harm.2 (by decide))]
  cases hstate : as.curState with
  | disarmed | armed => rfl
  | exitDelay =>
    rw [hstate] at h
    have htarget : (as.setSecondsRemaining 0).targetState = as.targetState :=
      congrArg AlarmSystemPrivate.targetState (setSecondsRemaining_toPrivate as 0)
    unfold stateExitDelay
    simp only [if_pos h, if_true, stopTimer, htarget]
    split_ifs <;> simp [setState_toPrivate, startStateTimer]
  | entryDelay =>
    rw [hstate] at h
    simp [stateEntryDelay, h, setState_toPrivate, startStateTimer]
  | inAlarm =>
    rw [hstate] at h
    simp [stateInAlarm, h, setState_toPrivate, stopTimer]
  | arming => simp [stateArming, setState_toPrivate, stopTimer]

/-- **An alarm system comes to rest**: in whatever state of a run, two late ticks end in the
disarmed state, if it is disarmed or about to be, and in the armed state otherwise, with the timer
stopped and the target mode as before. -/
theorem comes_to_rest (qt : Qt D) (id : Nat) (rows : List DbItem) (configured : Bool)
    (acts : List (AlarmAction D)) {t₁ t₂ : Int} :
    let as := Transition.run (alarmStep qt) (started id rows configured) acts
    Late as.toAlarmSystemPrivate t₁ → as.triggerDuration * 1000 < t₂ - t₁ →
    let bs := (as.timerFired t₁).timerFired t₂
    bs.timerActive = false ∧ bs.targetState = as.targetState ∧
      bs.curState = if as.curState = .disarmed ∨ as.curState = .exitDelay ∧
        as.targetState = .disarmed then .disarmed else .armed := by
  intro as hfirst hsecond bs
  have htick := timerFired_toPrivate as hfirst
  have hlate : Late (as.timerFired t₁).toAlarmSystemPrivate t₂ := by
    rw [htick]
    unfold afterTick Late
    cases hstate : as.curState with
    | exitDelay => split_ifs <;> trivial
    | _ => simp [hstate, hsecond]
  have hbs : bs.toAlarmSystemPrivate = afterTick t₂ (afterTick t₁ as.toAlarmSystemPrivate) := by
    rw [← htick]
    exact timerFired_toPrivate _ hlate
  have htimer : bs.timerActive = bs.curState.timed :=
    ((run_consistent qt id rows configured acts).step (handleEvent_controlStep _ _ as)
      |>.step (handleEvent_controlStep _ _ _)).timer
  rw [htimer, hbs]
  unfold afterTick
  cases hstate : as.curState with
  | exitDelay => split_ifs <;> simp_all [AlarmState.timed]
  | _ => simp [hstate, AlarmState.timed]

/-- On the way to being armed away -/
theorem comes_to_rest_armedAway :
    let as := Transition.run (alarmStep Qt.whole) (started 1 [] true)
      [.setTargetArmMode 3, .event 0 { resource := rAlarmSystems, what := rConfigArmMode }]
    ((as.timerFired 120001).timerFired 240002).curState = .armed := by
  intro as
  have hlate : Late as.toAlarmSystemPrivate 120001 :=
    show as.exitDelay * 1000 < 120001 - as.tState by decide
  exact (comes_to_rest Qt.whole 1 [] true _ hlate (by decide)).2.2.trans (by decide)

end AlarmSystem
end DeconzRest

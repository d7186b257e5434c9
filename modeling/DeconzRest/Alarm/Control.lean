import DeconzRest.Alarm.System
import DeconzRest.Lib.Transition

/-!
# The control machine of an alarm system

What the alarm system is for can be said without its items: a state, a target
mode with the parameters that were loaded for it, a timer, and the panel status
that is shown.  `ControlStep` is that machine as a relation, one constructor
for each thing an event can bring about, with its guard.  The code's
`handleEvent` refines it (`handleEvent_controlStep`), and the invariants of the
alarm system are proved of the relation.
-/

namespace DeconzRest
namespace AlarmSystem

/-- What the control machine reads from outside: the id, the requested mode (the
text of `config/armmode`), and the configured parameters of each mode. -/
structure AlarmEnv where
  id : Int
  requested : Option ArmMode
  exitDelay : ArmMode → Int
  entryDelay : ArmMode → Int
  triggerDuration : ArmMode → Int

def env (as : AlarmSystem) : AlarmEnv where
  id := as.id
  requested := ArmMode.fromString (as.text .armMode)
  exitDelay := fun m => as.number (exitSuffix m)
  entryDelay := fun m => as.number (entrySuffix m)
  triggerDuration := fun m =>
    match triggerSuffix m with
    | some i => as.number i
    | none => 0

/-- The state of the control machine: the private variables and the status that
`state/armstate` shows. -/
structure Control where
  d : AlarmSystemPrivate
  status : Int
deriving DecidableEq, Repr

def control (as : AlarmSystem) : Control := ⟨as.toAlarmSystemPrivate, as.number .armState⟩

namespace Control

def load (env : AlarmEnv) (mode : ArmMode) (c : Control) : Control :=
  { c with
      d := { c.d with
        targetState := mode
        exitDelay := env.exitDelay mode
        entryDelay := env.entryDelay mode
        triggerDuration := env.triggerDuration mode
        armMask := targetArmMask mode } }

def enter (state : AlarmState) (c : Control) : Control :=
  { d := { c.d with curState := state }
    status := armStateStatus state c.d.targetState c.status }

def startTimer (now : Int) (c : Control) : Control :=
  { c with d := { c.d with tState := now, timerActive := true } }

def stopTimer (c : Control) : Control :=
  { c with d := { c.d with timerActive := false } }

@[simp] theorem startTimer_stopTimer (now : Int) (c : Control) :
    c.stopTimer.startTimer now = c.startTimer now := rfl

end Control

/-- An event by which the code reads the requested mode again. -/
abbrev IsArmModeEvent (event : Event) : Prop :=
  event.resource = rAlarmSystems ∧ event.what = rConfigArmMode

inductive ControlStep (env : AlarmEnv) (now : Int) (event : Event) : Control → Control → Prop
  | ignored (c : Control) (hload : ¬ (IsArmModeEvent event ∧ env.requested.isSome)) :
      ControlStep env now event c c
  | reloaded (c : Control) (harm : IsArmModeEvent event)
      (hreq : env.requested = some c.d.targetState) :
      ControlStep env now event c (c.load env c.d.targetState)
  | retargeted (c : Control) (mode : ArmMode) (harm : IsArmModeEvent event)
      (hreq : env.requested = some mode) (hne : c.d.targetState ≠ mode) :
      ControlStep env now event c
        (((c.load env mode).enter .exitDelay).startTimer now)
  | exitToDisarmed (c : Control) (harm : ¬ IsArmModeEvent event)
      (hev : event.what = rEventTimerFired) (hs : c.d.curState = .exitDelay)
      (hdt : c.d.exitDelay * 1000 < now - c.d.tState) (htarget : c.d.targetState = .disarmed) :
      ControlStep env now event c (c.stopTimer.enter .disarmed)
  | exitToArming (c : Control) (harm : ¬ IsArmModeEvent event)
      (hev : event.what = rEventTimerFired) (hs : c.d.curState = .exitDelay)
      (hdt : c.d.exitDelay * 1000 < now - c.d.tState) (htarget : c.d.targetState ≠ .disarmed) :
      ControlStep env now event c ((c.startTimer now).enter .arming)
  | entryToAlarm (c : Control) (harm : ¬ IsArmModeEvent event)
      (hev : event.what = rEventTimerFired) (hs : c.d.curState = .entryDelay)
      (hdt : c.d.entryDelay * 1000 < now - c.d.tState) :
      ControlStep env now event c ((c.startTimer now).enter .inAlarm)
  | armedToEntry (c : Control) (harm : ¬ IsArmModeEvent event)
      (hev : event.what = rEventDeviceAlarm) (hs : c.d.curState = .armed)
      (hmask : bitAnd event.num c.d.armMask ≠ 0)
      (hid : (bitAnd event.num 0xFF : Int) = env.id) :
      ControlStep env now event c ((c.enter .entryDelay).startTimer now)
  | alarmToArmed (c : Control) (harm : ¬ IsArmModeEvent event)
      (hev : event.what = rEventTimerFired) (hs : c.d.curState = .inAlarm)
      (hdt : c.d.triggerDuration * 1000 < now - c.d.tState) :
      ControlStep env now event c (c.stopTimer.enter .armed)
  | armingToArmed (c : Control) (harm : ¬ IsArmModeEvent event)
      (hev : event.what = rEventTimerFired) (hs : c.d.curState = .arming) :
      ControlStep env now event c (c.stopTimer.enter .armed)

section ControlStep

variable {env : AlarmEnv} {now : Int} {event : Event} {c c' : Control}

theorem ControlStep.of_load (h : ControlStep env now event c c')
    (hload : IsArmModeEvent event ∧ env.requested.isSome) :
    c'.d.entryDelay = env.entryDelay c'.d.targetState ∧ c'.d.triggerDuration =
      env.triggerDuration c'.d.targetState := by
  cases h with
  | ignored hnot => exact absurd hload hnot
  | reloaded | retargeted => exact ⟨rfl, rfl⟩
  | exitToDisarmed harm | exitToArming harm | entryToAlarm harm | armedToEntry harm
  | alarmToArmed harm | armingToArmed harm => exact absurd hload.1 harm

theorem ControlStep.of_not_load (h : ControlStep env now event c c')
    (hload : ¬ (IsArmModeEvent event ∧ env.requested.isSome)) :
    c'.d.entryDelay = c.d.entryDelay ∧ c'.d.triggerDuration = c.d.triggerDuration ∧
      c'.d.targetState = c.d.targetState := by
  cases h with
  | reloaded harm hreq => exact absurd ⟨harm, by rw [hreq]; rfl⟩ hload
  | retargeted mode harm hreq => exact absurd ⟨harm, by rw [hreq]; rfl⟩ hload
  | ignored | exitToDisarmed | exitToArming | entryToAlarm | armedToEntry
  | alarmToArmed | armingToArmed => exact ⟨rfl, rfl, rfl⟩

theorem ControlStep.target_of_requested {mode : ArmMode} (h : ControlStep env now event c c')
    (harm : IsArmModeEvent event) (hreq : env.requested = some mode) :
    c'.d.targetState = mode := by
  cases h with
  | ignored hnot => exact absurd ⟨harm, by rw [hreq]; rfl⟩ hnot
  | reloaded _ hreq' => exact Option.some.inj (hreq'.symm.trans hreq)
  | retargeted mode' _ hreq' => exact Option.some.inj (hreq'.symm.trans hreq)
  | exitToDisarmed hnot | exitToArming hnot | entryToAlarm hnot | armedToEntry hnot
  | alarmToArmed hnot | armingToArmed hnot => exact absurd harm hnot

theorem ControlStep.to_entryDelay (h : ControlStep env now event c c')
    (hs' : c'.d.curState = .entryDelay) :
    c'.d.targetState = c.d.targetState ∧
      ((c.d.curState = .entryDelay ∧ c'.d.tState = c.d.tState) ∨
        (event.what = rEventDeviceAlarm ∧ (bitAnd event.num 0xFF : Int) = env.id ∧
          bitAnd event.num c.d.armMask ≠ 0 ∧ c.d.curState = .armed ∧ c'.d.tState = now)) := by
  cases h with
  | ignored | reloaded => exact ⟨rfl, .inl ⟨hs', rfl⟩⟩
  | armedToEntry harm hev hs hmask hid => exact ⟨rfl, .inr ⟨hev, hid, hmask, hs, rfl⟩⟩
  | retargeted | exitToDisarmed | exitToArming | entryToAlarm | alarmToArmed
  | armingToArmed => exact AlarmState.noConfusion hs'

theorem ControlStep.to_inAlarm (h : ControlStep env now event c c')
    (hs : c.d.curState ≠ .inAlarm) (hs' : c'.d.curState = .inAlarm) :
    c.d.curState = .entryDelay ∧ c'.d.targetState = c.d.targetState ∧ c.d.entryDelay * 1000 <
      now - c.d.tState := by
  cases h with
  | entryToAlarm harm hev hentry hdt => exact ⟨hentry, rfl, hdt⟩
  | ignored | reloaded => exact absurd hs' hs
  | retargeted | exitToDisarmed | exitToArming | armedToEntry | alarmToArmed
  | armingToArmed => exact AlarmState.noConfusion hs'

theorem ControlStep.tState_of_inAlarm (h : ControlStep env now event c c')
    (hs' : c'.d.curState = .inAlarm) :
    (c.d.curState = .inAlarm ∧ c'.d.tState = c.d.tState) ∨
      (c.d.curState ≠ .inAlarm ∧ c'.d.tState = now) := by
  cases h with
  | ignored | reloaded => exact .inl ⟨hs', rfl⟩
  | entryToAlarm harm hev hentry =>
    refine .inr ⟨fun hs => ?_, rfl⟩
    rw [hs] at hentry
    exact AlarmState.noConfusion hentry
  | retargeted | exitToDisarmed | exitToArming | armedToEntry | alarmToArmed
  | armingToArmed => exact AlarmState.noConfusion hs'

end ControlStep

/-! ## What the single operations change -/

@[simp] theorem number_setItem_self (as : AlarmSystem) (i : AlarmItem) (it : ResourceItem) :
    (as.setItem i it).number i = it.num := by
  simp [number, setItem]

@[simp] theorem number_setItem_of_ne (as : AlarmSystem) {i j : AlarmItem} (it : ResourceItem)
    (h : j ≠ i) : (as.setItem i it).number j = as.number j := by
  simp [number, setItem, Function.update_of_ne h]

@[simp] theorem text_setItem_self (as : AlarmSystem) (i : AlarmItem) (it : ResourceItem) :
    (as.setItem i it).text i = it.str := by
  simp [text, setItem]

@[simp] theorem text_setItem_of_ne (as : AlarmSystem) {i j : AlarmItem} (it : ResourceItem)
    (h : j ≠ i) : (as.setItem i it).text j = as.text j := by
  simp [text, setItem, Function.update_of_ne h]

@[simp] theorem toPrivate_setItem (as : AlarmSystem) (i : AlarmItem) (it : ResourceItem) :
    (as.setItem i it).toAlarmSystemPrivate = as.toAlarmSystemPrivate := rfl

@[simp] theorem number_emitItem (as : AlarmSystem) (i j : AlarmItem) :
    (as.emitItem i).number j = as.number j := rfl

@[simp] theorem text_emitItem (as : AlarmSystem) (i j : AlarmItem) :
    (as.emitItem i).text j = as.text j := rfl

@[simp] theorem toPrivate_emitItem (as : AlarmSystem) (i : AlarmItem) :
    (as.emitItem i).toAlarmSystemPrivate = as.toAlarmSystemPrivate := rfl

/-- The items that the state machine itself writes. -/
def IsStateItem (i : AlarmItem) : Prop := i = .armState ∨ i = .secondsRemaining

/-- `bs` comes from `as` by writes of the state machine: every other item is as it
was, and what was emitted is about the two items it writes. -/
structure WritesState (as bs : AlarmSystem) : Prop where
  items : ∀ i, ¬ IsStateItem i → bs.items i = as.items i
  emitted : ∃ events, bs.emitted = as.emitted ++ events ∧ ∀ e ∈ events, ∃ i, IsStateItem i ∧
    e.what = i.suffix

theorem WritesState.refl (as : AlarmSystem) : WritesState as as where
  items := fun _ _ => rfl
  emitted := ⟨[], (List.append_nil _).symm, fun _ he => absurd he List.not_mem_nil⟩

theorem WritesState.trans {as bs cs : AlarmSystem} (h₁ : WritesState as bs)
    (h₂ : WritesState bs cs) : WritesState as cs where
  items := fun i hi => (h₂.items i hi).trans (h₁.items i hi)
  emitted := by
    obtain ⟨events₁, heq₁, hown₁⟩ := h₁.emitted
    obtain ⟨events₂, heq₂, hown₂⟩ := h₂.emitted
    refine ⟨events₁ ++ events₂, ?_, ?_⟩
    · rw [heq₂, heq₁, List.append_assoc]
    · intro e he
      rcases List.mem_append.mp he with he | he
      · exact hown₁ e he
      · exact hown₂ e he

theorem WritesState.congr_private {as bs cs : AlarmSystem} (h : WritesState as bs)
    (hitems : cs.items = bs.items) (hemitted : cs.emitted = bs.emitted) : WritesState as cs where
  items := by
    rw [hitems]
    exact h.items
  emitted := by
    rw [hemitted]
    exact h.emitted

theorem writesState_setItem (as : AlarmSystem) {i : AlarmItem} (hi : IsStateItem i)
    (it : ResourceItem) : WritesState as ((as.setItem i it).emitItem i) where
  items := by
    intro j hj
    have hne : j ≠ i := by
      rintro rfl
      exact hj hi
    exact Function.update_of_ne hne it as.items
  emitted := by
    refine ⟨_, rfl, ?_⟩
    intro e he
    rw [List.mem_singleton] at he
    rw [he]
    exact ⟨i, hi, rfl⟩

theorem WritesState.env_eq {as bs : AlarmSystem} (h : WritesState as bs) : bs.env = as.env := by
  have hnum : ∀ i, ¬ IsStateItem i → bs.number i = as.number i := by
    intro i hi
    simp [number, h.items i hi]
  have hexit : ∀ m, bs.number (exitSuffix m) = as.number (exitSuffix m) := by
    intro m
    exact hnum _ (by cases m <;> simp [exitSuffix, IsStateItem])
  have hentry : ∀ m, bs.number (entrySuffix m) = as.number (entrySuffix m) := by
    intro m
    exact hnum _ (by cases m <;> simp [entrySuffix, IsStateItem])
  have htrigger : ∀ m, bs.env.triggerDuration m = as.env.triggerDuration m := by
    intro m
    cases m with
    | disarmed => rfl
    | armedStay | armedNight | armedAway =>
      exact hnum _ (by simp [IsStateItem])
  have hid : bs.id = as.id := by
    simp only [id]
    rw [hnum .alarmSystemId (by simp [IsStateItem])]
  have htext : bs.text .armMode = as.text .armMode := by
    simp [text, h.items .armMode (by simp [IsStateItem])]
  unfold env at htrigger ⊢
  simp only [hexit, hentry, hid, htext, AlarmEnv.mk.injEq, true_and]
  funext m
  exact htrigger m

theorem setSecondsRemaining_control (as : AlarmSystem) (secs : Int) :
    (as.setSecondsRemaining secs).control = as.control := by
  unfold setSecondsRemaining
  simp only
  split
  · simp [control]
  · rfl

@[simp] theorem setSecondsRemaining_toPrivate (as : AlarmSystem) (secs : Int) :
    (as.setSecondsRemaining secs).toAlarmSystemPrivate = as.toAlarmSystemPrivate :=
  congrArg Control.d (setSecondsRemaining_control as secs)

theorem setSecondsRemaining_writesState (as : AlarmSystem) (secs : Int) :
    WritesState as (as.setSecondsRemaining secs) := by
  unfold setSecondsRemaining
  simp only
  split
  · exact writesState_setItem as (.inr rfl) _
  · exact WritesState.refl as

theorem number_setNumber_armState (it : ResourceItem) (val : Int) :
    (ResourceItem.setNumber AlarmItem.armState.descriptor it val).1.num = val :=
  (ResourceItem.setNumber_eq_of_inRange (by rfl) it).2

theorem updateArmStateAndPanelStatus_control (as : AlarmSystem) :
    as.updateArmStateAndPanelStatus.control =
      ⟨as.toAlarmSystemPrivate,
        armStateStatus as.curState as.targetState (as.number .armState)⟩ := by
  unfold updateArmStateAndPanelStatus
  simp only
  split
  · simp [control, number_setNumber_armState]
  · rename_i hsame
    rw [not_not.mp hsame]
    rfl

theorem updateArmStateAndPanelStatus_writesState (as : AlarmSystem) :
    WritesState as as.updateArmStateAndPanelStatus := by
  unfold updateArmStateAndPanelStatus
  simp only
  split
  · exact writesState_setItem as (.inl rfl) _
  · exact WritesState.refl as

theorem setState_control (as : AlarmSystem) (state : AlarmState) :
    (as.setState state).control = as.control.enter state :=
  updateArmStateAndPanelStatus_control { as with curState := state }

theorem setState_writesState (as : AlarmSystem) (state : AlarmState) :
    WritesState as (as.setState state) :=
  have hstate : WritesState as { as with curState := state } :=
    (WritesState.refl as).congr_private rfl rfl
  hstate.trans (updateArmStateAndPanelStatus_writesState _)

@[simp] theorem startStateTimer_control (as : AlarmSystem) (now : Int) :
    (as.startStateTimer now).control = as.control.startTimer now := rfl

@[simp] theorem stopTimer_control (as : AlarmSystem) :
    as.stopTimer.control = as.control.stopTimer := rfl

theorem load_control (as : AlarmSystem) (mode : ArmMode) :
    ({ as with targetState := mode } : AlarmSystem).updateTargetStateValues.control =
      as.control.load as.env mode := rfl

attribute [simp] setSecondsRemaining_control setState_control load_control

/-! ## The code refines the control machine -/

theorem curStateFunction_controlStep (now : Int) (event : Event) (as : AlarmSystem)
    (harm : ¬ IsArmModeEvent event) :
    ControlStep as.env now event as.control (as.curStateFunction now event).control := by
  have hignored : ControlStep as.env now event as.control as.control :=
    .ignored _ fun h => harm h.1
  cases hs : as.curState with
  | disarmed =>
    simpa [curStateFunction, hs] using hignored
  | armed =>
    simp only [curStateFunction, hs, stateArmed]
    by_cases hev : event.what = rEventDeviceAlarm
    · by_cases hmask : bitAnd event.num as.armMask = 0
      · simpa [hev, hmask] using hignored
      · by_cases hid : (bitAnd event.num 0xFF : Int) = as.id
        · simpa [hev, hmask, hid] using
            ControlStep.armedToEntry as.control harm hev hs hmask hid
        · simpa [hev, hmask, hid] using hignored
    · simpa [hev] using hignored
  | exitDelay =>
    simp only [curStateFunction, hs, stateExitDelay]
    by_cases hev : event.what = rEventTimerFired
    · by_cases hdt : as.exitDelay * 1000 < now - as.tState
      · have hsame : ((as.setSecondsRemaining 0).stopTimer).targetState = as.targetState := by
          simp [AlarmSystem.stopTimer]
        by_cases htarget : as.targetState = .disarmed
        · simpa [hev, hdt, hsame, htarget] using
            ControlStep.exitToDisarmed as.control
              harm hev hs hdt htarget
        · simpa [hev, hdt, hsame, htarget] using
            ControlStep.exitToArming as.control
              harm hev hs hdt htarget
      · simpa [hev, hdt] using hignored
    · simpa [hev] using hignored
  | entryDelay =>
    simp only [curStateFunction, hs, stateEntryDelay]
    by_cases hev : event.what = rEventTimerFired
    · by_cases hdt : as.entryDelay * 1000 < now - as.tState
      · simpa [hev, hdt] using
          ControlStep.entryToAlarm as.control harm hev hs hdt
      · simpa [hev, hdt] using hignored
    · simpa [hev] using hignored
  | inAlarm =>
    simp only [curStateFunction, hs, stateInAlarm]
    by_cases hfire : event.what = rEventTimerFired ∧ as.triggerDuration * 1000 < now - as.tState
    · rw [if_pos hfire]
      simpa using ControlStep.alarmToArmed as.control harm
        hfire.1 hs hfire.2
    · rw [if_neg hfire]
      exact hignored
  | arming =>
    simp only [curStateFunction, hs, stateArming]
    by_cases hev : event.what = rEventTimerFired
    · simpa [hev] using
        ControlStep.armingToArmed as.control harm hev hs
    · simpa [hev] using hignored

/-- **Refinement.**  Whatever event the alarm system handles, its control part
makes a step of the control machine. -/
theorem handleEvent_controlStep (now : Int) (event : Event) (as : AlarmSystem) :
    ControlStep as.env now event as.control (as.handleEvent now event).control := by
  by_cases harm : IsArmModeEvent event
  · unfold handleEvent
    rw [if_pos harm]
    cases hreq : ArmMode.fromString (as.text .armMode) with
    | none =>
      refine .ignored _ fun h => ?_
      have hsome : (ArmMode.fromString (as.text .armMode)).isSome := h.2
      simp [hreq] at hsome
    | some mode =>
      by_cases hsame : as.targetState = mode
      · subst hsame
        have hstep : ControlStep as.env now event as.control
            (as.control.load as.env as.targetState) := .reloaded as.control harm hreq
        simpa using hstep
      · simpa [hsame] using ControlStep.retargeted as.control mode harm hreq hsame
  · unfold handleEvent
    rw [if_neg harm]
    exact curStateFunction_controlStep now event as harm

theorem handleEvent_writesState (now : Int) (event : Event) (as : AlarmSystem) :
    WritesState as (as.handleEvent now event) := by
  have hsecs := fun secs => setSecondsRemaining_writesState as secs
  have henter : ∀ secs state, WritesState as ((as.setSecondsRemaining secs).setState state) :=
    fun secs state => (hsecs secs).trans (setState_writesState _ state)
  unfold handleEvent
  split
  · cases ArmMode.fromString (as.text .armMode) with
    | none => exact WritesState.refl as
    | some mode =>
      have hload : WritesState as
          ({ as with targetState := mode } : AlarmSystem).updateTargetStateValues :=
        (WritesState.refl as).congr_private rfl rfl
      simp only
      split
      · exact hload
      · have hwait : ∀ bs : AlarmSystem, WritesState bs (bs.startStateTimer now) := fun bs =>
          (WritesState.refl bs).congr_private rfl rfl
        refine WritesState.trans ?_ (hwait _)
        refine WritesState.trans ?_ (setState_writesState _ .exitDelay)
        exact hload.trans (setSecondsRemaining_writesState _ _)
  · unfold curStateFunction
    cases as.curState with
    | disarmed => exact WritesState.refl as
    | armed =>
      simp only [stateArmed]
      split
      · split
        · exact WritesState.refl as
        · split
          · exact (henter _ .entryDelay).congr_private rfl rfl
          · exact WritesState.refl as
      · exact WritesState.refl as
    | exitDelay =>
      have hstop : WritesState as (as.setSecondsRemaining 0).stopTimer :=
        (hsecs 0).congr_private rfl rfl
      have hstart : WritesState as ((as.setSecondsRemaining 0).stopTimer.startStateTimer now) :=
        (hsecs 0).congr_private rfl rfl
      simp only [stateExitDelay]
      split
      · split
        · split
          · exact hstop.trans (setState_writesState _ .disarmed)
          · exact hstart.trans (setState_writesState _ .arming)
        · exact hsecs _
      · exact WritesState.refl as
    | entryDelay =>
      have hstart : WritesState as ((as.setSecondsRemaining 0).startStateTimer now) :=
        (hsecs 0).congr_private rfl rfl
      simp only [stateEntryDelay]
      split
      · split
        · exact hstart.trans (setState_writesState _ .inAlarm)
        · exact hsecs _
      · exact WritesState.refl as
    | inAlarm | arming =>
      have hstop : WritesState as as.stopTimer := (WritesState.refl as).congr_private rfl rfl
      simp only [stateInAlarm, stateArming]
      split
      · exact hstop.trans (setState_writesState _ .armed)
      · exact WritesState.refl as

theorem handleEvent_env (now : Int) (event : Event) (as : AlarmSystem) :
    (as.handleEvent now event).env = as.env :=
  (handleEvent_writesState now event as).env_eq

end AlarmSystem
end DeconzRest

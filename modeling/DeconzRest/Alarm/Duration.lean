import DeconzRest.Alarm.Cause

/-!
# How long an alarm lasts

The trigger duration is loaded with the target mode, and compared with the time since the state
timer was started when the alarm was raised (`tState_of_lasts`).  So an alarm ends with the first
timer tick behind the duration in use (`alarmStep_leaves`), which is that of the item that the
table of `updateTargetStateValues` names: for stay and night the exit delay.
-/

namespace DeconzRest
namespace AlarmSystem

variable {D : Type}

/-- `config/armed_<mode>_trigger_duration`; there is none in disarmed state. -/
def durationSuffix : ArmMode → Option AlarmItem
  | .disarmed => none
  | .armedStay => some .armedStayTriggerDuration
  | .armedNight => some .armedNightTriggerDuration
  | .armedAway => some .armedAwayTriggerDuration

structure Configured (as : AlarmSystem) (mode : ArmMode) (exit duration : UInt8) : Prop where
  exit : as.number (exitSuffix mode) = exit.toNat
  duration : ∀ i, durationSuffix mode = some i → as.number i = duration.toNat

/-- Step `n` raises the alarm at time `t`, and it lasts until moment `m`. -/
structure AlarmLasts (st : Nat → AlarmSystem) (acts : List (AlarmAction D)) (n m : Nat)
    (t : Int) : Prop where
  calm : (st n).curState ≠ .inAlarm
  raised : ∃ event, acts[n]? = some (.event t event)
  before : n < m
  lasts : ∀ k, n < k → k ≤ m → (st k).curState = .inAlarm

def IsTick (act : AlarmAction D) (now : Int) : Prop :=
  ∃ event, act = .event now event ∧ event.what = rEventTimerFired

/-- The trigger duration of a mode is honoured with a configuration of it: in every run, while the
target mode that was loaded with this configuration is kept, an alarm ends exactly with a timer
tick at which more than the trigger duration has passed since it was raised. -/
def HonoursDuration (qt : Qt D) (mode : ArmMode) (exit duration : UInt8) : Prop :=
  ∀ (id : Nat) (rows : List DbItem) (configured : Bool) (acts : List (AlarmAction D))
    (n j m : Nat) (t : Int) (act : AlarmAction D),
    let st := moment qt id rows configured acts
    acts[m]? = some act → AlarmLasts st acts n m t → LastLoad st acts j m →
    (∀ k, j ≤ k → k ≤ m → (st k).targetState = mode ∧ Configured (st k) mode exit duration) →
    (st (m + 1)).targetState = mode →
    ((st (m + 1)).curState ≠ .inAlarm ↔ ∃ now, IsTick act now ∧ (duration.toNat : Int) * 1000 <
      now - t)

/-! ## One step -/

theorem handleEvent_leaves {as : AlarmSystem} {now : Int} {event : Event}
    (hs : as.curState = .inAlarm)
    (htarget : (as.handleEvent now event).targetState = as.targetState) :
    (as.handleEvent now event).curState ≠ .inAlarm ↔ event.what = rEventTimerFired ∧
      as.triggerDuration * 1000 < now - as.tState := by
  by_cases harm : IsArmModeEvent event
  · have hno : event.what ≠ rEventTimerFired := by
      rw [harm.2]
      decide
    have hsame : (as.handleEvent now event).curState = as.curState := by
      cases hreq : ArmMode.fromString (as.text .armMode) with
      | none =>
        unfold handleEvent
        rw [if_pos harm, hreq]
      | some mode =>
        -- the target is kept, so its parameters are only loaded again
        have hmode : (as.handleEvent now event).targetState = mode :=
          (handleEvent_controlStep now event as).target_of_requested harm hreq
        rw [hmode] at htarget
        unfold handleEvent
        rw [if_pos harm, hreq]
        simp only
        rw [if_pos htarget.symm]
        rfl
    rw [hsame, hs]
    exact ⟨fun hne => absurd rfl hne, fun htick => absurd htick.1 hno⟩
  · have hstate : as.handleEvent now event = as.stateInAlarm now event := by
      unfold handleEvent
      rw [if_neg harm]
      unfold curStateFunction
      rw [hs]
    rw [hstate]
    unfold stateInAlarm
    split
    · rename_i htick
      have harmed : (as.stopTimer.setState .armed).curState = .armed :=
        congrArg AlarmSystemPrivate.curState (setState_toPrivate as.stopTimer .armed)
      rw [harmed]
      exact ⟨fun _ => htick, fun _ => by decide⟩
    · rename_i htick
      exact ⟨fun hne => absurd hs hne, fun h => absurd h htick⟩

/-- **The end of an alarm.**  While the target mode is kept, only a timer tick behind the trigger
duration in use ends it. -/
theorem alarmStep_leaves (qt : Qt D) {as : AlarmSystem} {act : AlarmAction D}
    (hs : as.curState = .inAlarm)
    (htarget : (alarmStep qt as act).targetState = as.targetState) :
    (alarmStep qt as act).curState ≠ .inAlarm ↔ ∃ now, IsTick act now ∧ as.triggerDuration * 1000 <
      now - as.tState := by
  have hother : (∀ now event, act ≠ .event now event) →
      ((alarmStep qt as act).curState ≠ .inAlarm ↔ ∃ now, IsTick act now ∧
        as.triggerDuration * 1000 < now - as.tState) := by
    intro hno
    have hsame : (alarmStep qt as act).curState = .inAlarm := by
      rcases alarmStep_control qt as act with ⟨now, event, heq⟩ | hsame
      · exact absurd heq (hno now event)
      · exact (congrArg (fun c : Control => c.d.curState) hsame).trans hs
    refine ⟨fun hne => absurd hsame hne, ?_⟩
    rintro ⟨now, ⟨event, heq, -⟩, -⟩
    exact absurd heq (hno now event)
  cases act with
  | event now event =>
    refine (handleEvent_leaves hs htarget).trans ⟨?_, ?_⟩
    · rintro ⟨hwhat, helapsed⟩
      exact ⟨now, ⟨event, rfl, hwhat⟩, helapsed⟩
    · rintro ⟨now', ⟨event', heq, hwhat⟩, helapsed⟩
      cases heq
      exact ⟨hwhat, helapsed⟩
  | setTargetArmMode mode => exact hother fun _ _ heq => by cases heq
  | setDelay i val => exact hother fun _ _ heq => by cases heq

theorem alarmStep_tState (qt : Qt D) {as : AlarmSystem} {act : AlarmAction D}
    (hs' : (alarmStep qt as act).curState = .inAlarm) :
    (as.curState = .inAlarm ∧ (alarmStep qt as act).tState = as.tState) ∨
      (as.curState ≠ .inAlarm ∧ ∃ event, act = .event (alarmStep qt as act).tState event) := by
  rcases alarmStep_control qt as act with ⟨now, event, rfl⟩ | hsame
  · rcases (handleEvent_controlStep now event as).tState_of_inAlarm hs' with hkept | ⟨hcalm, ht⟩
    · exact .inl hkept
    · have htime : (alarmStep qt as (.event now event)).tState = now := ht
      rw [htime]
      exact .inr ⟨hcalm, event, rfl⟩
  · have hd : (alarmStep qt as act).toAlarmSystemPrivate = as.toAlarmSystemPrivate :=
      congrArg Control.d hsame
    rw [hd] at hs' ⊢
    exact .inl ⟨hs', rfl⟩

theorem LastLoad.unique {st : Nat → AlarmSystem} {acts : List (AlarmAction D)} {j j' n : Nat}
    (h : LastLoad st acts j n) (h' : LastLoad st acts j' n) : j = j' := by
  have hle : ∀ {j j'}, LastLoad st acts j n → LastLoad st acts j' n → ¬ j < j' := by
    rintro j j' ⟨-, -, hnone⟩ ⟨hj', hzero | ⟨act, hact, hloads⟩, -⟩ hlt
    · omega
    · exact hnone (j' - 1) act (by omega) (by omega) hact hloads
  have h₁ := hle h h'
  have h₂ := hle h' h
  omega

section Run

variable {qt : Qt D} {id : Nat} {rows : List DbItem} {configured : Bool}
  {acts : List (AlarmAction D)} {n m : Nat} {t : Int}

theorem tState_of_lasts (h : AlarmLasts (moment qt id rows configured acts) acts n m t)
    (hm : m ≤ acts.length) : (moment qt id rows configured acts m).tState = t := by
  obtain ⟨hcalm, ⟨raising, hraising⟩, hnm, hlasts⟩ := h
  induction m, hnm using Nat.le_induction with
  | base =>
    have hn : n < acts.length := hm
    have hsucc := moment_succ qt id rows configured acts hn
    have halarm := hlasts (n + 1) (Nat.lt_succ_self n) (Nat.le_refl _)
    rw [hsucc] at halarm ⊢
    rcases alarmStep_tState qt halarm with ⟨hs, -⟩ | ⟨-, event, hevent⟩
    · exact absurd hs hcalm
    · rw [List.getElem?_eq_getElem hn, hevent, Option.some_inj] at hraising
      injection hraising
  | succ m hnm ih =>
    have hmlt : m < acts.length := hm
    have hsucc := moment_succ qt id rows configured acts hmlt
    have hbefore := hlasts m hnm (Nat.le_succ m)
    have halarm := hlasts (m + 1) (by omega) (Nat.le_refl _)
    have htime := ih (Nat.le_of_lt hmlt) fun k hk hkm => hlasts k hk (by omega)
    rw [hsucc] at halarm ⊢
    rcases alarmStep_tState qt halarm with ⟨-, hkept⟩ | ⟨hcalm', -⟩
    · exact hkept.trans htime
    · exact absurd hbefore hcalm'

theorem leaves_iff {j : Nat} {act : AlarmAction D}
    (hact : acts[m]? = some act)
    (hlasts : AlarmLasts (moment qt id rows configured acts) acts n m t)
    (hload : LastLoad (moment qt id rows configured acts) acts j m)
    (htarget : (moment qt id rows configured acts (m + 1)).targetState =
      (moment qt id rows configured acts m).targetState) :
    (moment qt id rows configured acts (m + 1)).curState ≠ .inAlarm ↔ ∃ now, IsTick act now ∧
      (moment qt id rows configured acts j).env.triggerDuration
        (moment qt id rows configured acts m).targetState * 1000 < now - t := by
  obtain ⟨hm, rfl⟩ := List.getElem?_eq_some_iff.mp hact
  obtain ⟨j', hload', -, hduration⟩ :=
    lastLoad_moment qt id rows configured acts m (Nat.le_of_lt hm)
  have hsucc := moment_succ qt id rows configured acts hm
  rw [hsucc] at htarget ⊢
  rw [alarmStep_leaves qt (hlasts.lasts m hlasts.before (Nat.le_refl m)) htarget,
    tState_of_lasts hlasts (Nat.le_of_lt hm), hduration, hload'.unique hload]

end Run

/-! ## When the trigger duration is honoured -/

theorem triggerDuration_of_configured {as : AlarmSystem} {mode : ArmMode} {exit duration : UInt8}
    (hmode : mode ≠ .disarmed) (hconf : Configured as mode exit duration)
    (hsame : mode = .armedAway ∨ exit = duration) :
    as.env.triggerDuration mode = duration.toNat := by
  cases mode with
  | disarmed => exact absurd rfl hmode
  | armedAway => exact hconf.duration _ rfl
  | armedStay | armedNight =>
    obtain hwrong | rfl := hsame
    · cases hwrong
    · exact hconf.exit

theorem triggerDuration_eq_exit {as : AlarmSystem} {mode : ArmMode} {exit duration : UInt8}
    (hmode : mode ≠ .disarmed) (haway : mode ≠ .armedAway)
    (hconf : Configured as mode exit duration) : as.env.triggerDuration mode = exit.toNat := by
  cases mode with
  | disarmed => exact absurd rfl hmode
  | armedAway => exact absurd rfl haway
  | armedStay | armedNight => exact hconf.exit

/-- The database rows of an alarm system that was left armed, with an exit delay and a trigger
duration of the mode. -/
def armedRows (mode : ArmMode) (exit duration : UInt8) : List DbItem :=
  [⟨.armMode, mode.toString, 0⟩, ⟨exitSuffix mode, decimal exit.toNat, exit.toNat⟩] ++
    (durationSuffix mode).toList.map fun i => ⟨i, decimal duration.toNat, duration.toNat⟩

def deviceAlarm (mode : ArmMode) : Event :=
  { resource := "/sensors", what := rEventDeviceAlarm, num := targetArmMask mode + 1 }

/-- The event of `AlarmSystem::timerFired` -/
def timerTick : Event := { resource := rAlarmSystems, what := rEventTimerFired }

/-- A device alarm at 0 ms, the entry delay passed at 120001 ms, and a timer tick `dt` ms later. -/
def alarmRaised (D : Type) (mode : ArmMode) (dt : Int) : List (AlarmAction D) :=
  [.event 0 (deviceAlarm mode), .event 120001 timerTick, .event (120001 + dt) timerTick]

theorem decimal_ne_nil (n : Nat) : decimal n ≠ [] := by
  simp [decimal, Nat.toDigits_ne_nil]

theorem number_loadItem_octet (as : AlarmSystem) {i : AlarmItem} (val : UInt8)
    (hdesc : i.descriptor.type = .uint8)
    (hrange : ResourceItem.inRange i.descriptor val.toNat = true) :
    (as.loadItem ⟨i, decimal val.toNat, val.toNat⟩).number i = val.toNat := by
  unfold loadItem
  rw [if_neg (decimal_ne_nil _)]
  simp only [hdesc, number_setItem_self]
  exact (ResourceItem.setNumber_eq_of_inRange hrange _).2

theorem loadItem_items_of_ne (as : AlarmSystem) (row : DbItem) {i : AlarmItem}
    (hi : i ≠ row.item) : (as.loadItem row).items i = as.items i := by
  unfold loadItem
  split
  · rfl
  · split
    · exact Function.update_of_ne hi _ _
    · exact Function.update_of_ne hi _ _
    · rfl

theorem start_armed {configured : Bool} {as : AlarmSystem} {mode : ArmMode}
    (hmode : mode ≠ .disarmed) (htext : ArmMode.fromString (as.text .armMode) = some mode) :
    (start configured as).targetState = mode ∧ (start configured as).curState = .armed := by
  have hprivate : ∀ bs : AlarmSystem, bs.updateArmStateAndPanelStatus.toAlarmSystemPrivate =
      bs.toAlarmSystemPrivate := fun bs =>
    congrArg Control.d (updateArmStateAndPanelStatus_control bs)
  have hstate := setState_toPrivate { as with targetState := mode } .armed
  unfold start
  rw [htext]
  cases mode with
  | disarmed => exact absurd rfl hmode
  | armedStay | armedNight | armedAway =>
    refine ⟨?_, ?_⟩
    · refine (congrArg AlarmSystemPrivate.targetState (hprivate _)).trans ?_
      exact congrArg AlarmSystemPrivate.targetState hstate
    · refine (congrArg AlarmSystemPrivate.curState (hprivate _)).trans ?_
      exact congrArg AlarmSystemPrivate.curState hstate

theorem start_items (configured : Bool) (as : AlarmSystem) {i : AlarmItem} (hi : ¬ IsStateItem i)
    (hne : i ≠ .configured) : (start configured as).items i = as.items i := by
  have hpublish : ∀ bs : AlarmSystem,
      (bs.updateArmStateAndPanelStatus.updateTargetStateValues.setItem .configured
        (ResourceItem.setNumber AlarmItem.configured.descriptor
          (bs.updateArmStateAndPanelStatus.updateTargetStateValues.items .configured)
          (if configured then 1 else 0)).1).items i = bs.items i := by
    intro bs
    exact (Function.update_of_ne hne _ _).trans
      ((updateArmStateAndPanelStatus_writesState bs).items i hi)
  have hset : ∀ (mode : ArmMode) (state : AlarmState),
      (setState { as with targetState := mode } state).items i = as.items i := fun mode state =>
    (setState_writesState { as with targetState := mode } state).items i hi
  unfold start
  cases ArmMode.fromString (as.text .armMode) with
  | none => exact hpublish as
  | some mode => cases mode <;> exact (hpublish _).trans (hset _ _)

theorem loaded_armedRows {mode : ArmMode} (hmode : mode ≠ .disarmed) (exit duration : UInt8) :
    let as := (armedRows mode exit duration).foldl loadItem (new 1)
    as.text .armMode = mode.toString ∧ as.number .alarmSystemId = 1 ∧ as.number (entrySuffix mode) =
      120 ∧ Configured as mode exit duration := by
  intro as
  have hrange : ∀ (i : AlarmItem) (val : UInt8), i.descriptor.validMin = 0 → i.descriptor.validMax =
      255 → ResourceItem.inRange i.descriptor val.toNat = true := by
    intro i val hmin hmax
    have hval := val.toNat_lt
    simp only [ResourceItem.inRange, hmin, hmax, Bool.or_eq_true, Bool.and_eq_true,
      decide_eq_true_eq]
    omega
  obtain ⟨i, hi, hduration, hexit, hnodup⟩ : ∃ i, durationSuffix mode = some i ∧ i.descriptor =
      ⟨.uint8, i.suffix, 0, 255⟩ ∧
      (exitSuffix mode).descriptor = ⟨.uint8, (exitSuffix mode).suffix, 0, 255⟩ ∧
      [i, exitSuffix mode, entrySuffix mode, .armMode, .alarmSystemId].Nodup := by
    cases mode with
    | disarmed => exact absurd rfl hmode
    | armedStay | armedNight | armedAway => exact ⟨_, rfl, rfl, rfl, by decide⟩
  simp only [List.nodup_cons, List.mem_cons, not_or] at hnodup
  obtain ⟨⟨hie, hin, him, hia, -⟩, ⟨hen, hem, hea, -⟩, ⟨hnm, hna, -⟩, ⟨hma, -⟩, -⟩ := hnodup
  have has : as = (((new 1).loadItem ⟨.armMode, mode.toString, 0⟩).loadItem
      ⟨exitSuffix mode, decimal exit.toNat, exit.toNat⟩).loadItem
      ⟨i, decimal duration.toNat, duration.toNat⟩ := by
    show (armedRows mode exit duration).foldl loadItem (new 1) = _
    rw [armedRows, hi]
    rfl
  have hlast : ∀ k, k ≠ i → k ≠ exitSuffix mode → as.items k =
      ((new 1).loadItem ⟨.armMode, mode.toString, 0⟩).items k := by
    intro k hki hke
    rw [has, loadItem_items_of_ne _ _ hki, loadItem_items_of_ne _ _ hke]
  have hnew : ∀ k, k ≠ i → k ≠ exitSuffix mode → k ≠ .armMode → as.items k = initialItems 1 k := by
    intro k hki hke hkm
    rw [hlast k hki hke, loadItem_items_of_ne _ _ hkm]
    rfl
  refine ⟨?_, ?_, ?_, ⟨?_, ?_⟩⟩
  · have htext := congrArg ResourceItem.str (hlast .armMode (Ne.symm him) (Ne.symm hem))
    refine htext.trans ?_
    cases mode <;> decide
  · exact congrArg ResourceItem.num (hnew _ (Ne.symm hia) (Ne.symm hea) (by decide))
  · have hinitial := congrArg ResourceItem.num (hnew _ (Ne.symm hin) (Ne.symm hen) hnm)
    refine hinitial.trans ?_
    cases mode with
    | disarmed => exact absurd rfl hmode
    | armedStay | armedNight | armedAway => rfl
  · rw [has]
    show ResourceItem.num _ = _
    rw [loadItem_items_of_ne _ _ (Ne.symm hie)]
    exact number_loadItem_octet _ exit (by rw [hexit]) (hrange _ _ (by rw [hexit]) (by rw [hexit]))
  · intro k hk
    rw [hi] at hk
    obtain rfl := Option.some.inj hk
    rw [has]
    exact number_loadItem_octet _ duration (by rw [hduration])
      (hrange _ _ (by rw [hduration]) (by rw [hduration]))

theorem started_armedRows {mode : ArmMode} (hmode : mode ≠ .disarmed) (exit duration : UInt8) :
    let as := started 1 (armedRows mode exit duration) true
    as.targetState = mode ∧ as.curState = .armed ∧ as.id = 1 ∧ as.number (entrySuffix mode) = 120 ∧
      Configured as mode exit duration := by
  intro as
  obtain ⟨htext, hid, hentry, hconf⟩ := loaded_armedRows hmode exit duration
  have hitem : ∀ i, ¬ IsStateItem i → i ≠ .configured → as.number i =
      ((armedRows mode exit duration).foldl loadItem (new 1)).number i :=
    fun i hi hne => congrArg ResourceItem.num (start_items true _ hi hne)
  have hstart := @start_armed true _ _ hmode
    ((congrArg ArmMode.fromString htext).trans (ArmMode.fromString_toString mode))
  refine ⟨hstart.1, hstart.2, ?_, ?_, ⟨?_, ?_⟩⟩
  · show as.number .alarmSystemId % 2 ^ 32 = 1
    rw [hitem _ (by simp [IsStateItem]) (by simp), hid]
    rfl
  · rw [hitem _ (by cases mode <;> simp [IsStateItem, entrySuffix])
      (by cases mode <;> simp [entrySuffix]), hentry]
  · rw [hitem _ (by cases mode <;> simp [IsStateItem, exitSuffix])
      (by cases mode <;> simp [exitSuffix]), hconf.exit]
  · intro i hi
    have hother : ¬ IsStateItem i ∧ i ≠ .configured := by
      cases mode with
      | disarmed => cases hi
      | armedStay | armedNight | armedAway =>
        cases hi
        simp [IsStateItem]
    rw [hitem i hother.1 hother.2, hconf.duration i hi]

theorem handleEvent_armed {as : AlarmSystem} {now : Int} {event : Event}
    (hs : as.curState = .armed) (hevent : event.what = rEventDeviceAlarm)
    (hmask : bitAnd event.num as.armMask ≠ 0) (hid : (bitAnd event.num 0xFF : Int) = as.id) :
    (as.handleEvent now event).control = (as.control.enter .entryDelay).startTimer now := by
  have harm : ¬ IsArmModeEvent event := by
    rintro ⟨-, hwhat⟩
    rw [hevent] at hwhat
    exact absurd hwhat (by decide)
  unfold handleEvent
  rw [if_neg harm]
  unfold curStateFunction
  rw [hs]
  simp only [stateArmed]
  rw [if_pos hevent, if_neg hmask, if_pos hid, startStateTimer_control, setState_control,
    setSecondsRemaining_control]

theorem handleEvent_entryDelay {as : AlarmSystem} {now : Int} {event : Event}
    (hs : as.curState = .entryDelay) (hevent : event.what = rEventTimerFired)
    (hdt : as.entryDelay * 1000 < now - as.tState) :
    (as.handleEvent now event).control = (as.control.startTimer now).enter .inAlarm := by
  have harm : ¬ IsArmModeEvent event := by
    rintro ⟨-, hwhat⟩
    rw [hevent] at hwhat
    exact absurd hwhat (by decide)
  unfold handleEvent
  rw [if_neg harm]
  unfold curStateFunction
  rw [hs]
  simp only [stateEntryDelay]
  rw [if_pos hevent, if_pos hdt, setState_control, startStateTimer_control,
    setSecondsRemaining_control]

theorem Configured.handleEvent {as : AlarmSystem} {mode : ArmMode} {exit duration : UInt8}
    (h : Configured as mode exit duration) (now : Int) (event : Event) :
    Configured (as.handleEvent now event) mode exit duration := by
  have hkept := (handleEvent_writesState now event as).items
  refine ⟨?_, ?_⟩
  · have hexit : ¬ IsStateItem (exitSuffix mode) := by
      cases mode <;> simp [IsStateItem, exitSuffix]
    exact (congrArg ResourceItem.num (hkept _ hexit)).trans h.exit
  · intro i hi
    have hother : ¬ IsStateItem i := by
      cases mode with
      | disarmed => cases hi
      | armedStay | armedNight | armedAway =>
        cases hi
        simp [IsStateItem]
    exact (congrArg ResourceItem.num (hkept i hother)).trans (h.duration i hi)

theorem alarmRaised_lasts (qt : Qt D) {mode : ArmMode} (hmode : mode ≠ .disarmed)
    (exit duration : UInt8) (dt : Int) :
    let acts := alarmRaised D mode dt
    let st := moment qt 1 (armedRows mode exit duration) true acts
    AlarmLasts st acts 1 2 120001 ∧ LastLoad st acts 0 2 ∧
      (∀ k, 0 ≤ k → k ≤ 2 → (st k).targetState = mode ∧ Configured (st k) mode exit duration) ∧
      (st 3).targetState = mode := by
  intro acts st
  obtain ⟨htarget, hs, hid, hentry, hconf⟩ := started_armedRows hmode exit duration
  have hmask := (started_consistent 1 (armedRows mode exit duration) true).mask
  have hdelay := (started_loaded 1 (armedRows mode exit duration) true).1
  change (st 0).targetState = mode at htarget
  change (st 0).curState = .armed at hs
  change (st 0).armMask = targetArmMask (st 0).targetState at hmask
  change (st 0).entryDelay = (st 0).number (entrySuffix (st 0).targetState) at hdelay
  change Configured (st 0) mode exit duration at hconf
  rw [htarget] at hmask hdelay
  -- the device alarm
  have hstep₁ : st 1 = (st 0).handleEvent 0 (deviceAlarm mode) := rfl
  have hone : (st 1).control = ((st 0).control.enter .entryDelay).startTimer 0 := by
    rw [hstep₁]
    refine handleEvent_armed hs rfl ?_ ?_
    · rw [hmask]
      cases mode with
      | disarmed => exact absurd rfl hmode
      | armedStay | armedNight | armedAway => decide
    · refine Eq.trans ?_ hid.symm
      cases mode <;> decide
  have hd₁ := congrArg Control.d hone
  have hs₁ : (st 1).curState = .entryDelay := congrArg AlarmSystemPrivate.curState hd₁
  have ht₁ : (st 1).tState = 0 := congrArg AlarmSystemPrivate.tState hd₁
  have hdelay₁ : (st 1).entryDelay = 120 :=
    (congrArg AlarmSystemPrivate.entryDelay hd₁).trans (hdelay.trans hentry)
  have htarget₁ : (st 1).targetState = mode :=
    (congrArg AlarmSystemPrivate.targetState hd₁).trans htarget
  -- the timer tick behind the entry delay
  have hstep₂ : st 2 = (st 1).handleEvent 120001 timerTick := rfl
  have htwo : (st 2).control = ((st 1).control.startTimer 120001).enter .inAlarm := by
    rw [hstep₂]
    refine handleEvent_entryDelay hs₁ rfl ?_
    rw [hdelay₁, ht₁]
    omega
  have hd₂ := congrArg Control.d htwo
  have hs₂ : (st 2).curState = .inAlarm := congrArg AlarmSystemPrivate.curState hd₂
  have htarget₂ : (st 2).targetState = mode :=
    (congrArg AlarmSystemPrivate.targetState hd₂).trans htarget₁
  have hnoload : ∀ (k : Nat) (act : AlarmAction D), acts[k]? = some act → ¬ Loads (st k) act := by
    intro k act hact hloads
    obtain ⟨hk, rfl⟩ := List.getElem?_eq_some_iff.mp hact
    have hcases : k = 0 ∨ k = 1 ∨ k = 2 := by
      have hlt : k < 3 := hk
      omega
    obtain rfl | rfl | rfl := hcases
    · have hwhat : rEventDeviceAlarm = rConfigArmMode := hloads.1.2
      exact absurd hwhat (by decide)
    · have hwhat : rEventTimerFired = rConfigArmMode := hloads.1.2
      exact absurd hwhat (by decide)
    · have hwhat : rEventTimerFired = rConfigArmMode := hloads.1.2
      exact absurd hwhat (by decide)
  refine ⟨⟨?_, ⟨_, rfl⟩, by omega, ?_⟩, ⟨by omega, .inl rfl, ?_⟩, ?_, ?_⟩
  · rw [hs₁]
    exact AlarmState.noConfusion
  · intro k hk hk2
    obtain rfl : k = 2 := by omega
    exact hs₂
  · intro k act _ _ hact
    exact hnoload k act hact
  · have hconf₁ : Configured (st 1) mode exit duration := hstep₁ ▸ hconf.handleEvent _ _
    have hconf₂ : Configured (st 2) mode exit duration := hstep₂ ▸ hconf₁.handleEvent _ _
    intro k _ hk
    have hcases : k = 0 ∨ k = 1 ∨ k = 2 := by omega
    obtain rfl | rfl | rfl := hcases
    · exact ⟨htarget, hconf⟩
    · exact ⟨htarget₁, hconf₁⟩
    · exact ⟨htarget₂, hconf₂⟩
  · have hkept := alarmStep_of_not_loads qt (st 2) _ (hnoload 2 _ rfl)
    exact hkept.2.2.trans htarget₂

theorem alarmRaised_leaves_iff (qt : Qt D) {mode : ArmMode} (hmode : mode ≠ .disarmed)
    (haway : mode ≠ .armedAway) (exit duration : UInt8) (dt : Int) :
    (moment qt 1 (armedRows mode exit duration) true (alarmRaised D mode dt) 3).curState ≠
      .inAlarm ↔ (exit.toNat : Int) * 1000 < dt := by
  obtain ⟨hlasts, hload, hkept, htarget⟩ := alarmRaised_lasts qt hmode exit duration dt
  have hkept₂ := (hkept 2 (by omega) (by omega)).1
  have hact : (alarmRaised D mode dt)[2]? = some (.event (120001 + dt) timerTick) := rfl
  refine (leaves_iff hact hlasts hload (htarget.trans hkept₂.symm)).trans ?_
  rw [hkept₂, triggerDuration_eq_exit hmode haway (hkept 0 (by omega) (by omega)).2]
  refine ⟨?_, fun hlt => ⟨_, ⟨_, rfl, rfl⟩, by omega⟩⟩
  rintro ⟨now, ⟨event, heq, -⟩, hlt⟩
  injection heq with hnow
  omega

theorem HonoursDuration.alarmRaised {qt : Qt D} {mode : ArmMode} {exit duration : UInt8}
    (h : HonoursDuration qt mode exit duration) (hmode : mode ≠ .disarmed) (dt : Int) :
    (moment qt 1 (armedRows mode exit duration) true (alarmRaised D mode dt) 3).curState ≠
      .inAlarm ↔ (duration.toNat : Int) * 1000 < dt := by
  obtain ⟨hlasts, hload, hkept, htarget⟩ := alarmRaised_lasts qt hmode exit duration dt
  have hact : (AlarmSystem.alarmRaised D mode dt)[2]? = some (.event (120001 + dt) timerTick) := rfl
  refine (h 1 _ true _ 1 0 2 120001 _ hact hlasts hload hkept htarget).trans ?_
  refine ⟨?_, fun hlt => ⟨_, ⟨_, rfl, rfl⟩, by omega⟩⟩
  rintro ⟨now, ⟨event, heq, -⟩, hlt⟩
  injection heq with hnow
  omega

/-- **The alarm lasts as configured** in the away mode, and in another armed mode exactly when its
exit delay is as long as its trigger duration, since it is the exit delay that is loaded. -/
theorem trigger_duration_honoured_iff (qt : Qt D) (mode : ArmMode) (hmode : mode ≠ .disarmed)
    (exit duration : UInt8) :
    HonoursDuration qt mode exit duration ↔ mode = .armedAway ∨ exit = duration := by
  refine ⟨fun h => ?_, ?_⟩
  · by_cases haway : mode = .armedAway
    · exact .inl haway
    · -- an alarm of every length `dt`
      have hdt : ∀ dt : Int, (exit.toNat : Int) * 1000 < dt ↔ (duration.toNat : Int) * 1000 < dt :=
        fun dt => (alarmRaised_leaves_iff qt hmode haway exit duration dt).symm.trans
          (h.alarmRaised hmode dt)
      have hle := (hdt (exit.toNat * 1000 + 1)).mp (by omega)
      have hge := (hdt (duration.toNat * 1000 + 1)).mpr (by omega)
      exact .inr (UInt8.toNat_inj.mp (by omega))
  · intro hsame id rows configured acts n j m t act st hact hlasts hload hkept htarget
    obtain ⟨htargetm, -⟩ := hkept m hload.1 (Nat.le_refl m)
    have hduration := triggerDuration_of_configured hmode
      (hkept j (Nat.le_refl j) hload.1).2 hsame
    have hcode := leaves_iff hact hlasts hload (htarget.trans htargetm.symm)
    rw [htargetm, hduration] at hcode
    exact hcode

theorem trigger_duration_honoured_iff_away :
    ArmMode.armedAway ≠ .disarmed ∧ (HonoursDuration Qt.whole .armedAway 30 120 ↔
      ArmMode.armedAway = .armedAway ∨ (30 : UInt8) = 120) :=
  ⟨by decide, trigger_duration_honoured_iff Qt.whole .armedAway (by decide) 30 120⟩

/-- Armed to stay with an exit delay of 0 and a trigger duration of 120 seconds, the alarm ends
with the tick one millisecond after it was raised. -/
theorem alarm_cut_short :
    let st := moment Qt.whole 1 (armedRows .armedStay 0 120) true (alarmRaised Int .armedStay 1)
    (st 2).curState = .inAlarm ∧ (st 2).targetState = .armedStay ∧
      (st 2).number .armedStayTriggerDuration = 120 ∧ (st 3).curState ≠ .inAlarm ∧
      ¬ HonoursDuration Qt.whole .armedStay 0 120 := by
  intro st
  have hmode : ArmMode.armedStay ≠ .disarmed := by decide
  obtain ⟨hlasts, -, hkept, -⟩ := alarmRaised_lasts Qt.whole hmode 0 120 1
  obtain ⟨htarget, hconf⟩ := hkept 2 (by omega) (by omega)
  have hleft : (st 3).curState ≠ .inAlarm :=
    (alarmRaised_leaves_iff Qt.whole hmode (by decide) 0 120 1).mpr (by decide)
  refine ⟨hlasts.lasts 2 (by omega) (by omega), htarget, hconf.duration _ rfl, hleft, ?_⟩
  intro h
  exact absurd ((h.alarmRaised hmode 1).mp hleft) (by decide)

end AlarmSystem
end DeconzRest

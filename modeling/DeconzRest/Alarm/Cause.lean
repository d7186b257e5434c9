import DeconzRest.Alarm.Invariant

/-!
# No alarm without a cause

A run of an alarm system is looked at through its moments: `stateAt .. n` is the
state before step `n`.  An alarm is raised by one step only, a timer tick in the entry
delay state, so what is known since the last load (`LoadedSince`) and since that state
was entered (`EntrySince`) gives the cause of every alarm.
-/

namespace DeconzRest
namespace AlarmSystem

variable {D : Type}

/-- An action by which the parameters of the target mode are loaded again. -/
def Loads (as : AlarmSystem) : AlarmAction D → Prop
  | .event _ event => IsArmModeEvent event ∧ as.env.requested.isSome
  | _ => False

/-- Step `i` is a device alarm that carries the id of the alarm system and the
mask bit of `mode`, received at time `t` in the armed state. -/
def DeviceAlarmAt (st : Nat → AlarmSystem) (acts : List (AlarmAction D)) (i : Nat)
    (mode : ArmMode) (t : Int) : Prop :=
  ∃ event, acts[i]? = some (.event t event) ∧ event.what = rEventDeviceAlarm ∧
    (bitAnd event.num 0xFF : Int) = (st i).id ∧
    bitAnd event.num (targetArmMask mode) ≠ 0 ∧ (st i).curState = .armed

/-- The target mode is `mode` from moment `i` to moment `n`. -/
def TargetKept (st : Nat → AlarmSystem) (i n : Nat) (mode : ArmMode) : Prop :=
  ∀ k, i ≤ k → k ≤ n → (st k).targetState = mode

/-- At moment `j` the parameters of the target mode had just been loaded, and no
step from `j` to `n` loads them again. -/
def LastLoad (st : Nat → AlarmSystem) (acts : List (AlarmAction D)) (j n : Nat) : Prop :=
  j ≤ n ∧ (j = 0 ∨ ∃ act, acts[j - 1]? = some act ∧ Loads (st (j - 1)) act) ∧ ∀ k act, j ≤ k → k <
    n → acts[k]? = some act → ¬ Loads (st k) act

/-- Step `n` makes `state/armstate` become "in_alarm". -/
def RaisesAlarm (st : Nat → AlarmSystem) (n : Nat) : Prop :=
  (st n).number .armState ≠ PanelStatus.inAlarm.code ∧ (st (n + 1)).number .armState =
    PanelStatus.inAlarm.code

theorem alarmStep_of_loads (qt : Qt D) (as : AlarmSystem) (act : AlarmAction D)
    (h : Loads as act) :
    (alarmStep qt as act).entryDelay =
        (alarmStep qt as act).number (entrySuffix (alarmStep qt as act).targetState) ∧
      (alarmStep qt as act).triggerDuration =
        (alarmStep qt as act).env.triggerDuration (alarmStep qt as act).targetState := by
  cases act with
  | setTargetArmMode mode => exact h.elim
  | setDelay i val => exact h.elim
  | event now event =>
    have hload := (handleEvent_controlStep now event as).of_load h
    rw [← handleEvent_env now event as] at hload
    exact hload

theorem alarmStep_of_not_loads (qt : Qt D) (as : AlarmSystem) (act : AlarmAction D)
    (h : ¬ Loads as act) :
    (alarmStep qt as act).entryDelay = as.entryDelay ∧ (alarmStep qt as act).triggerDuration =
      as.triggerDuration ∧
      (alarmStep qt as act).targetState = as.targetState := by
  rcases alarmStep_control qt as act with ⟨now, event, rfl⟩ | hsame
  · exact (handleEvent_controlStep now event as).of_not_load h
  · have hd : (alarmStep qt as act).toAlarmSystemPrivate = as.toAlarmSystemPrivate :=
      congrArg Control.d hsame
    rw [hd]
    exact ⟨rfl, rfl, rfl⟩

theorem alarmStep_to_entryDelay (qt : Qt D) (as : AlarmSystem) (act : AlarmAction D)
    (h : (alarmStep qt as act).curState = .entryDelay) :
    (alarmStep qt as act).targetState = as.targetState ∧
      ((as.curState = .entryDelay ∧ (alarmStep qt as act).tState = as.tState) ∨ ∃ event, act =
        .event (alarmStep qt as act).tState event ∧ event.what = rEventDeviceAlarm ∧
          (bitAnd event.num 0xFF : Int) = as.id ∧
          bitAnd event.num as.armMask ≠ 0 ∧ as.curState = .armed) := by
  rcases alarmStep_control qt as act with ⟨now, event, rfl⟩ | hsame
  · obtain ⟨htarget, hcase⟩ := (handleEvent_controlStep now event as).to_entryDelay h
    refine ⟨htarget, ?_⟩
    rcases hcase with ⟨hs, ht⟩ | ⟨hev, hid, hmask, hs, ht⟩
    · exact .inl ⟨hs, ht⟩
    · have htime : (alarmStep qt as (.event now event)).tState = now := ht
      rw [htime]
      exact .inr ⟨event, rfl, hev, hid, hmask, hs⟩
  · have hd : (alarmStep qt as act).toAlarmSystemPrivate = as.toAlarmSystemPrivate :=
      congrArg Control.d hsame
    rw [hd] at h ⊢
    exact ⟨rfl, .inl ⟨h, rfl⟩⟩

theorem alarmStep_raisesAlarm (qt : Qt D) (as : AlarmSystem) (act : AlarmAction D)
    (hc : as.control.Consistent) (hbefore : as.number .armState ≠ PanelStatus.inAlarm.code)
    (hafter : (alarmStep qt as act).number .armState = PanelStatus.inAlarm.code) :
    as.curState = .entryDelay ∧ (alarmStep qt as act).targetState = as.targetState ∧
      ∃ now event, act = .event now event ∧ as.entryDelay * 1000 < now - as.tState := by
  have hcalm : as.control.d.curState ≠ .inAlarm := fun hs => hbefore (hc.inAlarm_iff.mpr hs)
  have halarm : (alarmStep qt as act).control.d.curState = .inAlarm :=
    (alarmStep_consistent qt as act hc).inAlarm_iff.mp hafter
  rcases alarmStep_control qt as act with ⟨now, event, rfl⟩ | hsame
  · obtain ⟨hs, htarget, hdt⟩ :=
      (handleEvent_controlStep now event as).to_inAlarm hcalm halarm
    exact ⟨hs, htarget, now, event, rfl, hdt⟩
  · rw [hsame] at halarm
    exact absurd halarm hcalm

/-! ## The two facts along a run -/

/-- The entry delay in use at moment `n` is the one that was configured for the
target mode when it was last loaded. -/
def LoadedSince (st : Nat → AlarmSystem) (acts : List (AlarmAction D)) (n : Nat)
    (as : AlarmSystem) : Prop :=
  ∃ j, LastLoad st acts j n ∧ as.entryDelay = (st j).number (entrySuffix as.targetState)

/-- In the entry delay state at moment `n`: the device alarm that led there, at
the time the state timer started, with the target mode kept since. -/
def EntrySince (st : Nat → AlarmSystem) (acts : List (AlarmAction D)) (n : Nat)
    (as : AlarmSystem) : Prop :=
  as.curState = .entryDelay → ∃ i, i < n ∧ DeviceAlarmAt st acts i as.targetState as.tState ∧
    TargetKept st i n as.targetState

theorem started_loaded (id : Nat) (rows : List DbItem) (configured : Bool) :
    (started id rows configured).entryDelay =
        (started id rows configured).number
          (entrySuffix (started id rows configured).targetState) ∧
      (started id rows configured).triggerDuration =
        (started id rows configured).env.triggerDuration
          (started id rows configured).targetState := by
  have hne : ∀ mode, entrySuffix mode ≠ .configured := by
    intro mode
    cases mode <;> decide
  have htrigger : ∀ (as : AlarmSystem) (it : ResourceItem),
      (as.updateTargetStateValues.setItem .configured it).triggerDuration =
        (as.updateTargetStateValues.setItem .configured it).env.triggerDuration
          as.targetState := by
    intro as it
    show as.updateTargetStateValues.triggerDuration = _
    rw [updateTargetStateValues_triggerDuration]
    unfold env
    simp only
    cases as.targetState with
    | disarmed => rfl
    | armedStay | armedNight | armedAway => exact (number_setItem_of_ne _ it (by decide)).symm
  unfold started start
  exact ⟨(number_setItem_of_ne _ _ (hne _)).symm, htrigger _ _⟩

theorem start_timerActive (configured : Bool) (as : AlarmSystem) :
    (start configured as).timerActive = as.timerActive := by
  have hpublish : ∀ bs : AlarmSystem, bs.updateArmStateAndPanelStatus.timerActive =
      bs.timerActive := fun bs =>
    congrArg (fun c : Control => c.d.timerActive) (updateArmStateAndPanelStatus_control bs)
  unfold start
  cases ArmMode.fromString (as.text .armMode) with
  | none => exact hpublish as
  | some mode => cases mode <;> exact (hpublish _).trans (hpublish _)

theorem started_not_entryDelay (id : Nat) (rows : List DbItem) (configured : Bool) :
    (started id rows configured).curState ≠ .entryDelay := by
  intro hs
  have htimer : (started id rows configured).timerActive =
      (started id rows configured).curState.timed :=
    (started_consistent id rows configured).timer
  have hloaded : (rows.foldl loadItem (new id)).timerActive = false :=
    congrArg AlarmSystemPrivate.timerActive (loaded_toPrivate rows (new id))
  rw [hs, started, start_timerActive, hloaded] at htimer
  exact Bool.noConfusion htimer

section Run

variable (qt : Qt D) (id : Nat) (rows : List DbItem) (configured : Bool)
  (acts : List (AlarmAction D))

/-- The state before step `n` of a run of a started alarm system. -/
def moment (n : Nat) : AlarmSystem :=
  Transition.stateAt (alarmStep qt) (started id rows configured) acts n

theorem moment_succ {n : Nat} (h : n < acts.length) :
    moment qt id rows configured acts (n + 1) =
      alarmStep qt (moment qt id rows configured acts n) acts[n] :=
  Transition.stateAt_succ (alarmStep qt) _ acts h

theorem moment_consistent (n : Nat) : (moment qt id rows configured acts n).control.Consistent :=
  run_consistent qt id rows configured (acts.take n)

theorem lastLoad_moment (n : Nat) (hn : n ≤ acts.length) :
    ∃ j, LastLoad (moment qt id rows configured acts) acts j n ∧
      (moment qt id rows configured acts n).entryDelay =
        (moment qt id rows configured acts j).number
          (entrySuffix (moment qt id rows configured acts n).targetState) ∧
      (moment qt id rows configured acts n).triggerDuration =
        (moment qt id rows configured acts j).env.triggerDuration
          (moment qt id rows configured acts n).targetState := by
  refine Transition.stateAt_induction
    (P := fun n (as : AlarmSystem) => ∃ j, LastLoad (moment qt id rows configured acts) acts j n ∧
      as.entryDelay = (moment qt id rows configured acts j).number (entrySuffix as.targetState) ∧
      as.triggerDuration =
        (moment qt id rows configured acts j).env.triggerDuration as.targetState) ?_ ?_ n hn
  · refine ⟨0, ⟨Nat.le_refl 0, .inl rfl, ?_⟩, started_loaded id rows configured⟩
    intro k act _ hk
    omega
  · intro k hk hloaded
    have hact : acts[k]? = some acts[k] := List.getElem?_eq_getElem hk
    have hsucc := moment_succ qt id rows configured acts hk
    rw [← moment, ← hsucc]
    by_cases hloads : Loads (moment qt id rows configured acts k) acts[k]
    · -- the parameters are loaded by this very step
      refine ⟨k + 1, ⟨Nat.le_refl _, .inr ⟨acts[k], hact, hloads⟩, ?_⟩, ?_⟩
      · intro l act hl hlt
        omega
      · rw [hsucc]
        exact alarmStep_of_loads qt _ _ hloads
    · obtain ⟨j, ⟨hj, hfirst, hnone⟩, hdelay, hduration⟩ := hloaded
      obtain ⟨hsame, htrigger, htarget⟩ := alarmStep_of_not_loads qt _ _ hloads
      refine ⟨j, ⟨by omega, hfirst, ?_⟩, ?_⟩
      · intro l act hjl hlk hl
        rcases Nat.lt_succ_iff_lt_or_eq.mp hlk with hlt | rfl
        · exact hnone l act hjl hlt hl
        · rw [hact, Option.some_inj] at hl
          rw [← hl]
          exact hloads
      · rw [hsucc, hsame, htrigger, htarget]
        exact ⟨hdelay, hduration⟩

theorem loadedSince_moment (n : Nat) (hn : n ≤ acts.length) :
    LoadedSince (moment qt id rows configured acts) acts n
      (moment qt id rows configured acts n) := by
  obtain ⟨j, hj, hdelay, -⟩ := lastLoad_moment qt id rows configured acts n hn
  exact ⟨j, hj, hdelay⟩

theorem entrySince_moment (n : Nat) (hn : n ≤ acts.length) :
    EntrySince (moment qt id rows configured acts) acts n
      (moment qt id rows configured acts n) := by
  refine Transition.stateAt_induction
    (P := EntrySince (moment qt id rows configured acts) acts) ?_ ?_ n hn
  · intro hentry
    exact absurd hentry (started_not_entryDelay id rows configured)
  · intro k hk hsince hentry
    have hact : acts[k]? = some acts[k] := List.getElem?_eq_getElem hk
    have hsucc := moment_succ qt id rows configured acts hk
    rw [← moment, ← hsucc] at hentry ⊢
    rw [hsucc] at hentry
    obtain ⟨htarget, hcase⟩ := alarmStep_to_entryDelay qt _ _ hentry
    rw [← hsucc] at htarget hcase
    rcases hcase with ⟨hs, ht⟩ | ⟨event, hevent, hev, hid, hmask, hs⟩
    · -- the state is kept, and with it its cause
      obtain ⟨i, hi, halarm, hkept⟩ := hsince hs
      rw [htarget, ht]
      refine ⟨i, by omega, halarm, ?_⟩
      intro l hil hlk
      rcases Nat.le_succ_iff.mp hlk with hle | rfl
      · exact hkept l hil hle
      · exact htarget
    · -- step `k` is the device alarm
      have hc := moment_consistent qt id rows configured acts k
      have harm : (moment qt id rows configured acts k).armMask =
          targetArmMask (moment qt id rows configured acts k).targetState := hc.mask
      rw [harm] at hmask
      rw [htarget]
      refine ⟨k, Nat.lt_succ_self k, ⟨event, ?_, hev, hid, hmask, hs⟩, ?_⟩
      · rw [hact, hevent]
      · intro l hkl hlk
        rcases Nat.le_succ_iff.mp hlk with hle | rfl
        · rw [Nat.le_antisymm hle hkl]
        · exact htarget

/-- **No alarm without a cause.**  Whenever a step of a run of a started alarm
system makes `state/armstate` become "in_alarm", an earlier device alarm carried
the id of the alarm system and the mask bit of the target mode, it was received
in the armed state, the target mode did not change since, and more time has
passed than the entry delay that was configured for that mode when its
parameters were last loaded. -/
theorem alarm_has_cause (n : Nat) (hn : n < acts.length)
    (halarm : RaisesAlarm (moment qt id rows configured acts) n) :
    let st := moment qt id rows configured acts
    let mode := (st (n + 1)).targetState
    ∃ i t now event j, i < n ∧ DeviceAlarmAt st acts i mode t ∧ TargetKept st i (n + 1) mode ∧
      acts[n]? = some (.event now event) ∧ LastLoad st acts j n ∧
      (st j).number (entrySuffix mode) * 1000 < now - t := by
  intro st mode
  obtain ⟨hbefore, hafter⟩ := halarm
  rw [moment_succ qt id rows configured acts hn] at hafter
  obtain ⟨hs, htarget, now, event, hact, hdt⟩ :=
    alarmStep_raisesAlarm qt _ _ (moment_consistent qt id rows configured acts n) hbefore hafter
  rw [← moment_succ qt id rows configured acts hn] at htarget
  obtain ⟨i, hi, hdevice, hkept⟩ := entrySince_moment qt id rows configured acts n (Nat.le_of_lt hn) hs
  obtain ⟨j, hj, hdelay⟩ := loadedSince_moment qt id rows configured acts n (Nat.le_of_lt hn)
  rw [← htarget] at hdevice hkept
  refine ⟨i, (st n).tState, now, event, j, hi, hdevice, ?_, ?_, hj, ?_⟩
  · intro k hik hkn
    rcases Nat.le_succ_iff.mp hkn with hle | rfl
    · exact hkept k hik hle
    · rfl
  · rw [List.getElem?_eq_getElem hn, hact]
  · rw [hdelay, ← htarget] at hdt
    exact hdt

end Run

/-- A run in which the configured entry delay is raised after it was loaded: armed
away with an entry delay of 0, then 120 configured, a device alarm at 0 ms and a
timer tick at 1001 ms. -/
def delayRaised : List (AlarmAction Int) :=
  [.setDelay .armedAwayEntryDelay (.int 120),
    .event 0 { resource := "/sensors", what := rEventDeviceAlarm, num := 0x0101 },
    .event 1001 { resource := rAlarmSystems, what := rEventTimerFired }]

/-- The database rows of an alarm system that was left armed away, without an
entry delay. -/
def armedAwayRows : List DbItem :=
  [⟨.armMode, ArmMode.armedAway.toString, 0⟩, ⟨.armedAwayEntryDelay, QString.ofLatin1 "0", 0⟩]

theorem alarm_has_cause_delayRaised :
    let st := moment Qt.whole 1 armedAwayRows true delayRaised
    RaisesAlarm st 2 ∧ ∃ i t now event j, i < 2 ∧
      DeviceAlarmAt st delayRaised i (st 3).targetState t ∧
      TargetKept st i 3 (st 3).targetState ∧
      delayRaised[2]? = some (.event now event) ∧ LastLoad st delayRaised j 2 ∧
      (st j).number (entrySuffix (st 3).targetState) * 1000 < now - t := by
  have halarm : RaisesAlarm (moment Qt.whole 1 armedAwayRows true delayRaised) 2 :=
    ⟨by decide, by decide⟩
  exact ⟨halarm, alarm_has_cause Qt.whole 1 armedAwayRows true delayRaised 2 (by decide) halarm⟩

/-- The entry delay in use is not the one configured when the device alarm or the
alarm happens: with the delay read at any moment between the two, the statement
fails. -/
theorem alarm_before_configured_delay :
    ¬ ∀ (qt : Qt Int) (id : Nat) (rows : List DbItem) (configured : Bool)
        (acts : List (AlarmAction Int)) (n : Nat), n < acts.length →
        RaisesAlarm (moment qt id rows configured acts) n →
        ∃ i t now event k, i < n ∧
          DeviceAlarmAt (moment qt id rows configured acts) acts i
            (moment qt id rows configured acts (n + 1)).targetState t ∧
          acts[n]? = some (.event now event) ∧ i ≤ k ∧ k ≤ n + 1 ∧
          (moment qt id rows configured acts k).number
            (entrySuffix (moment qt id rows configured acts (n + 1)).targetState) * 1000 <
              now - t := by
  intro hclaim
  obtain ⟨i, t, now, event, k, hi, halarm, hact, hik, hk, hdt⟩ :=
    hclaim Qt.whole 1 armedAwayRows true delayRaised 2 (by decide)
      ⟨by decide, by decide⟩
  obtain ⟨alarm, halarmAct, -⟩ := halarm
  have htick : some (AlarmAction.event 1001
      { resource := rAlarmSystems, what := rEventTimerFired }) = some (.event now event) := hact
  have hnow : now = 1001 := by
    injection htick with htick
    injection htick with hnow
    exact hnow.symm
  -- step 0 is no event, so the device alarm is step 1, at time 0
  have hfirst : i = 1 ∧ t = 0 := by
    rcases Nat.lt_succ_iff_lt_or_eq.mp hi with hzero | rfl
    · obtain rfl : i = 0 := by omega
      change some (AlarmAction.setDelay _ _) = some (.event t alarm) at halarmAct
      simp at halarmAct
    · injection halarmAct with halarmAct
      injection halarmAct with ht
      exact ⟨rfl, ht.symm⟩
  obtain ⟨rfl, rfl⟩ := hfirst
  -- from the device alarm on, the configured delay is 120 seconds
  have hconfigured : (moment Qt.whole 1 armedAwayRows true delayRaised k).number
      .armedAwayEntryDelay = 120 := by
    obtain rfl | rfl | rfl : k = 1 ∨ k = 2 ∨ k = 3 := by omega
    · decide
    · decide
    · decide
  change (moment Qt.whole 1 armedAwayRows true delayRaised k).number .armedAwayEntryDelay * 1000 <
    now - 0 at hdt
  omega

end AlarmSystem
end DeconzRest

import DeconzRest.Lib.Transition

/-!
# The device tick

`DeviceTick` pokes one device after the other: every second the next device is asked to poll,
and while permit join is enabled the joining devices are awakened twice a second.  A state is a
handler; entering a state starts the timer and leaving it stops the timer.

What a timeout finds outside of the machine (the time, the APS queue and the devices) is its
`TickWorld`; the events that are emitted are kept in `log`, oldest first.
-/

namespace DeconzRest

/-- The state handlers `DT_StateInit`, `DT_StateJoin`, `DT_StateIdle` and `DT_StatePoll`. -/
inductive TickState where
  | init | join | idle | poll
deriving DecidableEq, Repr

structure JoinDevice where
  deviceKey : Nat
  macCapabilities : UInt8
deriving DecidableEq, Repr

/-- What is asked of a `Device`. -/
structure TickDevice where
  key : Nat
  reachable : Bool := true
  managed : Bool := true
deriving DecidableEq, Repr

/-- What a timeout finds: the steady time in milliseconds, `DA_ApsUnconfirmedRequests`,
`DEV_OtauBusy` and the devices. -/
structure TickWorld where
  now : Int
  unconfirmed : Nat := 0
  otauBusy : Bool := false
  devices : List TickDevice := []
deriving DecidableEq, Repr

inductive TickOutput where
  /-- `REventPoll` -/
  | poll (deviceKey : Nat)
  /-- `REventAwake` -/
  | awake (deviceKey : Nat)
deriving DecidableEq, Repr

/-- What comes to the machine; an expired timer is `timeout`. -/
inductive TickEvent where
  | permitjoinEnabled
  | permitjoinDisabled (now : Int)
  | deviceAnnounce (deviceKey : Nat) (macCapabilities : UInt8)
  | pollDone (deviceKey : Nat)
  | timeout (w : TickWorld)
deriving DecidableEq, Repr

/-- `DeviceTickPrivate`; the timer is the interval of the running timer, and 0 is no time for
`joinDisabledTime`. -/
structure DeviceTick where
  stateHandler : TickState := .init
  joinDevices : List JoinDevice := []
  joinDisabledTime : Int := 0
  timer : Option Nat
  devIter : Nat := 0
  curDeviceKey : Nat := 0
  curDeviceManaged : Bool := false
  log : List TickOutput := []
deriving DecidableEq, Repr

namespace DeviceTick

/-- `DEV_TICK_BOOT_TIME` -/
def bootTime : Nat := 8000

/-- `TICK_INTERVAL_JOIN` -/
def intervalJoin : Nat := 500

/-- `TICK_INTERVAL_IDLE` -/
def intervalIdle : Nat := 1000

/-- `TICK_INTERVAL_IDLE_OTAU` -/
def intervalIdleOtau : Nat := 6000

/-- `TICK_INTERVAL_POLL_TIMOUT` -/
def intervalPollTimout : Nat := 10000

/-- `DeviceTick::DeviceTick` -/
def start : DeviceTick := { timer := some bootTime }

/-- `DT_StartTimer` -/
def startTimer (d : DeviceTick) (timeoutMs : Nat) : DeviceTick := { d with timer := some timeoutMs }

/-- `DT_StopTimer` -/
def stopTimer (d : DeviceTick) : DeviceTick := { d with timer := none }

/-- `REventStateLeave` -/
def leave (d : DeviceTick) : DeviceTick :=
  match d.stateHandler with
  | .init => d
  | .idle | .poll => d.stopTimer
  | .join => { d.stopTimer with joinDevices := [] }

/-- `REventStateEnter` -/
def enter (d : DeviceTick) : DeviceTick :=
  match d.stateHandler with
  | .init => d
  | .idle => d.startTimer intervalIdle
  | .poll => d.startTimer intervalPollTimout
  | .join => { d with joinDisabledTime := 0 }.startTimer intervalJoin

/-- `DT_SetState` -/
def setState (d : DeviceTick) (state : TickState) : DeviceTick :=
  if d.stateHandler ≠ state then { d.leave with stateHandler := state }.enter else d

/-- `DT_PollNextIdleDevice`, and whether a device was polled. -/
def pollNextIdleDevice (d : DeviceTick) (devices : List TickDevice) : DeviceTick × Bool :=
  match devices[d.devIter % devices.length]? with
  | none => (d, false) -- no devices
  | some device =>
    let d := { d with devIter := d.devIter % devices.length + 1 }
    if device.reachable then
      ({ d with curDeviceKey := device.key, curDeviceManaged := device.managed,
                log := d.log ++ [.poll device.key] }, true)
    else
      (d, false)

/-- `DT_StateInit` -/
def stateInit (d : DeviceTick) : TickEvent → DeviceTick
  | .timeout _ => d.setState .idle
  | _ => d

/-- `DT_StateIdle`; there is no polling while many requests are unconfirmed. -/
def stateIdle (d : DeviceTick) : TickEvent → DeviceTick
  | .permitjoinEnabled => d.setState .join
  | .timeout w =>
    let polled := if w.unconfirmed < 4 then d.pollNextIdleDevice w.devices else (d, false)
    if polled.2 then polled.1.setState .poll
    else polled.1.startTimer (if w.otauBusy then intervalIdleOtau else intervalIdle)
  | _ => d

/-- `DT_StatePoll` -/
def statePoll (d : DeviceTick) : TickEvent → DeviceTick
  | .permitjoinEnabled => d.setState .join
  | .timeout _ => d.setState .idle
  | .pollDone _ => d.setState .idle
  | _ => d

/-- `DT_RegisterJoiningDevice` -/
def registerJoiningDevice (d : DeviceTick) (deviceKey : Nat) (macCapabilities : UInt8) :
    DeviceTick :=
  if d.joinDevices.any fun dev => deviceKey == dev.deviceKey then d
  else { d with joinDevices := d.joinDevices ++ [⟨deviceKey, macCapabilities⟩] }

/-- `DT_PollNextJoiningDevice` -/
def pollNextJoiningDevice (d : DeviceTick) : DeviceTick :=
  match d.joinDevices[d.devIter % d.joinDevices.length]? with
  | none => d -- no joining devices
  | some device =>
    { d with devIter := d.devIter % d.joinDevices.length + 1,
             log := d.log ++ [.awake device.deviceKey] }

/-- Permit join was disabled more than 20 seconds ago. -/
def joinOver (d : DeviceTick) (now : Int) : Prop :=
  d.joinDisabledTime ≠ 0 ∧ 20 * 1000 < now - d.joinDisabledTime

instance (d : DeviceTick) (now : Int) : Decidable (d.joinOver now) :=
  inferInstanceAs (Decidable (_ ∧ _))

/-- `DT_StateJoin` -/
def stateJoin (d : DeviceTick) : TickEvent → DeviceTick
  | .permitjoinDisabled now => { d with joinDisabledTime := now }
  | .deviceAnnounce deviceKey macCapabilities =>
    d.registerJoiningDevice deviceKey macCapabilities
  | .timeout w =>
    -- let fast polling finish even when permit join is disabled again
    if d.joinOver w.now then d.setState .idle
    else d.pollNextJoiningDevice.startTimer intervalJoin
  | _ => d

/-- `DeviceTick::handleEvent` -/
def handleEvent (d : DeviceTick) (e : TickEvent) : DeviceTick :=
  match d.stateHandler with
  | .init => d.stateInit e
  | .join => d.stateJoin e
  | .idle => d.stateIdle e
  | .poll => d.statePoll e

def step (d : DeviceTick) (e : TickEvent) : DeviceTick :=
  match e with
  | .timeout w => if d.timer.isSome then d.stopTimer.handleEvent (.timeout w) else d
  | e => d.handleEvent e

/-! ## What an event does -/

section setState

variable (d : DeviceTick) (s : TickState)

@[simp] theorem enter_stateHandler : d.enter.stateHandler = d.stateHandler := by
  cases d with
  | mk stateHandler =>
    cases stateHandler with
    | init | idle | poll | join => rfl

@[simp] theorem setState_stateHandler : (d.setState s).stateHandler = s := by
  unfold setState
  split
  · exact enter_stateHandler _
  · rename_i hsame
    exact not_not.mp hsame

theorem setState_timer (hs : s ≠ .init) (h : d.stateHandler ≠ s) :
    (d.setState s).timer.isSome = true := by
  unfold setState
  rw [if_pos h]
  unfold enter
  cases s with
  | init => exact absurd rfl hs
  | idle | poll | join => rfl

theorem setState_joinDevices :
    (d.setState s).joinDevices = d.joinDevices ∨ (d.setState s).joinDevices = [] := by
  have henter : ∀ d : DeviceTick, d.enter.joinDevices = d.joinDevices := by
    intro d
    unfold enter
    cases d.stateHandler with
    | init | idle | poll | join => rfl
  unfold setState
  split
  · rw [henter]
    unfold leave
    cases d.stateHandler with
    | init | idle | poll => exact .inl rfl
    | join => exact .inr rfl
  · exact .inl rfl

end setState

/-- Polling and awaking leave the state, the timer and the joining devices alone. -/
structure Same (d d' : DeviceTick) : Prop where
  stateHandler : d'.stateHandler = d.stateHandler
  timer : d'.timer = d.timer
  joinDevices : d'.joinDevices = d.joinDevices

variable (d : DeviceTick)

theorem same_pollNextIdleDevice (devices : List TickDevice) :
    Same d (d.pollNextIdleDevice devices).1 := by
  unfold pollNextIdleDevice
  split
  · exact ⟨rfl, rfl, rfl⟩
  · simp only
    split <;> exact ⟨rfl, rfl, rfl⟩

theorem same_pollNextJoiningDevice : Same d d.pollNextJoiningDevice := by
  unfold pollNextJoiningDevice
  split <;> exact ⟨rfl, rfl, rfl⟩

inductive Outcome (d : DeviceTick) : TickEvent → DeviceTick → Prop
  | stays {e : TickEvent} {d' : DeviceTick} (hstate : d'.stateHandler = d.stateHandler)
      (htimer : d.timer.isSome → d'.timer.isSome)
      (hjoin : d'.joinDevices = d.joinDevices ∨ ∃ key cap, d' = d.registerJoiningDevice key cap)
      (henabled : e = .permitjoinEnabled → d.stateHandler = .init ∨ d.stateHandler = .join) :
      Outcome d e d'
  | boots {w : TickWorld} {d' : DeviceTick} (hstate : d.stateHandler = .init)
      (hset : d' = d.stopTimer.setState .idle) : Outcome d (.timeout w) d'
  | joins {d' : DeviceTick} (hstate : d.stateHandler = .idle ∨ d.stateHandler = .poll)
      (hset : d' = d.setState .join) : Outcome d .permitjoinEnabled d'
  | joined {w : TickWorld} {d' : DeviceTick} (hstate : d.stateHandler = .join)
      (hover : d.joinOver w.now) (hset : d' = d.stopTimer.setState .idle) :
      Outcome d (.timeout w) d'
  | polls {w : TickWorld} {d' : DeviceTick} (hstate : d.stateHandler = .idle) {d'' : DeviceTick}
      (hsame : Same d.stopTimer d'') (hset : d' = d''.setState .poll) : Outcome d (.timeout w) d'
  | pollTimeout {w : TickWorld} {d' : DeviceTick} (hstate : d.stateHandler = .poll)
      (hset : d' = d.stopTimer.setState .idle) : Outcome d (.timeout w) d'
  | pollDone {key : Nat} {d' : DeviceTick} (hstate : d.stateHandler = .poll)
      (hset : d' = d.setState .idle) : Outcome d (.pollDone key) d'

variable {e : TickEvent}

theorem Outcome.refl
    (henabled : e = .permitjoinEnabled → d.stateHandler = .init ∨ d.stateHandler = .join) :
    Outcome d e d :=
  .stays rfl id (.inl rfl) henabled

theorem registerJoiningDevice_keeps (key : Nat) (cap : UInt8) :
    (d.registerJoiningDevice key cap).stateHandler = d.stateHandler ∧
      (d.registerJoiningDevice key cap).timer = d.timer := by
  unfold registerJoiningDevice
  split <;> exact ⟨rfl, rfl⟩

theorem step_timeout {d : DeviceTick} {w : TickWorld} (htimer : d.timer.isSome = true) :
    d.step (.timeout w) = d.stopTimer.handleEvent (.timeout w) :=
  if_pos htimer

theorem timeout_outcome {d : DeviceTick} (w : TickWorld) :
    Outcome d (.timeout w) (d.stopTimer.handleEvent (.timeout w)) := by
  unfold handleEvent
  cases hstate : d.stopTimer.stateHandler with
  | init => exact .boots hstate rfl
  | poll => exact .pollTimeout hstate rfl
  | join =>
    simp only [stateJoin]
    split
    · rename_i hover
      exact .joined hstate hover rfl
    · have hsame := same_pollNextJoiningDevice d.stopTimer
      exact .stays hsame.stateHandler (fun _ => rfl) (.inl hsame.joinDevices) nofun
  | idle =>
    simp only [stateIdle]
    have hsame : Same d.stopTimer (if w.unconfirmed < 4 then
        d.stopTimer.pollNextIdleDevice w.devices else (d.stopTimer, false)).1 := by
      split
      · exact same_pollNextIdleDevice _ _
      · exact ⟨rfl, rfl, rfl⟩
    generalize (if w.unconfirmed < 4 then d.stopTimer.pollNextIdleDevice w.devices
      else (d.stopTimer, false)) = polled at hsame ⊢
    split
    · exact .polls hstate hsame rfl
    · exact .stays hsame.stateHandler (fun _ => rfl) (.inl hsame.joinDevices) nofun

/-- **What the handlers do**, by event and state. -/
theorem step_outcome (e : TickEvent) : Outcome d e (d.step e) := by
  cases e with
  | timeout w =>
    cases htimer : d.timer.isSome with
    | true =>
      rw [step_timeout htimer]
      exact timeout_outcome w
    | false =>
      unfold step
      simp only [htimer]
      exact .refl d nofun
  | permitjoinEnabled =>
    unfold step handleEvent
    cases hstate : d.stateHandler with
    | init => exact .refl d fun _ => .inl hstate
    | join => exact .refl d fun _ => .inr hstate
    | idle => exact .joins (.inl hstate) rfl
    | poll => exact .joins (.inr hstate) rfl
  | permitjoinDisabled now =>
    unfold step handleEvent
    cases hstate : d.stateHandler with
    | init | idle | poll => exact .refl d nofun
    | join => exact .stays rfl id (.inl rfl) nofun
  | deviceAnnounce key cap =>
    unfold step handleEvent
    cases hstate : d.stateHandler with
    | init | idle | poll => exact .refl d nofun
    | join =>
      have hkeeps := registerJoiningDevice_keeps d key cap
      refine .stays hkeeps.1 (fun htimer => ?_) (.inr ⟨key, cap, rfl⟩) nofun
      show (d.registerJoiningDevice key cap).timer.isSome = true
      rwa [hkeeps.2]
  | pollDone key =>
    unfold step handleEvent
    cases hstate : d.stateHandler with
    | init | join | idle => exact .refl d nofun
    | poll => exact .pollDone hstate rfl

/-- A state timer runs, and no device joins twice. -/
structure Armed (d : DeviceTick) : Prop where
  timer : d.timer.isSome = true
  nodup : (d.joinDevices.map JoinDevice.deviceKey).Nodup

theorem nodup_setState {d : DeviceTick} (s : TickState)
    (h : (d.joinDevices.map JoinDevice.deviceKey).Nodup) :
    ((d.setState s).joinDevices.map JoinDevice.deviceKey).Nodup := by
  rcases setState_joinDevices d s with hkept | hcleared
  · rwa [hkept]
  · rw [hcleared]
    exact List.nodup_nil

theorem nodup_registerJoiningDevice {d : DeviceTick} (key : Nat) (cap : UInt8)
    (h : (d.joinDevices.map JoinDevice.deviceKey).Nodup) :
    ((d.registerJoiningDevice key cap).joinDevices.map JoinDevice.deviceKey).Nodup := by
  unfold registerJoiningDevice
  split
  · exact h
  · rename_i hnew
    have hfresh : key ∉ d.joinDevices.map JoinDevice.deviceKey := by
      intro hmem
      obtain ⟨dev, hdev, rfl⟩ := List.mem_map.mp hmem
      exact hnew (List.any_eq_true.mpr ⟨dev, hdev, beq_self_eq_true _⟩)
    rw [List.map_append, List.nodup_append]
    refine ⟨h, List.pairwise_singleton _ _, ?_⟩
    rintro k hk k' hk' rfl
    rw [List.mem_singleton.mp hk'] at hk
    exact hfresh hk

theorem armed_step {d : DeviceTick} (h : Armed d) (e : TickEvent) : Armed (d.step e) := by
  have houtcome := step_outcome d e
  generalize d.step e = d' at houtcome
  cases houtcome with
  | stays _ htimer hjoin _ =>
    refine ⟨htimer h.timer, ?_⟩
    rcases hjoin with hsame | ⟨key, cap, rfl⟩
    · rw [hsame]
      exact h.nodup
    · exact nodup_registerJoiningDevice key cap h.nodup
  | boots hstate hset | joined hstate _ hset | pollTimeout hstate hset =>
    rw [hset]
    refine ⟨setState_timer _ _ (by decide) ?_, nodup_setState _ h.nodup⟩
    show d.stateHandler ≠ .idle
    rw [hstate]
    decide
  | joins hstate hset =>
    rw [hset]
    refine ⟨setState_timer _ _ (by decide) ?_, nodup_setState _ h.nodup⟩
    rcases hstate with hidle | hpoll
    · rw [hidle]
      decide
    · rw [hpoll]
      decide
  | polls hstate hsame hset =>
    rw [hset]
    refine ⟨setState_timer _ _ (by decide) ?_, nodup_setState _ ?_⟩
    · rw [hsame.stateHandler]
      show d.stateHandler ≠ .poll
      rw [hstate]
      decide
    · rw [hsame.joinDevices]
      exact h.nodup
  | pollDone hstate hset =>
    rw [hset]
    refine ⟨setState_timer _ _ (by decide) ?_, nodup_setState _ h.nodup⟩
    rw [hstate]
    decide

theorem armed_start : Armed start := ⟨rfl, List.nodup_nil⟩

theorem armed_run (events : List TickEvent) : Armed (Transition.run step start events) :=
  Transition.run_invariant (P := Armed) (fun _ e h => armed_step h e) armed_start events

/-! ## Permit join and the polled device -/

def noteJoin (enabled : Bool) : TickEvent → Bool
  | .permitjoinEnabled => true
  | .permitjoinDisabled _ => false
  | _ => enabled

/-- Whether the last permit join event was `REventPermitjoinEnabled`. -/
def joinEnabled (events : List TickEvent) : Bool := events.foldl noteJoin false

/-- The device that `REventPoll` was sent to last. -/
def lastPolled (d : DeviceTick) : Option Nat :=
  d.log.reverse.findSome? fun
    | .poll deviceKey => some deviceKey
    | .awake _ => none

variable {enabled : Bool}

theorem enabled_of_noteJoin (he : e ≠ .permitjoinEnabled) (h : noteJoin enabled e = true) :
    enabled = true := by
  cases e with
  | permitjoinEnabled => exact absurd rfl he
  | permitjoinDisabled now => exact absurd h Bool.false_ne_true
  | deviceAnnounce key cap => exact h
  | pollDone key => exact h
  | timeout w => exact h

variable {events : List TickEvent}

theorem joinEnabled_take_succ {k : Nat} (hk : k < events.length) :
    joinEnabled (events.take (k + 1)) = noteJoin (joinEnabled (events.take k)) events[k] := by
  unfold joinEnabled
  rw [List.take_succ_eq_append_getElem hk, List.foldl_append]
  rfl

/-- The machine after the first `k` events. -/
def after (events : List TickEvent) (k : Nat) : DeviceTick :=
  Transition.stateAt step start events k

theorem after_succ {k : Nat} (hk : k < events.length) :
    after events (k + 1) = (after events k).step events[k] :=
  Transition.stateAt_succ step start events hk

/-- What the states of a run have in common. -/
structure Coordinated (events : List TickEvent) : Prop where
  /-- The state timer is armed. -/
  armed : ∀ k ≤ events.length, (after events k).timer.isSome = true
  /-- After booting, `DT_StateJoin` is active while permit join is enabled. -/
  joins : ∀ k ≤ events.length, (after events k).stateHandler ≠ .init → joinEnabled (events.take k) =
    true → (after events k).stateHandler = .join
  /-- `DT_StatePoll` ends by its timeout or by the device that was asked to poll. -/
  polls : ∀ k (hk : k < events.length), (after events k).stateHandler = .poll →
    (after events (k + 1)).stateHandler = .idle →
      (∃ w, events[k] = .timeout w) ∨ ∃ key, events[k] = .pollDone key ∧
        (after events k).lastPolled = some key
  /-- No device joins twice. -/
  nodup : ∀ k ≤ events.length, ((after events k).joinDevices.map JoinDevice.deviceKey).Nodup

/-- Booting does not end, and the time of an earlier disabling is not over, while permit join is
enabled; and what is polled done is the device that was asked to poll. -/
def Undisturbed (d : DeviceTick) (enabled : Bool) : TickEvent → Prop
  | .timeout w => enabled = true →
      d.stateHandler ≠ .init ∧ ¬ (d.stateHandler = .join ∧ d.joinOver w.now)
  | .pollDone key => d.stateHandler = .poll → d.lastPolled = some key
  | _ => True

/-- What permit join asks of a state that is not the first one. -/
def Joins (enabled : Bool) (d : DeviceTick) : Prop :=
  d.stateHandler ≠ .init → enabled = true → d.stateHandler = .join

theorem joins_step {d : DeviceTick} (h : Joins enabled d) (hsteady : Undisturbed d enabled e) :
    Joins (noteJoin enabled e) (d.step e) := by
  have houtcome := step_outcome d e
  generalize d.step e = d' at houtcome
  intro hbooted henabled
  cases houtcome with
  | stays hstate htimer hjoin hnew =>
    rw [hstate] at hbooted ⊢
    by_cases he : e = .permitjoinEnabled
    · exact (hnew he).resolve_left hbooted
    · exact h hbooted (enabled_of_noteJoin he henabled)
  | boots hstate hset => exact absurd hstate (hsteady henabled).1
  | joined hstate hover hset => exact absurd ⟨hstate, hover⟩ (hsteady henabled).2
  | joins hstate hset =>
    rw [hset]
    exact setState_stateHandler _ _
  | polls hstate hsame hset | pollTimeout hstate hset | pollDone hstate hset =>
    have hjoin : d.stateHandler = .join := h (by rw [hstate]; decide) henabled
    rw [hstate] at hjoin
    exact absurd hjoin (by decide)

/-- The steps of a run that the machine is made for. -/
def AllUndisturbed (events : List TickEvent) : Prop :=
  ∀ k (hk : k < events.length), Undisturbed (after events k) (joinEnabled (events.take k)) events[k]

theorem armed_after (events : List TickEvent) (k : Nat) : Armed (after events k) :=
  armed_run (events.take k)

theorem joins_after (h : AllUndisturbed events) :
    ∀ k ≤ events.length, Joins (joinEnabled (events.take k)) (after events k) := by
  refine Transition.stateAt_induction (P := fun k d => Joins (joinEnabled (events.take k)) d)
    (fun hbooted => absurd rfl hbooted) ?_
  intro k hk ih
  rw [joinEnabled_take_succ hk]
  exact joins_step ih (h k hk)

theorem poll_to_idle {d : DeviceTick} (hpoll : d.stateHandler = .poll)
    (hidle : (d.step e).stateHandler = .idle) :
    (∃ w, e = .timeout w) ∨ ∃ key, e = .pollDone key := by
  have houtcome := step_outcome d e
  generalize d.step e = d' at houtcome hidle
  cases houtcome with
  | stays hstate htimer hjoin hnew =>
    rw [hstate, hpoll] at hidle
    exact absurd hidle (by decide)
  | boots hstate hset | joined hstate _ hset | polls hstate _ hset | pollTimeout hstate hset =>
    exact .inl ⟨_, rfl⟩
  | joins hstate hset =>
    rw [hset, setState_stateHandler] at hidle
    exact absurd hidle (by decide)
  | pollDone hstate hset => exact .inr ⟨_, rfl⟩

theorem disturbed_ends {d : DeviceTick} (harmed : Armed d) (h : ¬ Undisturbed d enabled e) :
    (d.step e).stateHandler = .idle ∧ ((noteJoin enabled e = true ∧ ∃ w, e = .timeout w) ∨
      d.stateHandler = .poll ∧ ∃ key, e = .pollDone key ∧ d.lastPolled ≠ some key) := by
  cases e with
  | permitjoinEnabled | permitjoinDisabled | deviceAnnounce => exact absurd trivial h
  | pollDone key =>
    simp only [Undisturbed, Classical.not_imp] at h
    refine ⟨?_, .inr ⟨h.1, key, rfl, h.2⟩⟩
    show (d.handleEvent (.pollDone key)).stateHandler = .idle
    unfold handleEvent
    rw [h.1]
    exact setState_stateHandler _ _
  | timeout w =>
    simp only [Undisturbed, Classical.not_imp] at h
    refine ⟨?_, .inl ⟨h.1, w, rfl⟩⟩
    rw [step_timeout harmed.timer]
    unfold handleEvent
    by_cases hinit : d.stateHandler = .init
    · have hstate : d.stopTimer.stateHandler = .init := hinit
      rw [hstate]
      exact setState_stateHandler _ _
    · have hover : d.stateHandler = .join ∧ d.joinOver w.now :=
        not_not.mp fun hnot => h.2 ⟨hinit, hnot⟩
      have hstate : d.stopTimer.stateHandler = .join := hover.1
      rw [hstate]
      show (d.stopTimer.stateJoin (.timeout w)).stateHandler = .idle
      unfold stateJoin
      simp only
      rw [if_pos (show d.stopTimer.joinOver w.now from hover.2)]
      exact setState_stateHandler _ _

/-- **The device tick.** The timer runs in every state and no device joins twice; that permit
join keeps the machine in `DT_StateJoin`, and that a poll is ended by its own device, holds
exactly of the undisturbed runs. -/
theorem coordinated_iff (events : List TickEvent) : Coordinated events ↔ AllUndisturbed events := by
  constructor
  · intro h k hk
    by_contra hdisturbed
    obtain ⟨hidle, hcause⟩ := disturbed_ends (armed_after events k) hdisturbed
    rw [← after_succ hk] at hidle
    rcases hcause with ⟨henabled, w, he⟩ | ⟨hpoll, key, he, hother⟩
    · rw [← joinEnabled_take_succ hk] at henabled
      have hjoin := h.joins (k + 1) hk (by rw [hidle]; decide) henabled
      rw [hidle] at hjoin
      exact absurd hjoin (by decide)
    · rcases h.polls k hk hpoll hidle with ⟨w, hw⟩ | ⟨key', hkey, hlast⟩
      · rw [he] at hw
        exact absurd hw (by simp)
      · rw [he] at hkey
        cases hkey
        exact hother hlast
  · intro h
    refine ⟨?_, joins_after h, ?_, ?_⟩
    · exact fun k _ => (armed_after events k).timer
    · intro k hk hpoll hidle
      rw [after_succ hk] at hidle
      rcases poll_to_idle hpoll hidle with hw | ⟨key, hkey⟩
      · exact .inl hw
      · have hlast := h k hk
        rw [hkey] at hlast
        exact .inr ⟨key, hkey, hlast hpoll⟩
    · exact fun k _ => (armed_after events k).nodup

/-- Permit join is enabled, disabled and enabled again: the machine goes idle when the twenty
seconds since the disabling are over. -/
theorem rejoin_not_coordinated :
    ¬ Coordinated [.timeout ⟨8000, 0, false, []⟩, .permitjoinEnabled, .permitjoinDisabled 10000,
      .permitjoinEnabled, .timeout ⟨31000, 0, false, []⟩] := by
  intro h
  have hjoin := h.joins 5 (by decide) (by decide) (by decide)
  exact absurd hjoin (by decide)

end DeviceTick
end DeconzRest

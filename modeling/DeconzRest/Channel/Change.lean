import DeconzRest.Channel.Machine

/-!
# What holds of every channel change

* `sound_run`: while the machine is not idle its timer is armed;
* `verified_accepted`: it verifies the channel of the last request that was taken;
* `broadcasts_le`: between two requests at most two broadcasts are sent;
* `rejoins`: once it has left the network it becomes idle only after it was in the network again,
  after ten attempts to join, or if the network was not expected to be connected.

`channel_change_safe` puts them together.
-/

namespace DeconzRest
namespace Channel
namespace ChannelChange

open Transition

/-- The timer is armed and the controller there unless the machine is idle, and the retries are
counted up to two. -/
structure Sound (s : ChannelChange) : Prop where
  armed : s.channelChangeState ≠ .idle → s.channelchangeTimer.isSome = true
  controller : s.channelChangeState ≠ .idle → s.apsCtrl.isSome = true
  retries : s.ccRetries.toNat ≤ 2

theorem retries_succ {r : UInt8} (h : r + 1 < 3) (hr : r.toNat ≤ 2) :
    (r + 1).toNat = r.toNat + 1 ∧ r.toNat + 1 ≤ 2 := by
  have hlt := UInt8.lt_iff_toNat_lt.mp h
  have hsum : (r + 1).toNat = (r.toNat + 1) % 256 := UInt8.toNat_add r 1
  have hthree : (3 : UInt8).toNat = 3 := rfl
  omega

variable {s : ChannelChange}

theorem isSome_of_isInNetwork (h : s.isInNetwork = true) : s.apsCtrl.isSome = true := by
  unfold isInNetwork at h
  split at h
  · rename_i hctrl
    simp [hctrl]
  · cases h

variable {event : ChangeEvent}

theorem move_sound {s s' : ChannelChange} (h : Sound s) (hmove : Move s event s') : Sound s' := by
  have hbusy : ∀ {state : ChannelChangeState}, s.channelChangeState = state → state ≠ .idle →
      s.apsCtrl.isSome = true := fun hstate hne => h.controller (hstate ▸ hne)
  cases hmove with
  | rejected | notAwaited | notArmed => exact h
  | taken hin => exact ⟨h.armed, h.controller, by simp⟩
  | started hin => exact ⟨fun _ => rfl, fun _ => isSome_of_isInNetwork hin, by simp [goto]⟩
  | network => exact ⟨h.armed, by simpa using h.controller, h.retries⟩
  | expected => exact ⟨h.armed, h.controller, h.retries⟩
  | disconnect hstate => exact ⟨fun _ => rfl, fun _ => hbusy hstate (by simp), h.retries⟩
  | refused hstate => exact ⟨fun _ => rfl, fun _ => hbusy hstate (by simp), h.retries⟩
  | expired hstate => exact ⟨absurd hstate, absurd hstate, h.retries⟩
  | verified | notConfirmed | notExpected | failed =>
    exact ⟨absurd rfl, absurd rfl, h.retries⟩
  | notVerified hstate => exact ⟨fun _ => rfl, fun _ => hbusy hstate (by simp), h.retries⟩
  | broadcast hstate hretries =>
    obtain ⟨hsucc, hle⟩ := retries_succ hretries h.retries
    exact ⟨fun _ => rfl, fun _ => rfl, hsucc ▸ hle⟩
  | notSent hstate hretries =>
    obtain ⟨hsucc, hle⟩ := retries_succ hretries h.retries
    exact ⟨fun _ => rfl, fun _ => hbusy hstate (by simp), hsucc ▸ hle⟩
  | gaveUp => exact ⟨absurd rfl, absurd rfl, by simp⟩
  | again hstate => exact ⟨fun _ => rfl, fun _ => hbusy hstate (by simp), h.retries⟩
  | reconnect hstate => exact ⟨fun _ => rfl, fun _ => hbusy hstate (by simp), h.retries⟩
  | rejoined hstate => exact ⟨fun _ => rfl, fun _ => hbusy hstate (by simp), h.retries⟩
  | attempt => exact ⟨fun _ => rfl, fun _ => rfl, h.retries⟩
  | connecting hstate => exact ⟨fun _ => rfl, fun _ => hbusy hstate (by simp), h.retries⟩
  | null hne hnone => exact absurd (h.controller hne) (by simp [hnone])

theorem step_sound (event : ChangeEvent) (h : Sound s) :
    Sound (s.step event) := move_sound h (step_move s event)

def initial (apsCtrl : Option ApsController) (gwDeviceAddress : UInt64) (gwZigbeeChannel : Nat)
    (gwRfConnectedExpected : Bool) : ChannelChange :=
  { apsCtrl, gwDeviceAddress, gwZigbeeChannel, gwRfConnectedExpected }

theorem sound_initial (apsCtrl : Option ApsController) (gwDeviceAddress : UInt64)
    (gwZigbeeChannel : Nat) (gwRfConnectedExpected : Bool) :
    Sound (initial apsCtrl gwDeviceAddress gwZigbeeChannel gwRfConnectedExpected) :=
  ⟨absurd rfl, absurd rfl, by simp [initial]⟩

variable {s0 : ChannelChange}

/-- **The timer is armed** in every state of a run but the idle ones. -/
theorem sound_run (h : Sound s0) (events : List ChangeEvent) (k : Nat) :
    Sound (stateAt step s0 events k) :=
  run_invariant (P := Sound) (fun _ event hs => step_sound event hs) h _

/-- The channel of a request, if it is taken: the node is in the network. -/
def requestTaken (s : ChannelChange) : ChangeEvent → Option UInt8
  | .startChannelChange channel => if s.isInNetwork then some channel else none
  | _ => none

/-- What the last event was that `obs` saw. -/
def lastSeen (obs : ChannelChange → ChangeEvent → Option UInt8) (s0 : ChannelChange)
    (events : List ChangeEvent) : Option UInt8 :=
  (lastWhere step obs s0 events none).map Prod.fst

theorem lastSeen_concat (obs : ChannelChange → ChangeEvent → Option UInt8) (s0 : ChannelChange)
    (events : List ChangeEvent) (event : ChangeEvent) :
    lastSeen obs s0 (events ++ [event]) =
      (obs (run step s0 events) event).or (lastSeen obs s0 events) := by
  unfold lastSeen
  rw [lastWhere_concat]
  cases obs (run step s0 events) event <;> rfl

/-- The channel that the machine works for is the one of the last request that was taken. -/
def WorksFor (last : Option UInt8) (s : ChannelChange) : Prop :=
  s.channelChangeState ≠ .idle → last = some (UInt8.ofNat s.gwZigbeeChannel)

theorem move_worksFor {s s' : ChannelChange} {last : Option UInt8} (hsound : Sound s)
    (h : WorksFor last s) (hmove : Move s event s') :
    WorksFor ((requestTaken s event).or last) s' := by
  intro hbusy'
  cases hmove with
  | rejected hout =>
    rw [requestTaken, if_neg (by simp [hout])]
    exact h hbusy'
  | taken hin | started hin =>
    rw [requestTaken, if_pos hin]
    simp [goto]
  | network | expected | notAwaited | notArmed => exact h hbusy'
  | expired hstate => exact absurd hstate hbusy'
  | verified | gaveUp | notConfirmed | notExpected | failed => exact absurd rfl hbusy'
  | disconnect hstate | refused hstate | notVerified hstate | broadcast hstate | notSent hstate
  | again hstate | reconnect hstate | rejoined hstate | attempt hstate | connecting hstate =>
    exact h (by simp [hstate])
  | null hne hnone => exact absurd (hsound.controller hne) (by simp [hnone])

theorem worksFor_stateAt (hsound : Sound s0) (hidle : s0.channelChangeState = .idle)
    (events : List ChangeEvent) :
    ∀ k ≤ events.length,
      WorksFor (lastSeen requestTaken s0 (events.take k)) (stateAt step s0 events k) := by
  refine stateAt_induction
    (P := fun k s => WorksFor (lastSeen requestTaken s0 (events.take k)) s) (absurd hidle) ?_
  intro k hk hworks
  have hmove := move_worksFor (sound_run hsound events k) hworks
    (step_move (stateAt step s0 events k) events[k])
  rw [List.take_succ_eq_append_getElem hk, lastSeen_concat]
  exact hmove

theorem verifyChannel_current {channel : UInt8} (h : s.verifyChannel channel = true) :
    ∃ apsCtrl, s.apsCtrl = some apsCtrl ∧ apsCtrl.currentChannel = channel := by
  unfold verifyChannel at h
  split at h
  · cases h
  · rename_i apsCtrl hctrl
    rw [Bool.and_eq_true, Bool.and_eq_true] at h
    exact ⟨apsCtrl, hctrl, by simpa using h.1.2⟩

theorem move_verified {s s' : ChannelChange} (hsound : Sound s) (hmove : Move s event s')
    (h : s.channelChangeState = .verifyChannel) (h' : s'.channelChangeState = .idle) :
    s.verifyChannel (UInt8.ofNat s.gwZigbeeChannel) = true := by
  cases hmove with
  | verified _ hok => exact hok
  | rejected | taken | network | expected | notAwaited | notArmed =>
    exact absurd (h.symm.trans h') (by simp)
  | started | refused | notVerified | notSent | again | reconnect | rejoined | attempt
  | connecting | disconnect => cases h'
  | broadcast _ _ _ _ _ _ hnext =>
    rcases hnext with rfl | rfl <;> cases h'
  | expired hstate | gaveUp hstate | notConfirmed hstate | notExpected hstate | failed hstate =>
    exact absurd (h.symm.trans hstate) (by simp)
  | null hne hnone => exact absurd (hsound.controller hne) (by simp [hnone])

def Request.isBroadcast : Request → Bool
  | .changeChannel _ _ => true
  | .setNetworkState _ => false

def broadcasts (s : ChannelChange) : Nat := s.requests.countP Request.isBroadcast

/-- How many broadcasts may still be sent for the requests that were made -/
def broadcastsLeft (s : ChannelChange) : Nat :=
  if s.channelChangeState = .idle then 0 else 2 - s.ccRetries.toNat

theorem broadcastsLeft_le (s : ChannelChange) : broadcastsLeft s ≤ 2 := by
  unfold broadcastsLeft
  split <;> omega

def ChangeEvent.isRequest : ChangeEvent → Bool
  | .startChannelChange _ => true
  | _ => false

theorem move_broadcasts {s s' : ChannelChange} (hsound : Sound s) (hmove : Move s event s')
    (hevent : ChangeEvent.isRequest event = false) :
    broadcasts s' + broadcastsLeft s' ≤ broadcasts s + broadcastsLeft s := by
  have hbusy : ∀ {state : ChannelChangeState}, s.channelChangeState = state → state ≠ .idle →
      broadcastsLeft s = 2 - s.ccRetries.toNat := by
    intro state hstate hne
    rw [broadcastsLeft, if_neg (hstate ▸ hne)]
  cases hmove with
  | rejected | taken | started => cases hevent
  | network | expected | notAwaited | notArmed => exact Nat.le_refl _
  | expired hstate => simp [broadcasts, broadcastsLeft, hstate]
  | verified | gaveUp | notConfirmed | notExpected | failed =>
    simp only [broadcasts, broadcastsLeft, if_true]
    omega
  | refused hstate | notVerified hstate | rejoined hstate | connecting hstate | reconnect hstate =>
    rw [hbusy hstate (by simp)]
    simp [broadcasts, broadcastsLeft, goto]
  | disconnect hstate | again hstate | attempt hstate =>
    rw [hbusy hstate (by simp)]
    simp [broadcasts, broadcastsLeft, goto, Request.isBroadcast]
  | broadcast hstate hretries _ _ _ _ hnext =>
    obtain ⟨hsucc, hle⟩ := retries_succ hretries hsound.retries
    rw [hbusy hstate (by simp)]
    rcases hnext with rfl | rfl <;>
      simp only [broadcasts, broadcastsLeft, goto, reduceCtorEq, if_false, List.countP_append,
        List.countP_singleton, Request.isBroadcast, if_true, hsucc] <;> omega
  | notSent hstate hretries =>
    obtain ⟨hsucc, hle⟩ := retries_succ hretries hsound.retries
    rw [hbusy hstate (by simp)]
    simp only [broadcasts, broadcastsLeft, goto, reduceCtorEq, if_false, hsucc]
    omega
  | null hne hnone => exact absurd (hsound.controller hne) (by simp [hnone])

theorem broadcasts_le (hsound : Sound s0) (events : List ChangeEvent) {i : Nat} :
    ∀ {j : Nat}, i ≤ j → j ≤ events.length →
    (∀ k (h : k < events.length), i ≤ k → k < j → ChangeEvent.isRequest events[k] = false) →
    broadcasts (stateAt step s0 events j) + broadcastsLeft (stateAt step s0 events j) ≤
      broadcasts (stateAt step s0 events i) + 2 := by
  intro j hij
  -- along the steps what is sent and what is left do not grow together
  induction hij with
  | refl =>
    intro _ _
    have hleft := broadcastsLeft_le (stateAt step s0 events i)
    omega
  | @step j hij ih =>
    intro hj hquiet
    have hbefore := ih (by omega) fun k hk hik hkj => hquiet k hk hik (by omega)
    have hlt : j < events.length := hj
    have hstep := move_broadcasts (sound_run hsound events j) (step_move _ events[j])
      (hquiet j hlt hij (by omega))
    rw [stateAt_succ step s0 events hlt]
    omega

/-! ## Leaving the network and joining it again -/

def reconnects (s : ChannelChange) : Nat := s.requests.count (.setNetworkState .inNetwork)

/-- What holds after the machine has left the network, `told` being the number of times it was
told to join before and `expected` whether it is expected to be connected: it is about to leave
or to join, or one of the reasons to stop has come. -/
def Away (told : Nat) (expected : Bool) (rejoined : Prop) (s : ChannelChange) : Prop :=
  rejoined ∨ expected = false ∨ told + networkAttemps ≤ reconnects s ∨
    (s.ccNetworkConnectedBefore = true ∧
      ((s.channelChangeState = .disconnectingNetwork ∧ reconnects s = told) ∨
        (s.channelChangeState = .reconnectNetwork ∧ reconnects s + s.ccNetworkReconnectAttempts =
          told + networkAttemps)))

/-- The node is told to join while the machine is about to join. -/
def Rejoins (s : ChannelChange) : Prop :=
  s.channelChangeState = .reconnectNetwork ∧ s.isInNetwork = true

theorem reconnects_mono {s s' : ChannelChange} (hsound : Sound s) (hmove : Move s event s') :
    reconnects s ≤ reconnects s' := by
  cases hmove with
  | null hne hnone => exact absurd (hsound.controller hne) (by simp [hnone])
  | _ => simp [reconnects, goto]

theorem move_away {s s' : ChannelChange} {told : Nat} {expected : Bool} {rejoined : Prop}
    (hsound : Sound s) (h : Away told expected rejoined s) (hmove : Move s event s') :
    Away told expected (rejoined ∨ Rejoins s) s' := by
  have hmono := reconnects_mono hsound hmove
  rcases h with hrejoined | hexpected | htold | ⟨hbefore, hstate⟩
  · exact .inl (.inl hrejoined)
  · exact .inr (.inl hexpected)
  · exact .inr (.inr (.inl (Nat.le_trans htold hmono)))
  · have hbusy : s.channelChangeState ≠ .idle := by
      rcases hstate with ⟨hstate, -⟩ | ⟨hstate, -⟩ <;> simp [hstate]
    cases hmove with
    | rejected | taken | network | expected | notAwaited | notArmed =>
      exact .inr (.inr (.inr ⟨hbefore, hstate⟩))
    | started _ hidle | expired hidle => exact absurd hidle hbusy
    | verified hother | notVerified hother | gaveUp hother | notSent hother | broadcast hother
    | disconnect hother | refused hother | notConfirmed hother =>
      rcases hstate with ⟨hstate, -⟩ | ⟨hstate, -⟩ <;>
        exact absurd (hother.symm.trans hstate) (by simp)
    | again hdisconnecting =>
      rcases hstate with ⟨hstate, htold⟩ | ⟨hstate, -⟩
      · refine .inr (.inr (.inr ⟨hbefore, .inl ⟨rfl, ?_⟩⟩))
        simpa [reconnects, goto] using htold
      · exact absurd (hdisconnecting.symm.trans hstate) (by simp)
    | reconnect hdisconnecting =>
      rcases hstate with ⟨hstate, htold⟩ | ⟨hstate, -⟩
      · refine .inr (.inr (.inr ⟨hbefore, .inr ⟨rfl, ?_⟩⟩))
        show reconnects s + networkAttemps = _
        omega
      · exact absurd (hdisconnecting.symm.trans hstate) (by simp)
    | rejoined hreconnecting hin => exact .inl (.inr ⟨hreconnecting, hin⟩)
    | notExpected _ hnot => exact absurd (hbefore.symm.trans hnot) (by simp)
    | attempt hreconnecting hleft =>
      rcases hstate with ⟨hstate, -⟩ | ⟨-, htold⟩
      · exact absurd (hreconnecting.symm.trans hstate) (by simp)
      · refine .inr (.inr (.inr ⟨hbefore, .inr ⟨rfl, ?_⟩⟩))
        simp only [reconnects, goto, List.count_append, List.count_singleton_self] at htold ⊢
        omega
    | connecting hreconnecting =>
      rcases hstate with ⟨hstate, -⟩ | ⟨-, htold⟩
      · exact absurd (hreconnecting.symm.trans hstate) (by simp)
      · exact .inr (.inr (.inr ⟨hbefore, .inr ⟨rfl, htold⟩⟩))
    | failed hreconnecting hnone =>
      rcases hstate with ⟨hstate, -⟩ | ⟨-, htold⟩
      · exact absurd (hreconnecting.symm.trans hstate) (by simp)
      · refine .inr (.inr (.inl ?_))
        show told + networkAttemps ≤ reconnects s
        omega
    | null hne hnone => exact absurd (hsound.controller hne) (by simp [hnone])

theorem move_disconnects {s s' : ChannelChange} (hsound : Sound s) (hmove : Move s event s')
    (h : s.channelChangeState ≠ .disconnectingNetwork)
    (h' : s'.channelChangeState = .disconnectingNetwork) :
    s'.ccNetworkConnectedBefore = s.gwRfConnectedExpected := by
  cases hmove with
  | disconnect => rfl
  | again hstate => exact absurd hstate h
  | rejected | taken | network | expected | notAwaited | notArmed | expired => exact absurd h' h
  | started | verified | refused | notVerified | notSent | reconnect | rejoined | attempt
  | connecting | gaveUp | notConfirmed | notExpected | failed => cases h'
  | broadcast _ _ _ _ _ _ hnext =>
    rcases hnext with rfl | rfl <;> cases h'
  | null hne hnone => exact absurd (hsound.controller hne) (by simp [hnone])

/-- **After leaving the network** the machine is idle again only if it was in the network while
it was about to join, was told to join ten times, or was not expected to be connected. -/
theorem rejoins (hsound : Sound s0) (events : List ChangeEvent) {i : Nat}
    (hbefore : (stateAt step s0 events i).channelChangeState ≠ .disconnectingNetwork)
    (hleaves : (stateAt step s0 events (i + 1)).channelChangeState = .disconnectingNetwork)
    {j : Nat} (hij : i + 1 ≤ j) (hj : j ≤ events.length)
    (hidle : (stateAt step s0 events j).channelChangeState = .idle) :
    (∃ k, i < k ∧ k < j ∧ Rejoins (stateAt step s0 events k)) ∨
      (stateAt step s0 events i).gwRfConnectedExpected = false ∨
      reconnects (stateAt step s0 events (i + 1)) + networkAttemps ≤
        reconnects (stateAt step s0 events j) := by
  have haway : Away (reconnects (stateAt step s0 events (i + 1)))
      (stateAt step s0 events i).gwRfConnectedExpected
      (∃ k, i < k ∧ k < j ∧ Rejoins (stateAt step s0 events k)) (stateAt step s0 events j) := by
    clear hidle
    induction hij with
    | refl =>
      cases hexpected : (stateAt step s0 events i).gwRfConnectedExpected with
      | false => exact .inr (.inl rfl)
      | true =>
        have hconnected := move_disconnects (sound_run hsound events i)
          (step_move _ events[i]) hbefore
          (by rw [← stateAt_succ step s0 events hj]; exact hleaves)
        rw [← stateAt_succ step s0 events hj, hexpected] at hconnected
        exact .inr (.inr (.inr ⟨hconnected, .inl ⟨hleaves, rfl⟩⟩))
    | @step j hij ih =>
      have hlt : j < events.length := hj
      have hnext := move_away (sound_run hsound events j) (ih (Nat.le_of_lt hlt))
        (step_move _ events[j])
      rw [← stateAt_succ step s0 events hlt] at hnext
      rcases hnext with (⟨k, hik, hkj, hk⟩ | hk) | hrest
      · exact .inl ⟨k, hik, Nat.lt_succ_of_lt hkj, hk⟩
      · exact .inl ⟨j, hij, Nat.lt_succ_self j, hk⟩
      · exact .inr hrest
  rcases haway with hrejoined | hexpected | htold | ⟨-, ⟨hstate, -⟩ | ⟨hstate, -⟩⟩
  · exact .inl hrejoined
  · exact .inr (.inl hexpected)
  · exact .inr (.inr htold)
  · exact absurd (hidle.symm.trans hstate) (by simp)
  · exact absurd (hidle.symm.trans hstate) (by simp)

/-- A run of the machine neither hangs nor gives up disconnected; `obs` tells which requests
count as the last one. -/
structure ChangeSafe (obs : ChannelChange → ChangeEvent → Option UInt8) (s0 : ChannelChange)
    (events : List ChangeEvent) : Prop where
  armed : ∀ k ≤ events.length, (stateAt step s0 events k).channelChangeState ≠ .idle →
    (stateAt step s0 events k).channelchangeTimer.isSome = true
  verified : ∀ k < events.length, (stateAt step s0 events k).channelChangeState = .verifyChannel →
    (stateAt step s0 events (k + 1)).channelChangeState = .idle →
    ∃ apsCtrl, (stateAt step s0 events k).apsCtrl = some apsCtrl ∧ lastSeen obs s0 (events.take k) =
      some apsCtrl.currentChannel
  broadcasts : ∀ i j, i ≤ j → j ≤ events.length →
    (∀ k (h : k < events.length), i ≤ k → k < j → ChangeEvent.isRequest events[k] = false) →
    broadcasts (stateAt step s0 events j) ≤ broadcasts (stateAt step s0 events i) + 3
  rejoined : ∀ i j, i < j → j ≤ events.length → (stateAt step s0 events i).channelChangeState ≠
    .disconnectingNetwork →
    (stateAt step s0 events (i + 1)).channelChangeState = .disconnectingNetwork →
    (stateAt step s0 events j).channelChangeState = .idle →
    (∃ k, i < k ∧ k < j ∧ Rejoins (stateAt step s0 events k)) ∨
      (stateAt step s0 events i).gwRfConnectedExpected = false ∨
      reconnects (stateAt step s0 events (i + 1)) + networkAttemps ≤
        reconnects (stateAt step s0 events j)

/-- **The channel change machine is safe**, where the last request is the last one that was
taken: made while the node was in the network. -/
theorem channel_change_safe (apsCtrl : Option ApsController) (gwDeviceAddress : UInt64)
    (gwZigbeeChannel : Nat) (gwRfConnectedExpected : Bool) (events : List ChangeEvent) :
    ChangeSafe requestTaken
      (initial apsCtrl gwDeviceAddress gwZigbeeChannel gwRfConnectedExpected) events := by
  have hsound := sound_initial apsCtrl gwDeviceAddress gwZigbeeChannel gwRfConnectedExpected
  refine ⟨fun k _ => (sound_run hsound events k).armed, ?_, ?_,
    fun i j hij hj hbefore hleaves hidle => rejoins hsound events hbefore hleaves hij hj hidle⟩
  · intro k hk hstate hidle
    rw [stateAt_succ step _ events hk] at hidle
    obtain ⟨ctrl, hctrl, hcurrent⟩ := verifyChannel_current
      (move_verified (sound_run hsound events k) (step_move _ events[k]) hstate hidle)
    refine ⟨ctrl, hctrl, ?_⟩
    rw [hcurrent]
    exact worksFor_stateAt hsound rfl events k (Nat.le_of_lt hk) (by simp [hstate])
  · intro i j hij hj hquiet
    have hle := broadcasts_le hsound events hij hj hquiet
    omega

def requestMade (_ : ChannelChange) : ChangeEvent → Option UInt8
  | .startChannelChange channel => some channel
  | _ => none

def coordinatorOn11 : ApsController where
  networkState := .inNetwork
  currentChannel := 11
  apsUseExtendedPanid := 0
  trustCenterAddress := 0x00212e0000000001
  macAddress := 0x00212e0000000001
  coordinator := true
  networkUpdateId := 0
  staticNwkAddress := false
  nwkAddress := 0

def requestWhileJoining : List ChangeEvent := [
  .startChannelChange 15, .timeout none, .timeout (some 7), .confirm 7 true,
  .network { coordinatorOn11 with networkState := .notInNetwork, currentChannel := 15 },
  .timeout none, .startChannelChange 20,
  .network { coordinatorOn11 with currentChannel := 15 }, .timeout none, .timeout none]

/-- A request that is not taken is the last one, and another channel is verified. -/
theorem request_not_taken : ¬ ∀ (apsCtrl : Option ApsController) (gwDeviceAddress : UInt64)
    (gwZigbeeChannel : Nat) (gwRfConnectedExpected : Bool) (events : List ChangeEvent),
    ChangeSafe requestMade
      (initial apsCtrl gwDeviceAddress gwZigbeeChannel gwRfConnectedExpected) events := by
  intro h
  obtain ⟨ctrl, hctrl, hlast⟩ :=
    (h (some coordinatorOn11) 0x00212e0000000001 11 true requestWhileJoining).verified 9
      (by decide) (by decide) (by decide)
  have hcurrent : (stateAt step (initial (some coordinatorOn11) 0x00212e0000000001 11 true)
      requestWhileJoining 9).apsCtrl = some { coordinatorOn11 with currentChannel := 15 } := by
    decide
  obtain rfl := Option.some.inj (hcurrent.symm.trans hctrl)
  revert hlast
  decide

end ChannelChange
end Channel
end DeconzRest

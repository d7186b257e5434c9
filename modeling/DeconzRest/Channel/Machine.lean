import DeconzRest.Lib.Transition

/-!
# The channel change machine

Six states share one single shot timer.  A request sets the channel and starts the machine if
it is idle: it verifies the channel, broadcasts the change, waits for the confirm of the
broadcast, leaves the network and joins it again, and verifies once more.

`Move` says once what a step can do; all that holds of runs is derived from it.
-/

namespace DeconzRest
namespace Channel

/-- `ChannelChangeState` -/
inductive ChannelChangeState where
  | idle
  | verifyChannel
  | changeChannel
  | waitConfirm
  | disconnectingNetwork
  | reconnectNetwork
deriving DecidableEq, Repr

/-- `deCONZ::State` -/
inductive NetworkState where
  | notInNetwork
  | connecting
  | inNetwork
  | leaving
deriving DecidableEq, Repr

/-- What is read and written of `deCONZ::ApsController` -/
structure ApsController where
  networkState : NetworkState
  currentChannel : UInt8
  apsUseExtendedPanid : UInt64
  trustCenterAddress : UInt64
  macAddress : UInt64
  /-- `ParamDeviceType` is `deCONZ::Coordinator`. -/
  coordinator : Bool
  networkUpdateId : UInt8
  staticNwkAddress : Bool
  nwkAddress : UInt16
deriving DecidableEq, Repr

inductive Request where
  /-- The management network update request that changes the channel, to all nodes -/
  | changeChannel (channel nwkUpdateId : UInt8)
  | setNetworkState (state : NetworkState)
deriving DecidableEq, Repr

/-- `CC_CHANNELCHANGE_WAIT_TIME` -/
def waitTime : Nat := 1000

/-- `CC_CHANNELCHANGE_WAIT_CONFIRM_TIME` -/
def waitConfirmTime : Nat := 10000

/-- `CC_CHANNELCHANGE_VERIFY_TIME` -/
def verifyTime : Nat := 1000

/-- `CC_DISCONNECT_CHECK_DELAY` -/
def disconnectCheckDelay : Nat := 100

/-- `NETWORK_ATTEMPS` -/
def networkAttemps : Nat := 10

/-- `CC_RECONNECT_CHECK_DELAY` -/
def reconnectCheckDelay : Nat := 5000

/-- `CC_RECONNECT_NOW` -/
def reconnectNow : Nat := 100

/-- `deMacPrefix` -/
def deMacPrefix : UInt64 := 0x00212e0000000000

/-- The members of the plugin that the channel change uses, the time the timer was armed with if
it is, and the requests that were made so far. -/
structure ChannelChange where
  apsCtrl : Option ApsController
  channelChangeState : ChannelChangeState := .idle
  channelchangeTimer : Option Nat := none
  ccRetries : UInt8 := 0
  ccNetworkDisconnectAttempts : Nat := 0
  ccNetworkReconnectAttempts : Nat := 0
  ccNetworkConnectedBefore : Bool := false
  channelChangeApsRequestId : UInt8 := 0
  gwZigbeeChannel : Nat := 0
  gwRfConnectedExpected : Bool := true
  gwDeviceAddress : UInt64
  requests : List Request := []
deriving DecidableEq, Repr

namespace ChannelChange

/-- `isInNetwork` -/
def isInNetwork (s : ChannelChange) : Bool :=
  match s.apsCtrl with
  | some apsCtrl => apsCtrl.networkState = .inNetwork
  | none => false

/-- `channelChangeState = state` and `channelchangeTimer->start(delay)` -/
def goto (s : ChannelChange) (state : ChannelChangeState) (delay : Nat) : ChannelChange :=
  { s with channelChangeState := state, channelchangeTimer := some delay }

/-- `startChannelChange`: whether the request is taken, and the state after it. -/
def startChannelChange (s : ChannelChange) (channel : UInt8) : Bool × ChannelChange :=
  if s.isInNetwork then
    let s := { s with ccRetries := 0, gwZigbeeChannel := channel.toNat }
    if s.channelChangeState ≠ .idle then (true, s) else (true, s.goto .verifyChannel verifyTime)
  else
    (false, s)

/-- `verifyChannel` -/
def verifyChannel (s : ChannelChange) (channel : UInt8) : Bool :=
  match s.apsCtrl with
  | none => false
  | some apsCtrl =>
    s.isInNetwork && apsCtrl.currentChannel == channel &&
      (!apsCtrl.coordinator ||
        (apsCtrl.apsUseExtendedPanid == 0 && apsCtrl.trustCenterAddress == apsCtrl.macAddress))

/-- `changeChannel`; `sent` is the id of the request if the APS layer takes it. -/
def changeChannel (s : ChannelChange) (channel : UInt8) (sent : Option UInt8) : ChannelChange :=
  let giveUp : ChannelChange := { s with ccRetries := 0, channelChangeState := .idle }
  match s.apsCtrl with
  | none => giveUp
  | some apsCtrl =>
    if s.gwDeviceAddress &&& deMacPrefix ≠ deMacPrefix then giveUp -- require valid mac address
    else if s.ccRetries < 3 then
      if 11 ≤ channel ∧ channel ≤ 26 then
        let nwkUpdateId :=
          if apsCtrl.networkUpdateId < 255 then apsCtrl.networkUpdateId + 1 else 1
        let s : ChannelChange :=
          { s with
            apsCtrl :=
              some { apsCtrl with currentChannel := channel, networkUpdateId := nwkUpdateId }
            requests := s.requests ++ [.changeChannel channel nwkUpdateId] }
        match sent with
        | some id => { s with channelChangeApsRequestId := id }.goto .waitConfirm waitConfirmTime
        | none => s.goto .verifyChannel verifyTime
      else
        s.goto .verifyChannel verifyTime
    else
      giveUp

/-- `channelChangeDisconnectNetwork` -/
def channelChangeDisconnectNetwork (s : ChannelChange) : ChannelChange :=
  if s.channelChangeState ≠ .waitConfirm then s
  else
    match s.apsCtrl with
    | none => s
    | some _ =>
      let s : ChannelChange :=
        { s with
          ccNetworkDisconnectAttempts := networkAttemps
          ccNetworkConnectedBefore := s.gwRfConnectedExpected
          requests := s.requests ++ [.setNetworkState .notInNetwork] }
      s.goto .disconnectingNetwork disconnectCheckDelay

/-- `channelChangeSendConfirm` -/
def channelChangeSendConfirm (s : ChannelChange) (success : Bool) : ChannelChange :=
  let s := { s with channelchangeTimer := none }
  if s.channelChangeState = .waitConfirm then
    if success then s.channelChangeDisconnectNetwork else s.goto .verifyChannel verifyTime
  else
    s

/-- `channelChangeStartReconnectNetwork`, whose delay is never 0. -/
def channelChangeStartReconnectNetwork (s : ChannelChange) (delay : Nat) : ChannelChange :=
  { s with ccNetworkReconnectAttempts := networkAttemps }.goto .reconnectNetwork delay

/-- `checkChannelChangeNetworkDisconnected` -/
def checkChannelChangeNetworkDisconnected (s : ChannelChange) : ChannelChange :=
  if s.channelChangeState ≠ .disconnectingNetwork then s
  else
    let s := { s with ccNetworkDisconnectAttempts := s.ccNetworkDisconnectAttempts - 1 }
    if s.isInNetwork then
      if s.ccNetworkDisconnectAttempts = 0 then
        -- the disconnect may still happen shortly after here
        s.channelChangeStartReconnectNetwork reconnectCheckDelay
      else
        let s : ChannelChange :=
          { s with requests := s.requests ++ [.setNetworkState .notInNetwork] }
        s.goto .disconnectingNetwork disconnectCheckDelay
    else
      s.channelChangeStartReconnectNetwork reconnectNow

/-- `channelChangeReconnectNetwork` -/
def channelChangeReconnectNetwork (s : ChannelChange) : ChannelChange :=
  if s.channelChangeState ≠ .reconnectNetwork then s
  else if s.isInNetwork then s.goto .verifyChannel verifyTime
  else if !s.ccNetworkConnectedBefore then { s with channelChangeState := .idle }
  else if 0 < s.ccNetworkReconnectAttempts then
    match s.apsCtrl with
    | none => s -- the null pointer is dereferenced
    | some apsCtrl =>
      if apsCtrl.networkState ≠ .connecting then
        let apsCtrl : ApsController :=
          if apsCtrl.coordinator then
            { apsCtrl with
              apsUseExtendedPanid := 0
              trustCenterAddress := s.gwDeviceAddress
              staticNwkAddress := false
              nwkAddress := 0 }
          else apsCtrl
        let s : ChannelChange :=
          { s with
            ccNetworkReconnectAttempts := s.ccNetworkReconnectAttempts - 1
            apsCtrl := some apsCtrl
            requests := s.requests ++ [.setNetworkState .inNetwork] }
        s.goto .reconnectNetwork reconnectCheckDelay
      else
        s.goto .reconnectNetwork reconnectCheckDelay
  else
    { s with channelChangeState := .idle }

/-- `channelchangeTimerFired` -/
def channelchangeTimerFired (s : ChannelChange) (sent : Option UInt8) : ChannelChange :=
  let channel := UInt8.ofNat s.gwZigbeeChannel
  match s.channelChangeState with
  | .idle => s
  | .verifyChannel =>
    if s.verifyChannel channel then { s with channelChangeState := .idle }
    else s.goto .changeChannel waitTime
  | .changeChannel => { s with ccRetries := s.ccRetries + 1 }.changeChannel channel sent
  | .reconnectNetwork => s.channelChangeReconnectNetwork
  | .disconnectingNetwork => s.checkChannelChangeNetworkDisconnected
  | .waitConfirm => { s with channelChangeState := .idle }

end ChannelChange

/-- A request, the timer that expires, a confirm of the APS layer, or a change of the network. -/
inductive ChangeEvent where
  | startChannelChange (channel : UInt8)
  | timeout (sent : Option UInt8)
  | confirm (id : UInt8) (success : Bool)
  | network (apsCtrl : ApsController)
  | networkStateChangeRequest (shouldConnect : Bool)
deriving DecidableEq, Repr

namespace ChannelChange

/-- The state after an event.  A timer that is not armed does not expire, and the confirm is
handed over only if one is waited for. -/
def step (s : ChannelChange) : ChangeEvent → ChannelChange
  | .startChannelChange channel => (s.startChannelChange channel).2
  | .timeout sent =>
    if s.channelchangeTimer.isSome then
      { s with channelchangeTimer := none }.channelchangeTimerFired sent
    else s
  | .confirm id success =>
    if s.channelChangeApsRequestId = id ∧ s.channelChangeState = .waitConfirm then
      s.channelChangeSendConfirm success
    else s
  | .network apsCtrl => { s with apsCtrl := s.apsCtrl.map fun _ => apsCtrl }
  | .networkStateChangeRequest shouldConnect => { s with gwRfConnectedExpected := shouldConnect }

/-! ## What a step can do -/

/-- The states that an event leads to, with the reasons for it that later proofs need. -/
inductive Move (s : ChannelChange) : ChangeEvent → ChannelChange → Prop where
  | rejected {channel} (hout : s.isInNetwork = false) : Move s (.startChannelChange channel) s
  | taken {channel} (hin : s.isInNetwork = true) (hbusy : s.channelChangeState ≠ .idle) :
      Move s (.startChannelChange channel)
        { s with ccRetries := 0, gwZigbeeChannel := channel.toNat }
  | started {channel} (hin : s.isInNetwork = true) (hidle : s.channelChangeState = .idle) :
      Move s (.startChannelChange channel)
        ({ s with ccRetries := 0, gwZigbeeChannel := channel.toNat }.goto .verifyChannel verifyTime)
  | network (apsCtrl) :
      Move s (.network apsCtrl) { s with apsCtrl := s.apsCtrl.map fun _ => apsCtrl }
  | expected (shouldConnect) :
      Move s (.networkStateChangeRequest shouldConnect)
        { s with gwRfConnectedExpected := shouldConnect }
  | notAwaited {id success} : Move s (.confirm id success) s
  | disconnect {id} (h : s.channelChangeState = .waitConfirm) :
      Move s (.confirm id true) ({ s with
        ccNetworkDisconnectAttempts := networkAttemps
        ccNetworkConnectedBefore := s.gwRfConnectedExpected
        requests := s.requests ++ [Request.setNetworkState .notInNetwork] }.goto
          .disconnectingNetwork disconnectCheckDelay)
  | refused {id} (h : s.channelChangeState = .waitConfirm) :
      Move s (.confirm id false) (s.goto .verifyChannel verifyTime)
  | notArmed {sent} : Move s (.timeout sent) s
  | expired {sent} (h : s.channelChangeState = .idle) :
      Move s (.timeout sent) { s with channelchangeTimer := none }
  | verified {sent} (h : s.channelChangeState = .verifyChannel)
      (hok : s.verifyChannel (UInt8.ofNat s.gwZigbeeChannel) = true) :
      Move s (.timeout sent) { s with channelchangeTimer := none, channelChangeState := .idle }
  | notVerified {sent} (h : s.channelChangeState = .verifyChannel) :
      Move s (.timeout sent) (s.goto .changeChannel waitTime)
  | broadcast {sent} (h : s.channelChangeState = .changeChannel) (hretries : s.ccRetries + 1 < 3)
      (apsCtrl : ApsController) (channel nwkUpdateId id : UInt8) {next : ChannelChangeState}
      (hnext : next = .waitConfirm ∨ next = .verifyChannel) (delay : Nat) :
      Move s (.timeout sent) ({ s with
        apsCtrl := some apsCtrl
        ccRetries := s.ccRetries + 1
        channelChangeApsRequestId := id
        requests := s.requests ++ [Request.changeChannel channel nwkUpdateId] }.goto next delay)
  | notSent {sent} (h : s.channelChangeState = .changeChannel) (hretries : s.ccRetries + 1 < 3) :
      Move s (.timeout sent) ({ s with ccRetries := s.ccRetries + 1 }.goto .verifyChannel verifyTime)
  | gaveUp {sent} (h : s.channelChangeState = .changeChannel) :
      Move s (.timeout sent)
        { s with channelchangeTimer := none, ccRetries := 0, channelChangeState := .idle }
  | notConfirmed {sent} (h : s.channelChangeState = .waitConfirm) :
      Move s (.timeout sent) { s with channelchangeTimer := none, channelChangeState := .idle }
  | again {sent} (h : s.channelChangeState = .disconnectingNetwork) (attempts : Nat) :
      Move s (.timeout sent) ({ s with
        ccNetworkDisconnectAttempts := attempts
        requests := s.requests ++ [Request.setNetworkState .notInNetwork] }.goto
          .disconnectingNetwork disconnectCheckDelay)
  | reconnect {sent} (h : s.channelChangeState = .disconnectingNetwork) (attempts delay : Nat) :
      Move s (.timeout sent) ({ s with
        ccNetworkDisconnectAttempts := attempts
        ccNetworkReconnectAttempts := networkAttemps }.goto .reconnectNetwork delay)
  | rejoined {sent} (h : s.channelChangeState = .reconnectNetwork) (hin : s.isInNetwork = true) :
      Move s (.timeout sent) (s.goto .verifyChannel verifyTime)
  | notExpected {sent} (h : s.channelChangeState = .reconnectNetwork)
      (hbefore : s.ccNetworkConnectedBefore = false) :
      Move s (.timeout sent) { s with channelchangeTimer := none, channelChangeState := .idle }
  | attempt {sent} (h : s.channelChangeState = .reconnectNetwork)
      (hleft : 0 < s.ccNetworkReconnectAttempts) (apsCtrl : ApsController) :
      Move s (.timeout sent) ({ s with
        ccNetworkReconnectAttempts := s.ccNetworkReconnectAttempts - 1
        apsCtrl := some apsCtrl
        requests := s.requests ++ [Request.setNetworkState .inNetwork] }.goto .reconnectNetwork
          reconnectCheckDelay)
  | connecting {sent} (h : s.channelChangeState = .reconnectNetwork) :
      Move s (.timeout sent) (s.goto .reconnectNetwork reconnectCheckDelay)
  | failed {sent} (h : s.channelChangeState = .reconnectNetwork)
      (hnone : s.ccNetworkReconnectAttempts = 0) :
      Move s (.timeout sent) { s with channelchangeTimer := none, channelChangeState := .idle }
  | null {event} (hbusy : s.channelChangeState ≠ .idle) (h : s.apsCtrl = none)
      {s' : ChannelChange} : Move s event s'

variable (s : ChannelChange)

theorem move_startChannelChange (channel : UInt8) :
    Move s (.startChannelChange channel) (s.startChannelChange channel).2 := by
  unfold startChannelChange
  by_cases hin : s.isInNetwork = true
  · rw [if_pos hin]
    by_cases hbusy : s.channelChangeState ≠ .idle
    · simp only [if_pos hbusy]
      exact .taken hin hbusy
    · simp only [if_neg hbusy]
      exact .started hin (not_not.mp hbusy)
  · rw [if_neg hin]
    exact .rejected (by simpa using hin)

theorem move_changeChannel (h : s.channelChangeState = .changeChannel) (channel : UInt8)
    (sent : Option UInt8) :
    Move s (.timeout sent)
      ({ s with channelchangeTimer := none, ccRetries := s.ccRetries + 1 }.changeChannel channel
        sent) := by
  have hbusy : s.channelChangeState ≠ .idle := by simp [h]
  unfold changeChannel
  cases hctrl : s.apsCtrl with
  | none => exact .null hbusy hctrl
  | some apsCtrl =>
    have hgaveUp : Move s (.timeout sent) _ := .gaveUp h
    have hnotSent : _ → Move s (.timeout sent) _ := fun hretries => .notSent h hretries
    rw [hctrl] at hgaveUp hnotSent
    simp only
    split
    · exact hgaveUp
    · split
      · rename_i hretries
        split
        · cases sent with
          | some id => exact .broadcast h hretries _ channel _ id (.inl rfl) _
          | none => exact .broadcast h hretries _ channel _ _ (.inr rfl) _
        · exact hnotSent hretries
      · exact hgaveUp

theorem move_reconnect (h : s.channelChangeState = .reconnectNetwork) (sent : Option UInt8) :
    Move s (.timeout sent) { s with channelchangeTimer := none }.channelChangeReconnectNetwork := by
  have hbusy : s.channelChangeState ≠ .idle := by simp [h]
  unfold channelChangeReconnectNetwork
  rw [if_neg (not_not.mpr h)]
  split
  · rename_i hin
    exact .rejoined h hin
  · split
    · rename_i hbefore
      exact .notExpected h (by simpa using hbefore)
    · split
      · rename_i hleft
        split
        · rename_i hctrl
          exact .null hbusy hctrl
        · split
          · exact .attempt h hleft _
          · exact .connecting h
      · rename_i hnone
        exact .failed h (Nat.eq_zero_of_not_pos hnone)

theorem move_disconnected (h : s.channelChangeState = .disconnectingNetwork) (sent : Option UInt8) :
    Move s (.timeout sent)
      { s with channelchangeTimer := none }.checkChannelChangeNetworkDisconnected := by
  unfold checkChannelChangeNetworkDisconnected
  rw [if_neg (not_not.mpr h)]
  simp only
  split
  · split
    · exact .reconnect h _ _
    · exact .again h _
  · exact .reconnect h _ _

theorem move_sendConfirm (h : s.channelChangeState = .waitConfirm) (id : UInt8) (success : Bool) :
    Move s (.confirm id success) (s.channelChangeSendConfirm success) := by
  have hbusy : s.channelChangeState ≠ .idle := by simp [h]
  unfold channelChangeSendConfirm
  simp only [if_pos h]
  cases success with
  | false => exact .refused h
  | true =>
    unfold channelChangeDisconnectNetwork
    simp only [if_neg (not_not.mpr h), if_true]
    split
    · rename_i hctrl
      exact .null hbusy hctrl
    · exact .disconnect h

/-- **Every step is one of the moves.** -/
theorem step_move (event : ChangeEvent) : Move s event (s.step event) := by
  cases event with
  | startChannelChange channel => exact move_startChannelChange s channel
  | network apsCtrl => exact .network apsCtrl
  | networkStateChangeRequest shouldConnect => exact .expected shouldConnect
  | confirm id success =>
    simp only [step]
    split
    · rename_i hwaits
      exact move_sendConfirm s hwaits.2 id success
    · exact .notAwaited
  | timeout sent =>
    simp only [step]
    split
    · unfold channelchangeTimerFired
      simp only
      split
      · rename_i h
        exact .expired h
      · rename_i h
        split
        · rename_i hok
          exact .verified h hok
        · exact .notVerified h
      · rename_i h
        exact move_changeChannel s h _ sent
      · rename_i h
        exact move_reconnect s h sent
      · rename_i h
        exact move_disconnected s h sent
      · rename_i h
        exact .notConfirmed h
    · exact .notArmed

end ChannelChange
end Channel
end DeconzRest

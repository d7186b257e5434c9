import DeconzRest.Touchlink.Machine

/-!
# What an event does to the touchlink machine

`Move` says it once: the machine stays, takes a request, goes on towards the device, gives up,
tries to join the network, or sends the request to the device.  A request to a device is sent
when a scan response of the device arrives, whatever the state.
-/

namespace DeconzRest
namespace Touchlink

open List

/-- A state that is left by the timer alone. -/
def TouchlinkState.timed : TouchlinkState → Bool
  | .disconnectingNetwork | .waitScanResponses | .reconnectNetwork => true
  | .idle | .startingInterpanMode | .stoppingInterpanMode | .sendingScanRequest
  | .sendingIdentifyRequest | .sendingResetRequest => false

/-- A state between the request of the user and the request to the device -/
def TouchlinkState.pending : TouchlinkState → Bool
  | .disconnectingNetwork | .startingInterpanMode | .sendingScanRequest | .waitScanResponses => true
  | .idle | .stoppingInterpanMode | .reconnectNetwork | .sendingIdentifyRequest
  | .sendingResetRequest => false

def Request.interpan : Request → Option InterpanRequest
  | .sendInterpanRequest req => some req
  | .setNetworkState _ | .startInterpanMode _ => none

/-- What an accepted request of the user asks for -/
structure Selection where
  action : TouchlinkAction
  device : Option UInt64
deriving DecidableEq, Repr

namespace Machine

def selected (s : Machine) (id : String) : Option UInt64 :=
  (s.touchlinkScanResponses.find? fun r => r.id = id).map (·.address)

/-- What is asked for, if the event is a request that is accepted. -/
def accepted (s : Machine) : Event → Option Selection
  | .touchlinkScan rand =>
    if (s.touchlinkScan rand).1 = 200 then some { action := .scan, device := none } else none
  | .identifyLight id rand =>
    if (s.identifyLight id rand).1 = 200 then
      some { action := .identify, device := s.selected id }
    else none
  | .resetLight id rand =>
    if (s.resetLight id rand).1 = 200 then some { action := .reset, device := s.selected id }
    else none
  | _ => none

def interpanRequests (s : Machine) (e : Event) : List InterpanRequest :=
  ((s.step e).requests.drop s.requests.length).filterMap Request.interpan

def deviceRequests (s : Machine) (e : Event) : List InterpanRequest :=
  (s.interpanRequests e).filter fun req => req.command ≠ .scan

/-! ## What a step can do -/

/-- Unless the machine is idle, it stays with its action and device. -/
def Keeps (s s' : Machine) : Prop :=
  s.touchlinkState ≠ .idle → s'.touchlinkAction = s.touchlinkAction ∧ s'.touchlinkDevice.address =
    s.touchlinkDevice.address

def Armed (s : Machine) : Prop := s.touchlinkState.timed = true → s.touchlinkTimer.isSome = true

/-- An identify or reset request is to be sent for the frame. -/
def Answered (s : Machine) (data : List UInt8) : Prop :=
  s.touchlinkState ≠ .idle ∧ s.touchlinkAction ≠ .scan ∧ (InterpanFrame.read data).isScanResponse =
    true ∧
    (InterpanFrame.read data).srcAddress = s.touchlinkDevice.address

instance (s : Machine) (data : List UInt8) : Decidable (s.Answered data) :=
  inferInstanceAs (Decidable (_ ∧ _))

/-- What an event can do; `out` are the requests that are made. -/
inductive Move (s s' : Machine) (out : List Request) : Event → Prop where
  | quiet {e : Event} (hnot : s.accepted e = none) (hkeeps : Keeps s s')
      (hstate : s'.touchlinkState = s.touchlinkState) (harmed : Armed s → Armed s')
      (hout : out = []) : Move s s' out e
  | accepted {e : Event} {selection : Selection} (hsome : s.accepted e = some selection)
      (haction : s'.touchlinkAction = selection.action)
      (hdevice : ∀ address, selection.device = some address → s'.touchlinkDevice.address = address)
      (hknown : selection.action ≠ .scan → selection.device.isSome = true)
      (hidle : s.touchlinkState = .idle) (harmed : Armed s')
      (hout : ∀ r ∈ out, r.interpan = none) : Move s s' out e
  | pending {e : Event} (hnot : s.accepted e = none) (hkeeps : Keeps s s')
      (hpending : s.touchlinkState.pending = true) (hpending' : s'.touchlinkState.pending = true)
      (harmed : Armed s') (hout : ∀ r ∈ out, ∀ req, r.interpan = some req → req.command = .scan) :
      Move s s' out e
  | reconnects {e : Event} (hnot : s.accepted e = none) (hkeeps : Keeps s s')
      (hidle : s.touchlinkState ≠ .idle) (hbefore : s.touchlinkState ≠ .reconnectNetwork)
      (hstate : s'.touchlinkState = .reconnectNetwork) (harmed : Armed s')
      (hout : ∀ r ∈ out, ∀ req, r.interpan = some req → req.command = .scan) : Move s s' out e
  | retries {e : Event} (hnot : s.accepted e = none) (hkeeps : Keeps s s')
      (hstate : s.touchlinkState = .reconnectNetwork)
      (hstate' : s'.touchlinkState = .reconnectNetwork ∨ s'.touchlinkState = .idle)
      (harmed : Armed s') (hout : ∀ r ∈ out, r.interpan = none) : Move s s' out e
  | sends {ctrl : Controller} {data : List UInt8} (hanswered : s.Answered data)
      (hkeeps : Keeps s s') (hidle : s'.touchlinkState ≠ .idle)
      (hpending : s'.touchlinkState.pending = false) (harmed : Armed s')
      (hout : out = [.sendInterpanRequest (s.deviceRequest s.touchlinkAction)]) :
      Move s s' out (.interpanIndication ctrl data)

/-- The event is a move, with some requests. -/
def Moves (s s' : Machine) (e : Event) : Prop :=
  ∃ out, s'.requests = s.requests ++ out ∧ Move s s' out e

variable {s s' : Machine} {e : Event} {ctrl : Controller}

theorem moves_quiet (hnot : s.accepted e = none) (hkeeps : Keeps s s')
    (hrequests : s'.requests = s.requests) (hstate : s'.touchlinkState = s.touchlinkState)
    (harmed : Armed s → Armed s') : Moves s s' e :=
  ⟨[], by rw [hrequests, append_nil], .quiet hnot hkeeps hstate harmed rfl⟩

theorem moves_same (hnot : s.accepted e = none) : Moves s s e :=
  moves_quiet hnot (fun _ => ⟨rfl, rfl⟩) rfl rfl id

theorem disconnect_cases (s : Machine) (hidle : s.touchlinkState = .idle) :
    s.touchlinkDisconnectNetwork.touchlinkAction = s.touchlinkAction ∧
      s.touchlinkDisconnectNetwork.touchlinkDevice = s.touchlinkDevice ∧
      Armed s.touchlinkDisconnectNetwork ∧
      ∃ out, s.touchlinkDisconnectNetwork.requests = s.requests ++ out ∧ ∀ r ∈ out, r.interpan =
        none := by
  unfold touchlinkDisconnectNetwork
  rw [if_neg (not_not.mpr hidle)]
  split
  · refine ⟨rfl, rfl, ?_, [], (append_nil _).symm, nofun⟩
    intro htimed
    rw [hidle] at htimed
    cases htimed
  · refine ⟨rfl, rfl, fun _ => rfl, [.setNetworkState .notInNetwork], rfl, ?_⟩
    intro r hr
    rw [mem_singleton.mp hr]
    rfl

theorem moves_touchlinkScan (s : Machine) (rand : UInt32) :
    Moves s (s.step (.touchlinkScan rand)) (.touchlinkScan rand) := by
  by_cases hidle : s.touchlinkState = .idle
  · have haccepted : s.accepted (.touchlinkScan rand) =
        some { action := .scan, device := none } := by
      simp [Machine.accepted, touchlinkScan, hidle]
    have hstep : s.step (.touchlinkScan rand) = { s with
        touchlinkAction := .scan
        touchlinkChannel := 11
        touchlinkScanCount := 0
        touchlinkScanResponses := []
        transactionId := nextTransactionId rand }.touchlinkDisconnectNetwork := by
      simp [step, touchlinkScan, hidle]
    rw [hstep]
    obtain ⟨haction, _, harmed, out, hout, hnone⟩ := disconnect_cases { s with
        touchlinkAction := .scan
        touchlinkChannel := 11
        touchlinkScanCount := 0
        touchlinkScanResponses := []
        transactionId := nextTransactionId rand } hidle
    exact ⟨out, hout, .accepted haccepted haction nofun (absurd rfl) hidle harmed hnone⟩
  · have hsame : s.touchlinkScan rand = (503, s) := by
      unfold touchlinkScan
      rw [if_pos hidle]
    show Moves s (s.touchlinkScan rand).2 _
    rw [hsame]
    refine moves_same ?_
    simp [Machine.accepted, hsame]

theorem actOnLight_cases (action : TouchlinkAction) (s : Machine) (id : String) (rand : UInt32) :
    ((s.actOnLight action id rand).1 ≠ 200 ∧ Keeps s (s.actOnLight action id rand).2 ∧
      (s.actOnLight action id rand).2.requests = s.requests ∧
      (s.actOnLight action id rand).2.touchlinkState = s.touchlinkState ∧
      (s.actOnLight action id rand).2.touchlinkTimer = s.touchlinkTimer) ∨
    ((s.actOnLight action id rand).1 = 200 ∧ s.touchlinkState = .idle ∧
      (s.actOnLight action id rand).2.touchlinkAction = action ∧
      s.selected id = some (s.actOnLight action id rand).2.touchlinkDevice.address ∧
      Armed (s.actOnLight action id rand).2 ∧
      ∃ out, (s.actOnLight action id rand).2.requests = s.requests ++ out ∧ ∀ r ∈ out, r.interpan =
        none) := by
  unfold actOnLight
  by_cases hidle : s.touchlinkState = .idle
  · rw [if_neg (not_not.mpr hidle)]
    simp only
    generalize hdevice : (s.touchlinkScanResponses.find? fun r => r.id = id).getD
      { s.touchlinkDevice with id := "" } = device
    by_cases hempty : device.id = ""
    · rw [if_pos hempty]
      exact .inl ⟨(by decide : (404 : Nat) ≠ 200), absurd hidle, rfl, rfl, rfl⟩
    · rw [if_neg hempty]
      have hselected : s.selected id = some device.address := by
        unfold selected
        cases hfind : s.touchlinkScanResponses.find? (fun r => r.id = id) with
        | none =>
          rw [hfind] at hdevice
          exact absurd (hdevice ▸ rfl) hempty
        | some r =>
          rw [hfind] at hdevice
          exact congrArg (fun d : ScanResponse => some d.address) hdevice
      obtain ⟨haction, hkept, harmed, hrequests⟩ := disconnect_cases { s with
        touchlinkDevice := device
        transactionId := nextTransactionId rand
        touchlinkAction := action
        touchlinkChannel := device.channel } hidle
      exact .inr ⟨rfl, hidle, haction, by rw [hselected, hkept], harmed, hrequests⟩
  · rw [if_pos hidle]
    exact .inl ⟨by simp, fun _ => ⟨rfl, rfl⟩, rfl, rfl, rfl⟩

theorem moves_actOnLight (action : TouchlinkAction) {id : String} {rand : UInt32}
    (hstep : s.step e = (s.actOnLight action id rand).2)
    (haccepted : s.accepted e = if (s.actOnLight action id rand).1 = 200 then
      some { action, device := s.selected id } else none) : Moves s (s.step e) e := by
  rw [hstep]
  rcases actOnLight_cases action s id rand with
    ⟨hstatus, hkeeps, hrequests, hstate, htimer⟩ |
    ⟨hstatus, hidle, haction, hdevice, harmed, out, hout, hnone⟩
  · rw [if_neg hstatus] at haccepted
    refine moves_quiet haccepted hkeeps hrequests hstate ?_
    unfold Armed
    rw [hstate, htimer]
    exact fun harmed => harmed
  · rw [if_pos hstatus] at haccepted
    refine ⟨out, hout, .accepted haccepted haction ?_ ?_ hidle harmed hnone⟩
    · intro address haddress
      exact Option.some.inj (hdevice.symm.trans haddress)
    · intro _
      show (s.selected id).isSome = true
      rw [hdevice]
      rfl

/-! ## Callbacks -/

theorem notInterpan (req : Request) (h : req.interpan = none) : ∀ r ∈ [req], r.interpan = none := by
  intro r hr
  rw [mem_singleton.mp hr]
  exact h

theorem notDevice {out : List Request} (h : ∀ r ∈ out, r.interpan = none) :
    ∀ r ∈ out, ∀ req, r.interpan = some req → req.command = .scan := by
  intro r hr req hreq
  rw [h r hr] at hreq
  cases hreq

theorem moves_reconnect (hnot : s.accepted e = none) (hidle : s.touchlinkState ≠ .idle)
    (hbefore : s.touchlinkState ≠ .reconnectNetwork) (hkeeps : Keeps s s') (out : List Request)
    (hrequests : s'.requests = s.requests ++ out)
    (hout : ∀ r ∈ out, ∀ req, r.interpan = some req → req.command = .scan)
    (hstate : s'.touchlinkState = .reconnectNetwork) (htimer : s'.touchlinkTimer.isSome = true) :
    Moves s s' e :=
  ⟨out, hrequests, .reconnects hnot hkeeps hidle hbefore hstate (fun _ => htimer) hout⟩

theorem pending_ne {state : TouchlinkState} (h : state.pending = true) :
    state ≠ .idle ∧ state ≠ .reconnectNetwork :=
  ⟨fun hidle => (by rw [hidle] at h; cases h), fun hback => (by rw [hback] at h; cases h)⟩

theorem moves_scanRequest {s₁ : Machine} (hnot : s.accepted e = none)
    (hpending : s.touchlinkState.pending = true) (hkeeps : Keeps s s₁)
    (hrequests : s₁.requests = s.requests) : Moves s (s₁.sendTouchlinkScanRequest ctrl) e := by
  obtain ⟨hidle, hbefore⟩ := pending_ne hpending
  unfold sendTouchlinkScanRequest
  generalize hreq : InterpanRequest.mk .scan _ _ _ _ = req
  have hscan : ∀ r ∈ [Request.sendInterpanRequest req], ∀ req', r.interpan = some req' →
      req'.command = .scan := by
    intro r hr req' hreq'
    rw [mem_singleton.mp hr] at hreq'
    cases hreq'
    rw [← hreq]
  have hout : s₁.requests ++ [.sendInterpanRequest req] = s.requests ++
      [.sendInterpanRequest req] := by rw [hrequests]
  unfold sendInterpanRequest
  simp only
  split
  · exact ⟨_, hout, .pending hnot hkeeps hpending rfl nofun hscan⟩
  · exact moves_reconnect hnot hidle hbefore hkeeps _ hout hscan rfl rfl

theorem moves_startTouchlinkMode {s₁ : Machine} (hnot : s.accepted e = none)
    (hpending : s.touchlinkState.pending = true) (hkeeps : Keeps s s₁)
    (hrequests : s₁.requests = s.requests) (channel : UInt8) :
    Moves s (s₁.startTouchlinkMode ctrl channel) e := by
  obtain ⟨hidle, hbefore⟩ := pending_ne hpending
  have hout : s₁.requests ++ [.startInterpanMode channel] = s.requests ++
      [.startInterpanMode channel] := by rw [hrequests]
  have hscan := notDevice (notInterpan (.startInterpanMode channel) rfl)
  unfold startTouchlinkMode
  simp only
  split
  · exact ⟨_, hout, .pending hnot hkeeps hpending rfl nofun hscan⟩
  · exact moves_reconnect hnot hidle hbefore hkeeps _ hout hscan rfl rfl

theorem moves_startConfirm (s : Machine) (ctrl : Controller) (success : Bool) :
    Moves s (s.startTouchlinkModeConfirm ctrl success) (.startInterpanModeConfirm ctrl success) := by
  unfold startTouchlinkModeConfirm
  by_cases hstate : s.touchlinkState = .startingInterpanMode
  · rw [if_neg (not_not.mpr hstate)]
    split
    · exact moves_reconnect rfl (by simp [hstate]) (by simp [hstate]) (fun _ => ⟨rfl, rfl⟩) []
        (append_nil _).symm nofun rfl rfl
    · exact moves_scanRequest rfl (by rw [hstate]; rfl) (fun _ => ⟨rfl, rfl⟩) rfl
  · rw [if_pos hstate]
    exact moves_same rfl

theorem moves_sendConfirm (s : Machine) (success : Bool) :
    Moves s s.sendTouchlinkConfirm (.sendInterpanConfirm success) := by
  have hback : s.touchlinkState ≠ .idle → s.touchlinkState ≠ .reconnectNetwork →
      Moves s (s.touchlinkStartReconnectNetwork reconnectNow) (.sendInterpanConfirm success) :=
    fun hidle hbefore => moves_reconnect rfl hidle hbefore (fun _ => ⟨rfl, rfl⟩) []
      (append_nil _).symm nofun rfl rfl
  unfold sendTouchlinkConfirm
  cases hstate : s.touchlinkState with
  | sendingScanRequest =>
    have hpending : s.touchlinkState.pending = true := by rw [hstate]; rfl
    simp only
    split
    · split
      · exact ⟨[], (append_nil _).symm,
          .pending rfl (fun _ => ⟨rfl, rfl⟩) hpending rfl (fun _ => rfl) nofun⟩
      · exact ⟨[], (append_nil _).symm,
          .pending rfl (fun _ => ⟨rfl, rfl⟩) hpending rfl (fun _ => rfl) nofun⟩
    all_goals exact ⟨[], (append_nil _).symm,
      .pending rfl (fun _ => ⟨rfl, rfl⟩) hpending rfl (fun _ => rfl) nofun⟩
  | sendingIdentifyRequest | sendingResetRequest =>
    exact hback (by simp [hstate]) (by simp [hstate])
  | waitScanResponses | idle | disconnectingNetwork | startingInterpanMode | stoppingInterpanMode
  | reconnectNetwork => exact moves_same rfl

theorem moves_deviceRequest (ctrl : Controller) {data : List UInt8} (sending : TouchlinkState)
    (hanswered : s.Answered data) (hidle : sending ≠ .idle) (hpending : sending.pending = false)
    (htimed : sending.timed = false) :
    Moves s ({ s with touchlinkTimer := none }.sendInterpanRequest ctrl
      (s.deviceRequest s.touchlinkAction) sending) (.interpanIndication ctrl data) := by
  unfold sendInterpanRequest
  simp only
  split
  · refine ⟨_, rfl, .sends hanswered (fun _ => ⟨rfl, rfl⟩) hidle hpending ?_ rfl⟩
    exact fun htrue => nomatch htimed.symm.trans htrue
  · exact ⟨_, rfl, .sends hanswered (fun _ => ⟨rfl, rfl⟩) nofun rfl (fun _ => rfl) rfl⟩

theorem moves_interpan (s : Machine) (ctrl : Controller) (data : List UInt8) :
    Moves s (s.interpanDataIndication ctrl data) (.interpanIndication ctrl data) := by
  unfold interpanDataIndication
  split
  · exact moves_same rfl
  rename_i hidle
  simp only
  by_cases hscan : (InterpanFrame.read data).isScanResponse = true
  · rw [hscan, Bool.not_true, if_neg Bool.false_ne_true]
    cases haction : s.touchlinkAction with
    | scan =>
      simp only
      split
      · split
        · exact moves_quiet rfl (fun _ => ⟨haction.symm ▸ rfl, rfl⟩) rfl rfl fun harmed => harmed
        · exact moves_quiet rfl (fun _ => ⟨haction.symm ▸ rfl, rfl⟩) rfl rfl fun harmed => harmed
      · exact moves_same rfl
    | identify =>
      simp only
      split
      · rename_i hdevice
        have hmove := moves_deviceRequest ctrl .sendingIdentifyRequest
          ⟨hidle, by rw [haction]; nofun, hscan, hdevice⟩ nofun rfl rfl
        rw [haction] at hmove
        exact hmove
      · exact moves_same rfl
    | reset =>
      simp only
      split
      · rename_i hdevice
        have hmove := moves_deviceRequest ctrl .sendingResetRequest
          ⟨hidle, by rw [haction]; nofun, hscan, hdevice⟩ nofun rfl rfl
        rw [haction] at hmove
        exact hmove
      · exact moves_same rfl
  · rw [if_pos (by simp [hscan])]
    exact moves_same rfl

/-! ## The timer -/

theorem moves_back (hstate : s.touchlinkState.pending = true) (hkeeps : Keeps s s')
    (hrequests : s'.requests = s.requests) (delay : Nat) :
    Moves s (s'.touchlinkStartReconnectNetwork delay) (.timeout ctrl) := by
  obtain ⟨hidle, hbefore⟩ := pending_ne hstate
  exact moves_reconnect rfl hidle hbefore hkeeps []
    (hrequests.trans (append_nil _).symm) nofun rfl rfl

theorem moves_scanTimeout (hstate : s.touchlinkState = .waitScanResponses) :
    Moves s ({ s with touchlinkTimer := none }.touchlinkScanTimeout ctrl) (.timeout ctrl) := by
  have hpending : s.touchlinkState.pending = true := by rw [hstate]; rfl
  unfold touchlinkScanTimeout
  simp only
  split
  · exact moves_back hpending (fun _ => ⟨rfl, rfl⟩) rfl _
  · exact moves_back hpending (fun _ => ⟨rfl, rfl⟩) rfl _
  · split
    · refine moves_startTouchlinkMode ?_ hpending ?_ ?_ _
      · rfl
      · exact fun _ => ⟨rfl, rfl⟩
      · rfl
    · exact moves_back hpending (fun _ => ⟨rfl, rfl⟩) rfl _

theorem moves_disconnected (hstate : s.touchlinkState = .disconnectingNetwork) :
    Moves s ({ s with touchlinkTimer := none }.checkTouchlinkNetworkDisconnected ctrl)
      (.timeout ctrl) := by
  have hpending : s.touchlinkState.pending = true := by rw [hstate]; rfl
  unfold checkTouchlinkNetworkDisconnected
  simp only
  split
  · split
    · refine moves_back hpending ?_ ?_ _
      · exact fun _ => ⟨rfl, rfl⟩
      · rfl
    · exact ⟨[.setNetworkState .notInNetwork], rfl, .pending rfl (fun _ => ⟨rfl, rfl⟩) hpending
        hpending (fun _ => rfl) (notDevice (notInterpan _ rfl))⟩
  · refine moves_startTouchlinkMode ?_ hpending ?_ ?_ _
    · rfl
    · exact fun _ => ⟨rfl, rfl⟩
    · rfl

theorem moves_reconnectNetwork (hstate : s.touchlinkState = .reconnectNetwork) :
    Moves s { s with touchlinkTimer := none }.touchlinkReconnectNetwork (.timeout ctrl) := by
  have hidle : Moves s { s with touchlinkTimer := none, touchlinkState := .idle } (.timeout ctrl) :=
    ⟨[], (append_nil _).symm, .retries rfl (fun _ => ⟨rfl, rfl⟩) hstate (.inr rfl) nofun nofun⟩
  unfold touchlinkReconnectNetwork
  split
  · exact hidle
  split
  · exact hidle
  split
  · simp only
    split
    · exact ⟨[.setNetworkState .inNetwork], rfl, .retries rfl (fun _ => ⟨rfl, rfl⟩) hstate
        (.inl hstate) (fun _ => rfl) (notInterpan _ rfl)⟩
    · exact ⟨[], (append_nil _).symm, .retries rfl (fun _ => ⟨rfl, rfl⟩) hstate (.inl hstate)
        (fun _ => rfl) nofun⟩
  · exact hidle

theorem moves_timerFired (s : Machine) (ctrl : Controller) :
    Moves s ({ s with touchlinkTimer := none }.touchlinkTimerFired ctrl) (.timeout ctrl) := by
  have hquiet : s.touchlinkState.timed = false →
      Moves s { s with touchlinkTimer := none } (.timeout ctrl) := by
    intro hstate
    refine moves_quiet rfl (fun _ => ⟨rfl, rfl⟩) rfl rfl ?_
    intro _ htimed
    cases hstate.symm.trans htimed
  unfold touchlinkTimerFired
  split
  · exact moves_scanTimeout ‹_›
  · exact moves_reconnectNetwork ‹_›
  · exact moves_disconnected ‹_›
  · rename_i hstate
    exact moves_scanRequest (e := .timeout ctrl) rfl (congrArg _ hstate) (fun _ => ⟨rfl, rfl⟩) rfl
  all_goals
    rename_i hstate
    exact hquiet (congrArg _ hstate)

theorem moves (s : Machine) (e : Event) : Moves s (s.step e) e := by
  cases e with
  | touchlinkScan rand => exact moves_touchlinkScan s rand
  | identifyLight id rand => exact moves_actOnLight .identify rfl rfl
  | resetLight id rand => exact moves_actOnLight .reset rfl rfl
  | startInterpanModeConfirm ctrl success => exact moves_startConfirm s ctrl success
  | sendInterpanConfirm success => exact moves_sendConfirm s success
  | interpanIndication ctrl data => exact moves_interpan s ctrl data
  | timeout ctrl =>
    simp only [step]
    split
    · exact moves_timerFired s ctrl
    · exact moves_same rfl
  | network state => exact moves_quiet rfl (fun _ => ⟨rfl, rfl⟩) rfl rfl fun harmed => harmed
  | networkStateChangeRequest shouldConnect =>
    exact moves_quiet rfl (fun _ => ⟨rfl, rfl⟩) rfl rfl fun harmed => harmed

end Machine
end Touchlink
end DeconzRest

import DeconzRest.Touchlink.Moves

/-!
# Touchlink acts once and comes back

`acts_once_iff`: where the selected device answers a scan only while its answer is waited for,
and only there, each accepted request leads to at most one request to its device, and nothing is
sent once the machine has started to join the network again.
-/

namespace DeconzRest
namespace Touchlink
namespace Machine

open Transition

/-- A scan response for which a request is to be sent is waited for. -/
def Awaited (s : Machine) : Event → Prop
  | .interpanIndication _ data => s.Answered data → s.touchlinkState = .waitScanResponses
  | _ => True

instance (s : Machine) : (e : Event) → Decidable (s.Awaited e)
  | .interpanIndication _ data => inferInstanceAs (Decidable (s.Answered data → _))
  | .touchlinkScan _ | .identifyLight _ _ | .resetLight _ _ | .startInterpanModeConfirm _ _
  | .sendInterpanConfirm _ | .timeout _ | .network _ | .networkStateChangeRequest _ =>
    inferInstanceAs (Decidable True)

/-- The event is a scan response of the device, received while it is waited for. -/
def Heard (s : Machine) (e : Event) (device : Option UInt64) : Prop :=
  s.touchlinkState = .waitScanResponses ∧ ∃ ctrl data, e = .interpanIndication ctrl data ∧
    (InterpanFrame.read data).isScanResponse = true ∧
    device = some (InterpanFrame.read data).srcAddress

/-- In the first `n` events a request was accepted, and since then neither another one was nor
was a request sent to a device. -/
def Asked (start : Machine) (events : List Event) (n : Nat) (selection : Selection) : Prop :=
  ∃ j, ∃ hj : j < events.length, j < n ∧ (stateAt step start events j).accepted events[j] =
    some selection ∧
    ∀ m (hm : m < events.length), j < m → m < n → (stateAt step start events m).accepted events[m] =
      none ∧ (stateAt step start events m).deviceRequests events[m] = []

/-- What holds of every run. -/
structure ActsOnce (start : Machine) (events : List Event) : Prop where
  /-- The timer is active in the states that it leaves. -/
  armed : ∀ n ≤ events.length, Armed (stateAt step start events n)
  /-- A request to a device is the only one for a request of the user, goes to the device that
  this one selects, and answers a scan response of it. -/
  once : ∀ n (hn : n < events.length), ∀ req ∈
    (stateAt step start events n).deviceRequests events[n],
      (stateAt step start events n).deviceRequests events[n] = [req] ∧
        Heard (stateAt step start events n) events[n] req.dstAddress ∧
        Asked start events n { action := req.command, device := req.dstAddress }
  /-- Nothing is sent from the begin of reconnecting until the machine is idle. -/
  comesBack : ∀ k n, k ≤ n → ∀ hn : n < events.length,
    (stateAt step start events k).touchlinkState = .reconnectNetwork →
      (∀ m, k ≤ m → m ≤ n → (stateAt step start events m).touchlinkState ≠ .idle) →
        (stateAt step start events n).interpanRequests events[n] = []

variable {s : Machine} {e : Event} {out : List Request}

theorem interpanRequests_eq (h : (s.step e).requests = s.requests ++ out) :
    s.interpanRequests e = out.filterMap Request.interpan := by
  unfold interpanRequests
  rw [h, List.drop_left]

theorem interpanRequests_nil (h : (s.step e).requests = s.requests ++ out)
    (hout : ∀ r ∈ out, r.interpan = none) : s.interpanRequests e = [] := by
  rw [interpanRequests_eq h]
  exact List.filterMap_eq_nil_iff.mpr hout

theorem deviceRequests_nil (h : (s.step e).requests = s.requests ++ out)
    (hout : ∀ r ∈ out, ∀ req, r.interpan = some req → req.command = .scan) :
    s.deviceRequests e = [] := by
  unfold deviceRequests
  rw [interpanRequests_eq h, List.filter_eq_nil_iff]
  intro req hreq
  obtain ⟨r, hr, hinterpan⟩ := List.mem_filterMap.mp hreq
  simp [hout r hr req hinterpan]

theorem deviceRequests_of_not_answered
    (h : ∀ ctrl data, e = .interpanIndication ctrl data → ¬ s.Answered data) :
    s.deviceRequests e = [] := by
  obtain ⟨out, hrequests, hmove⟩ := moves s e
  cases hmove with
  | quiet _ _ _ _ hout =>
    rw [hout] at hrequests
    exact deviceRequests_nil hrequests nofun
  | accepted _ _ _ _ _ _ hout => exact deviceRequests_nil hrequests (notDevice hout)
  | pending _ _ _ _ _ hout => exact deviceRequests_nil hrequests hout
  | reconnects _ _ _ _ _ _ hout => exact deviceRequests_nil hrequests hout
  | retries _ _ _ _ _ hout => exact deviceRequests_nil hrequests (notDevice hout)
  | sends hanswered => exact absurd hanswered (h _ _ rfl)

theorem deviceRequests_of_answered (ctrl : Controller) {data : List UInt8}
    (h : s.Answered data) : s.deviceRequests (.interpanIndication ctrl data) =
      [s.deviceRequest s.touchlinkAction] := by
  obtain ⟨hidle, haction, hscan, hdevice⟩ := h
  have hsent : (s.step (.interpanIndication ctrl data)).requests = s.requests ++
      [.sendInterpanRequest (s.deviceRequest s.touchlinkAction)] := by
    show (s.interpanDataIndication ctrl data).requests = _
    unfold interpanDataIndication
    rw [if_neg hidle]
    simp only [hscan, Bool.not_true, Bool.false_eq_true, if_false, hdevice, if_true]
    cases hkind : s.touchlinkAction with
    | scan => exact absurd hkind haction
    | identify =>
      simp only [sendTouchlinkIdentifyRequest, sendInterpanRequest]
      split <;> rfl
    | reset =>
      simp only [sendTouchlinkResetRequest, sendInterpanRequest]
      split <;> rfl
  unfold deviceRequests
  rw [interpanRequests_eq hsent]
  simp [Request.interpan, deviceRequest, haction]

theorem armed_step (s : Machine) (e : Event) (h : Armed s) : Armed (s.step e) := by
  obtain ⟨_, _, hmove⟩ := moves s e
  cases hmove with
  | quiet _ _ _ harmed => exact harmed h
  | accepted _ _ _ _ _ harmed | pending _ _ _ _ harmed | reconnects _ _ _ _ _ harmed
  | retries _ _ _ _ harmed | sends _ _ _ _ harmed => exact harmed

theorem step_reconnect (h : s.touchlinkState = .reconnectNetwork) (hawaited : s.Awaited e) :
    s.interpanRequests e = [] ∧ ((s.step e).touchlinkState = .reconnectNetwork ∨
      (s.step e).touchlinkState = .idle) := by
  obtain ⟨out, hrequests, hmove⟩ := moves s e
  cases hmove with
  | quiet _ _ hstate _ hout =>
    rw [hout] at hrequests
    exact ⟨interpanRequests_nil hrequests nofun, .inl (hstate.trans h)⟩
  | accepted _ _ _ _ hidle => cases h.symm.trans hidle
  | pending _ _ hpending =>
    rw [h] at hpending
    cases hpending
  | reconnects _ _ _ hbefore => exact absurd h hbefore
  | retries _ _ _ hstate' _ hout => exact ⟨interpanRequests_nil hrequests hout, hstate'⟩
  | sends hanswered => cases h.symm.trans (hawaited hanswered)

/-! ## Runs -/

variable {start : Machine} {events : List Event}

theorem asked_succ {n : Nat} {selection : Selection} (hn : n < events.length)
    (h : Asked start events n selection)
    (hnone : (stateAt step start events n).accepted events[n] = none)
    (hsent : (stateAt step start events n).deviceRequests events[n] = []) :
    Asked start events (n + 1) selection := by
  obtain ⟨j, hj, hjn, haccepted, hquiet⟩ := h
  refine ⟨j, hj, by omega, haccepted, ?_⟩
  intro m hm hjm hmn
  rcases Nat.lt_or_eq_of_le (Nat.le_of_lt_succ hmn) with hlt | rfl
  · exact hquiet m hm hjm hlt
  · exact ⟨hnone, hsent⟩

/-- In a pending state an identify or reset action was asked for, and not yet done. -/
def Owes (start : Machine) (events : List Event) (n : Nat) (s : Machine) : Prop :=
  s.touchlinkState.pending = true → s.touchlinkAction ≠ .scan →
    Asked start events n
      { action := s.touchlinkAction, device := some s.touchlinkDevice.address }

theorem owes_keeps {n : Nat} (hn : n < events.length) {s' : Machine}
    (h : Owes start events n (stateAt step start events n))
    (hpending : (stateAt step start events n).touchlinkState.pending = true)
    (hkeeps : Keeps (stateAt step start events n) s')
    (hnone : (stateAt step start events n).accepted events[n] = none)
    (hsent : (stateAt step start events n).deviceRequests events[n] = []) :
    Owes start events (n + 1) s' := by
  intro _ haction'
  obtain ⟨haction, hdevice⟩ := hkeeps (pending_ne hpending).1
  rw [haction] at haction' ⊢
  rw [hdevice]
  exact asked_succ hn (h hpending haction') hnone hsent

theorem owes_step {n : Nat} (hn : n < events.length)
    (h : Owes start events n (stateAt step start events n)) :
    Owes start events (n + 1) ((stateAt step start events n).step events[n]) := by
  obtain ⟨out, hrequests, hmove⟩ := moves (stateAt step start events n) events[n]
  generalize hevent : events[n] = e at hrequests hmove ⊢
  intro hpending'
  cases hmove with
  | quiet hnone hkeeps hstate _ hout =>
    rw [hout] at hrequests
    exact owes_keeps hn h (hstate ▸ hpending') hkeeps (hevent ▸ hnone)
      (hevent ▸ deviceRequests_nil hrequests nofun) hpending'
  | @accepted _ selection hsome haction hdevice hknown =>
    intro haction'
    rw [haction] at haction'
    obtain ⟨address, haddress⟩ := Option.isSome_iff_exists.mp (hknown haction')
    refine ⟨n, hn, Nat.lt_succ_self n, ?_, fun m _ hnm hmn => by omega⟩
    rw [hevent, hsome, haction, hdevice address haddress, ← haddress]
  | pending hnone hkeeps hpending _ _ hout =>
    exact owes_keeps hn h hpending hkeeps (hevent ▸ hnone)
      (hevent ▸ deviceRequests_nil hrequests hout) hpending'
  | reconnects _ _ _ _ hstate =>
    rw [hstate] at hpending'
    cases hpending'
  | retries _ _ _ hstate' =>
    rcases hstate' with hstate | hstate
    · rw [hstate] at hpending'
      cases hpending'
    · rw [hstate] at hpending'
      cases hpending'
  | sends _ _ _ hpending => cases hpending.symm.trans hpending'

theorem owes_run (hidle : start.touchlinkState = .idle) (events : List Event) :
    ∀ n ≤ events.length, Owes start events n (stateAt step start events n) := by
  refine stateAt_induction ?_ fun k hk howes => owes_step hk howes
  intro hpending
  rw [hidle] at hpending
  cases hpending

theorem armed_run (hidle : start.touchlinkState = .idle) (events : List Event) (n : Nat) :
    Armed (stateAt step start events n) := by
  refine run_invariant armed_step ?_ _
  intro htimed
  rw [hidle] at htimed
  cases htimed

theorem reconnect_run (hall : AllSteps step Awaited start events) {k n : Nat} (hkn : k ≤ n)
    (hk : (stateAt step start events k).touchlinkState = .reconnectNetwork) :
    n ≤ events.length →
      (∀ m, k ≤ m → m ≤ n → (stateAt step start events m).touchlinkState ≠ .idle) →
        (stateAt step start events n).touchlinkState = .reconnectNetwork := by
  induction n, hkn using Nat.le_induction with
  | base => exact fun _ _ => hk
  | succ n hkn ih =>
    intro hn hbusy
    have hbefore := ih (by omega) fun m hkm hmn => hbusy m hkm (by omega)
    have hnot := hbusy (n + 1) (by omega) (Nat.le_refl _)
    rw [stateAt_succ step start events hn] at hnot ⊢
    exact (step_reconnect hbefore (hall n hn)).2.resolve_right hnot

theorem once_run (hidle : start.touchlinkState = .idle)
    (hall : AllSteps step Awaited start events) {n : Nat} (hn : n < events.length)
    {req : InterpanRequest}
    (hreq : req ∈ (stateAt step start events n).deviceRequests events[n]) :
    (stateAt step start events n).deviceRequests events[n] = [req] ∧
      Heard (stateAt step start events n) events[n] req.dstAddress ∧
      Asked start events n { action := req.command, device := req.dstAddress } := by
  have hawaited := hall n hn
  have howes := owes_run hidle events n (Nat.le_of_lt hn)
  generalize stateAt step start events n = s at *
  by_cases hanswers : ∃ ctrl data, events[n] = .interpanIndication ctrl data ∧ s.Answered data
  · obtain ⟨ctrl, data, hevent, hanswered⟩ := hanswers
    rw [hevent] at hawaited
    have hstate := hawaited hanswered
    have hsent := deviceRequests_of_answered ctrl hanswered
    rw [← hevent] at hsent
    rw [hsent, List.mem_singleton] at hreq
    rw [hsent, hreq]
    obtain ⟨_, haction, hscan, hdevice⟩ := hanswered
    refine ⟨rfl, ⟨hstate, ctrl, data, hevent, hscan, congrArg some hdevice.symm⟩, ?_⟩
    exact howes (by rw [hstate]; rfl) haction
  · rw [deviceRequests_of_not_answered] at hreq
    · cases hreq
    · intro ctrl data hevent hanswered
      exact hanswers ⟨ctrl, data, hevent, hanswered⟩

theorem awaited_of_once (h : ActsOnce start events) : AllSteps step Awaited start events := by
  intro n hn
  have honce := h.once n hn
  revert honce
  generalize stateAt step start events n = s
  cases events[n] with
  | interpanIndication ctrl data =>
    intro honce hanswered
    have hsent := deviceRequests_of_answered ctrl hanswered
    exact (honce _ (by rw [hsent]; exact List.mem_singleton_self _)).2.1.1
  | touchlinkScan | identifyLight | resetLight | startInterpanModeConfirm | sendInterpanConfirm
  | timeout | network | networkStateChangeRequest => exact fun _ => trivial

theorem acts_once_iff {start : Machine} (hidle : start.touchlinkState = .idle)
    (events : List Event) : ActsOnce start events ↔ AllSteps step Awaited start events := by
  refine ⟨awaited_of_once, ?_⟩
  intro hall
  refine ⟨fun n _ => armed_run hidle events n, fun n hn req hreq => once_run hidle hall hn hreq, ?_⟩
  intro k n hkn hn hk hbusy
  have hstate := reconnect_run hall hkn hk (Nat.le_of_lt hn) hbusy
  exact (step_reconnect hstate (hall n hn)).1

def atHome : Machine where
  apsCtrl := some .inNetwork
  touchlinkAction := .scan
  touchlinkDevice :=
    { id := "", address := 0, factoryNew := false, channel := 0, panid := 0, transactionId := 0
      rssi := 0 }

def lampFrame : List UInt8 :=
  [0x62, 0x1A, 0x07, 0, 0, 0, 0xFF, 0x2E, 0x21, 0x00, 0xFF, 0xFF, 0x03, 0, 0, 0, 0, 0, 0, 0, 0,
    0x5E, 0xC0, 0x00, 0x10, 10, 0x09, 0x2A, 0x01, 1, 0, 0, 0, 0x02, 0x33, 0x01, 0xFF, 0xC4]

/-- The lamp is found by a scan that is broken off, and is to be reset; then its scan response
arrives twice. -/
def resetTwice : List Event :=
  [.touchlinkScan 7, .network .notInNetwork, .timeout {}, .startInterpanModeConfirm {} true,
    .interpanIndication {} lampFrame, .sendInterpanConfirm true,
    .timeout { sendInterpanRequest := false }, .network .inNetwork, .timeout {},
    .resetLight "1" 8, .network .notInNetwork, .timeout {}, .startInterpanModeConfirm {} true,
    .sendInterpanConfirm true, .interpanIndication {} lampFrame, .interpanIndication {} lampFrame]

/-- The second response is answered with a second reset request. -/
theorem resetTwice_sentTwice : ¬ ActsOnce atHome resetTwice := by
  intro h
  have hsent : ∀ hn : 15 < resetTwice.length,
      (stateAt step atHome resetTwice 15).deviceRequests resetTwice[15] ≠ [] := by
    decide +kernel
  obtain ⟨req, hreq⟩ := List.exists_mem_of_ne_nil _ (hsent (by decide))
  have hwaiting := (h.once 15 (by decide) req hreq).2.1.1
  exact absurd hwaiting (by decide +kernel)

theorem acts_once_iff_resetOnce : ActsOnce atHome (resetTwice.take 15) :=
  (acts_once_iff rfl (resetTwice.take 15)).mpr (by unfold AllSteps; decide +kernel)

end Machine
end Touchlink
end DeconzRest

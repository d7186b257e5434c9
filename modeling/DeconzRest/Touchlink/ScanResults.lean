import DeconzRest.Touchlink.Moves

/-!
# The results of a scan

The flag that says whether a device is factory new is the tenth octet of a scan response; it is
read before the length is looked at, and the length that is asked for is nine.
-/

namespace DeconzRest
namespace Touchlink
namespace Machine

open Transition List

/-- The places of the ASDU at which `interpanDataIndication` reads -/
def asduReads (s : Machine) (data : List UInt8) : List Nat :=
  let frame := InterpanFrame.read data
  if s.touchlinkState = .idle then []
  else if frame.profileId = zllProfileId ∧ frame.clusterId = 0x1000 ∧ 3 ≤ frame.asdu.length then
    if frame.asdu.getD 2 0 = cmdScanRsp then [2, 9] else [2]
  else []

def Scanning (s : Machine) : Prop := s.touchlinkState ≠ .idle ∧ s.touchlinkAction = .scan

/-- The frame is a scan response that is long enough to carry the factory new flag. -/
def CarriesFlag (data : List UInt8) : Prop :=
  (InterpanFrame.read data).isScanResponse = true ∧ 10 ≤ (InterpanFrame.read data).asdu.length

instance (s : Machine) : Decidable s.Scanning := inferInstanceAs (Decidable (_ ∧ _))

instance (data : List UInt8) : Decidable (CarriesFlag data) := inferInstanceAs (Decidable (_ ∧ _))

def sendersBehind (s : Machine) (senders : List UInt64) : Event → List UInt64
  | .touchlinkScan _ => if s.touchlinkState = .idle then [] else senders
  | .interpanIndication _ data =>
    if s.Scanning ∧ CarriesFlag data then senders ++ [(InterpanFrame.read data).srcAddress]
    else senders
  | _ => senders

/-- The machine, and whom it has heard -/
def watch (s : Machine × List UInt64) (e : Event) : Machine × List UInt64 :=
  (s.1.step e, s.1.sendersBehind s.2 e)

/-- All reads of the ASDU are within its length. -/
def ReadsWithin (s : Machine × List UInt64) : Event → Prop
  | .interpanIndication _ data =>
    s.1.Scanning → ∀ i ∈ s.1.asduReads data, i < (InterpanFrame.read data).asdu.length
  | _ => True

/-- The list has the senders, each of them once, and their ids are 1, 2, … -/
structure Lists (responses : List ScanResponse) (senders : List UInt64) : Prop where
  nodup : (responses.map (·.address)).Nodup
  ids : responses.map (·.id) = (List.range responses.length).map fun i => toString (i + 1)
  mem : ∀ address, address ∈ responses.map (·.address) ↔ address ∈ senders

/-- Every read is within the ASDU, and in every state the list of the results is right. -/
structure Defensive (start : Machine × List UInt64) (events : List Event) : Prop where
  reads : AllSteps watch ReadsWithin start events
  lists : ∀ n ≤ events.length,
    Lists (stateAt watch start events n).1.touchlinkScanResponses (stateAt watch start events n).2

/-- No scan response that arrives in a scan is too short for the flag. -/
def LongEnough (s : Machine × List UInt64) : Event → Prop
  | .interpanIndication _ data =>
    s.1.Scanning → (InterpanFrame.read data).isScanResponse = true → 10 ≤
      (InterpanFrame.read data).asdu.length
  | _ => True

theorem isScanResponse_iff (frame : InterpanFrame) : frame.isScanResponse = true ↔
    (frame.profileId = zllProfileId ∧ frame.clusterId = 0x1000 ∧ 3 ≤ frame.asdu.length) ∧
      frame.asdu.getD 2 0 = cmdScanRsp := by
  simp only [InterpanFrame.isScanResponse, Bool.and_eq_true, beq_iff_eq, decide_eq_true_eq,
    and_assoc]

theorem readsWithin_iff (s : Machine × List UInt64) (e : Event) :
    ReadsWithin s e ↔ LongEnough s e := by
  cases e with
  | interpanIndication ctrl data =>
    refine forall_congr' fun hscan => ?_
    simp only [isScanResponse_iff, asduReads, if_neg hscan.1]
    split_ifs with hzll hrsp
    · simp only [forall_mem_cons, not_mem_nil, false_implies, implies_true, and_true]
      constructor
      · intro h _
        omega
      · intro h
        have hlength := h ⟨hzll, hrsp⟩
        omega
    · simp only [forall_mem_singleton]
      exact iff_of_true (by omega) fun h => absurd h.2 hrsp
    · exact iff_of_true (fun i hi => absurd hi not_mem_nil) fun h => absurd h.1 hzll
  | touchlinkScan | identifyLight | resetLight | startInterpanModeConfirm | sendInterpanConfirm
  | timeout | network | networkStateChangeRequest => exact Iff.rfl

/-! ## The list -/

section Kept

variable (s : Machine) (ctrl : Controller)

theorem disconnect_responses : s.touchlinkDisconnectNetwork.touchlinkScanResponses =
    s.touchlinkScanResponses := by
  unfold touchlinkDisconnectNetwork
  split_ifs
  · rfl
  · split <;> rfl

theorem actOnLight_responses (action : TouchlinkAction) (id : String) (rand : UInt32) :
    (s.actOnLight action id rand).2.touchlinkScanResponses = s.touchlinkScanResponses := by
  unfold actOnLight
  split_ifs
  · rfl
  · dsimp only
    split_ifs
    · rfl
    · exact disconnect_responses _

theorem sendInterpan_responses (req : InterpanRequest) (sending : TouchlinkState) :
    (s.sendInterpanRequest ctrl req sending).touchlinkScanResponses = s.touchlinkScanResponses := by
  unfold sendInterpanRequest
  dsimp only
  split_ifs <;> rfl

theorem startMode_responses (channel : UInt8) :
    (s.startTouchlinkMode ctrl channel).touchlinkScanResponses = s.touchlinkScanResponses := by
  unfold startTouchlinkMode
  dsimp only
  split_ifs <;> rfl

theorem sendConfirm_responses : s.sendTouchlinkConfirm.touchlinkScanResponses =
    s.touchlinkScanResponses := by
  unfold sendTouchlinkConfirm
  split <;> first | rfl | (split <;> first | rfl | (split_ifs <;> rfl))

theorem timerFired_responses :
    (s.touchlinkTimerFired ctrl).touchlinkScanResponses = s.touchlinkScanResponses := by
  unfold touchlinkTimerFired
  split
  · unfold touchlinkScanTimeout
    split
    · rfl
    · rfl
    · split_ifs
      · exact startMode_responses _ ctrl _
      · rfl
  · unfold touchlinkReconnectNetwork
    dsimp only
    split_ifs <;> rfl
  · unfold checkTouchlinkNetworkDisconnected
    dsimp only
    split_ifs
    · rfl
    · rfl
    · exact startMode_responses _ ctrl _
  · exact sendInterpan_responses _ ctrl _ _
  all_goals rfl

end Kept

theorem step_responses (s : Machine) (e : Event) :
    (∃ rand, e = .touchlinkScan rand ∧ s.touchlinkState = .idle ∧
      (s.step e).touchlinkScanResponses = []) ∨
    (∃ ctrl data, e = .interpanIndication ctrl data ∧ s.Scanning) ∨
    ((s.step e).touchlinkScanResponses = s.touchlinkScanResponses ∧
      ∀ senders, s.sendersBehind senders e = senders) := by
  cases e with
  | touchlinkScan rand =>
    by_cases hidle : s.touchlinkState = .idle
    · refine .inl ⟨rand, rfl, hidle, ?_⟩
      rw [step, touchlinkScan, if_neg (not_not.mpr hidle)]
      exact disconnect_responses _
    · refine .inr (.inr ⟨?_, fun senders => if_neg hidle⟩)
      rw [step, touchlinkScan, if_pos hidle]
  | interpanIndication ctrl data =>
    by_cases hscan : s.Scanning
    · exact .inr (.inl ⟨ctrl, data, rfl, hscan⟩)
    · refine .inr (.inr ⟨?_, fun senders => if_neg fun h => hscan h.1⟩)
      rw [step, interpanDataIndication]
      split
      · rfl
      · rename_i hidle
        dsimp only
        split
        · rfl
        · split
          · rename_i haction
            exact absurd ⟨hidle, haction⟩ hscan
          all_goals
            split
            · exact sendInterpan_responses _ ctrl _ _
            · rfl
  | identifyLight id rand => exact .inr (.inr ⟨actOnLight_responses s _ id rand, fun _ => rfl⟩)
  | resetLight id rand => exact .inr (.inr ⟨actOnLight_responses s _ id rand, fun _ => rfl⟩)
  | startInterpanModeConfirm ctrl success =>
    refine .inr (.inr ⟨?_, fun _ => rfl⟩)
    rw [step, startTouchlinkModeConfirm]
    split_ifs
    · rfl
    · rfl
    · exact sendInterpan_responses _ ctrl _ _
  | sendInterpanConfirm success => exact .inr (.inr ⟨sendConfirm_responses s, fun _ => rfl⟩)
  | timeout ctrl =>
    refine .inr (.inr ⟨?_, fun _ => rfl⟩)
    rw [step]
    split_ifs
    · exact timerFired_responses _ ctrl
    · rfl
  | network state => exact .inr (.inr ⟨rfl, fun _ => rfl⟩)
  | networkStateChangeRequest connect => exact .inr (.inr ⟨rfl, fun _ => rfl⟩)

theorem map_modify_eq {β : Type} (g : ScanResponse → β) (f : ScanResponse → ScanResponse)
    (h : ∀ r, g (f r) = g r) (responses : List ScanResponse) (i : Nat) :
    (responses.modify i f).map g = responses.map g := by
  apply ext_getElem?
  intro j
  rw [List.getElem?_map, List.getElem?_modify, List.getElem?_map, Option.map_eq_map, Option.map_map]
  split_ifs
  · exact congrArg (Option.map · _) (funext h)
  · rfl

theorem Lists.update {responses : List ScanResponse} {senders : List UInt64} {sender : UInt64}
    (h : Lists responses senders) (hknown : sender ∈ responses.map (·.address))
    (f : ScanResponse → ScanResponse) (haddress : ∀ r, (f r).address = r.address)
    (hid : ∀ r, (f r).id = r.id) (i : Nat) :
    Lists (responses.modify i f) (senders ++ [sender]) := by
  refine ⟨?_, ?_, fun address => ?_⟩
  · rw [map_modify_eq _ f haddress]
    exact h.nodup
  · rw [map_modify_eq _ f hid, length_modify]
    exact h.ids
  · rw [map_modify_eq _ f haddress, h.mem, mem_append, mem_singleton]
    refine ⟨Or.inl, fun hmem => hmem.elim id ?_⟩
    rintro rfl
    exact (h.mem _).mp hknown

theorem Lists.add {responses : List ScanResponse} {senders : List UInt64}
    (h : Lists responses senders) (r : ScanResponse)
    (hid : r.id = toString (responses.length + 1)) (hnew : r.address ∉ responses.map (·.address)) :
    Lists (responses ++ [r]) (senders ++ [r.address]) := by
  refine ⟨?_, ?_, fun address => ?_⟩
  · rw [map_append, nodup_append]
    refine ⟨h.nodup, pairwise_singleton _ _, fun a ha b hb hab => ?_⟩
    rw [map_singleton, mem_singleton] at hb
    exact hnew (hb ▸ hab ▸ ha)
  · rw [map_append, h.ids, List.length_append, length_singleton, range_succ, map_append,
      map_singleton, map_singleton, hid]
  · rw [map_append, mem_append, h.mem, mem_append, map_singleton]

theorem lists_frame {s : Machine} {senders : List UInt64} (ctrl : Controller) {data : List UInt8}
    (hscan : s.Scanning) (h : Lists s.touchlinkScanResponses senders)
    (hlong : LongEnough (s, senders) (.interpanIndication ctrl data)) :
    Lists (s.interpanDataIndication ctrl data).touchlinkScanResponses
      (s.sendersBehind senders (.interpanIndication ctrl data)) := by
  rw [interpanDataIndication, if_neg hscan.1]
  dsimp only
  by_cases hrsp : (InterpanFrame.read data).isScanResponse = true
  · have hten := hlong hscan hrsp
    have hsenders : s.sendersBehind senders (.interpanIndication ctrl data) = senders ++
        [(InterpanFrame.read data).srcAddress] :=
      if_pos ⟨hscan, hrsp, hten⟩
    rw [hsenders, hrsp, if_neg (by decide), hscan.2]
    generalize InterpanFrame.read data = frame at hten ⊢
    dsimp only
    rw [if_pos (by omega)]
    split_ifs with hknown
    · rw [findIdx_lt_length] at hknown
      obtain ⟨r, hr, haddress⟩ := hknown
      exact h.update (mem_map.mpr ⟨r, hr, of_decide_eq_true haddress⟩)
        (fun r => { r with transactionId := s.transactionId }) (fun _ => rfl) (fun _ => rfl) _
    · refine h.add _ rfl fun hmem => ?_
      obtain ⟨r, hr, haddress⟩ := mem_map.mp hmem
      exact hknown (findIdx_lt_length.mpr ⟨r, hr, decide_eq_true haddress⟩)
  · have hsenders : s.sendersBehind senders (.interpanIndication ctrl data) = senders :=
      if_neg fun hboth => hrsp hboth.2.1
    rw [hsenders, if_pos (by simpa using hrsp)]
    exact h

theorem lists_step {s : Machine × List UInt64} {e : Event} (hlong : LongEnough s e)
    (h : Lists s.1.touchlinkScanResponses s.2) :
    Lists (watch s e).1.touchlinkScanResponses (watch s e).2 := by
  rcases step_responses s.1 e with ⟨rand, rfl, hidle, hempty⟩ | ⟨ctrl, data, rfl, hscan⟩ | hsame
  · simp only [watch, hempty, sendersBehind, if_pos hidle]
    exact ⟨nodup_nil, rfl, fun _ => Iff.rfl⟩
  · exact lists_frame ctrl hscan h hlong
  · rw [watch, hsame.1, hsame.2]
    exact h

def scanning : Machine where
  apsCtrl := some .notInNetwork
  touchlinkState := .waitScanResponses
  touchlinkAction := .scan
  touchlinkDevice :=
    { id := "", address := 0, factoryNew := false, channel := 0, panid := 0, transactionId := 0
      rssi := 0 }

def shortFrame : List UInt8 :=
  [0x62, 0x1A, 0x07, 0, 0, 0, 0xFF, 0x2E, 0x21, 0x00, 0xFF, 0xFF, 0x03, 0, 0, 0, 0, 0, 0, 0, 0,
    0x5E, 0xC0, 0x00, 0x10, 9, 0x09, 0x2A, 0x01, 1, 0, 0, 0, 0x02, 0x33, 0xFF, 0xC4]

end Machine
end Touchlink
end DeconzRest

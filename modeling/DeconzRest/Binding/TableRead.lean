import DeconzRest.Binding.Graph
import Mathlib.Data.List.Perm.Subperm
import Mathlib.Data.List.Nodup

/-!
# Reading the binding table

The table is read in parts: a response tells the size of the table, the index of its first
entry and the number of its entries, and the next request starts behind them.  What the octets
say is not compared with what was asked, so a part without entries is asked for again and
again.  Where each part ends behind the start that was asked for (`Advances`), the start
indices increase and there are at most 255 requests (`table_requests_increase`).
-/

namespace DeconzRest
namespace BindingContext

open Transition List

/-- The start indices that were requested since the table is read from its start. -/
def noteRequest (requests : List Nat) : BindingOutput → List Nat
  | .startTable => []
  | .mgmtBindReq startIndex => requests ++ [startIndex]
  | _ => requests

/-- The start indices of the requests in the present stay in `DEV_BindingTableReadHandler`. -/
def tableRequests (log : List BindingOutput) : List Nat := log.foldl noteRequest []

/-- The data is a successful response to the request that was sent last. -/
def Succeeds (c : BindingContext) (data : List UInt8) : Prop :=
  (2 ≤ data.length ∧ data.length < 128) ∧ data.getD 0 0 = c.zdpResult.zdpSeq ∧ data.getD 1 0 =
    zdpSuccess

instance (c : BindingContext) (data : List UInt8) : Decidable (c.Succeeds data) :=
  inferInstanceAs (Decidable (_ ∧ _))

/-- A successful response that leaves something of the table to be read ends behind the start
index. -/
def Advances (c : BindingContext) : BindingAction → Prop
  | .event (.zdpMgmtBindResponse data) _ =>
    c.state = some .tableRead → c.enters = 0 → c.stateEnterLock = false → c.Succeeds data →
      (mgmtBindOctets data).2.1 + (mgmtBindOctets data).2.2 < (mgmtBindOctets data).1 →
      c.mgmtBindStartIndex < (mgmtBindOctets data).2.1 + (mgmtBindOctets data).2.2
  | _ => True

instance (c : BindingContext) : (a : BindingAction) → Decidable (c.Advances a)
  | .event (.zdpMgmtBindResponse _) _ => inferInstanceAs (Decidable (_ → _))
  | .event .poll _ | .event .bindingTick _ | .event (.bindingTable _) _
  | .event (.apsConfirm _ _) _ | .event (.zdpResponse _ _) _
  | .event (.zclReadReportConfigResponse _) _ | .event (.zclResponse _ _) _
  | .stateEnter _ | .timeout | .idleEnter | .idleLeave | .ddfReload | .clearBindings
  | .addBinding _ | .setSupportsMgmtBind _ => inferInstanceAs (Decidable True)

/-- The start indices increase, and the next one is behind them. -/
structure Increasing (c : BindingContext) : Prop where
  sorted : (tableRequests c.log).Pairwise (· < ·)
  bound : ∀ i ∈ tableRequests c.log, i ≤ 254
  next : c.state = some .tableRead → c.stateEnterLock = false → c.mgmtBindStartIndex ≤ 254 ∧ ∀ i ∈
    tableRequests c.log, i ≤ c.mgmtBindStartIndex ∧ (c.tick = true → i < c.mgmtBindStartIndex)

variable {c c' : BindingContext}

theorem Increasing.off (h : Increasing c) (hlog : tableRequests c'.log = tableRequests c.log)
    (hoff : c'.state ≠ some .tableRead ∨ c'.stateEnterLock = true) : Increasing c' where
  sorted := by rw [hlog]; exact h.sorted
  bound := by rw [hlog]; exact h.bound
  next := by
    intro hstate hlock
    rcases hoff with hother | hlocked
    · exact absurd hstate hother
    · rw [hlock] at hlocked
      cases hlocked

variable {s : BindingState}

theorem Increasing.setState (h : Increasing c) (hlog : c'.log = c.log) (hs : s ≠ .tableRead) :
    Increasing (c'.setState s) := by
  refine h.off (by rw [(same_setState c' s).log, hlog]) (.inl ?_)
  rw [setState_state]
  exact fun hsame => hs (Option.some.inj hsame)

theorem tableRequests_of_logs (hs : s ≠ .tableRead) (h : Logs s c c') :
    tableRequests c'.log = tableRequests c.log := by
  obtain ⟨out, hout, hemits⟩ := h
  have hquiet : ∀ o, emits s o = true → ∀ requests, noteRequest requests o = requests := by
    intro o ho requests
    cases o with
    | startTable | mgmtBindReq =>
      cases s with
      | tableRead => exact absurd rfl hs
      | binding | tableVerify | create | remove | readReport | readNextReport
      | configureNextReport | configureReporting | idle => cases ho
    | bindReq | unbindReq | startReports | readReportConfiguration | accepted
    | configureReporting | acknowledged | nextBinding => rfl
  unfold tableRequests
  rw [hout, foldl_append]
  -- each of the outputs leaves the requests as they are
  generalize c.log.foldl noteRequest [] = requests
  clear hout
  induction out with
  | nil => rfl
  | cons o out ih =>
    rw [foldl_cons, hquiet o (hemits o mem_cons_self)]
    exact ih fun o' ho' => hemits o' (mem_cons_of_mem o ho')

theorem Increasing.does (hs : s ≠ .tableRead) (hstate : c.state = some s) (h : Increasing c)
    (hdoes : Does s c c') : Increasing c' := by
  rcases hdoes with hstays | hmoves
  · refine h.off (tableRequests_of_logs hs hstays.logs) (.inl ?_)
    rw [hstays.state, hstate]
    exact fun hsame => hs (Option.some.inj hsame)
  · exact h.off (tableRequests_of_logs hs hmoves.logs) (.inr hmoves.stateEnterLock)

/-! ## One action -/

theorem tableRequests_concat (log : List BindingOutput) (o : BindingOutput) :
    tableRequests (log ++ [o]) = noteRequest (tableRequests log) o := by
  unfold tableRequests
  rw [foldl_append]
  rfl

theorem increasing_request {c : BindingContext} (h : Increasing c)
    (hstate : c.state = some .tableRead) (hlock : c.stateEnterLock = false) (htick : c.tick = true)
    (w : World) : Increasing ({ c with tick := false }.tableReadHandler .bindingTick w) := by
  obtain ⟨hstart, hnext⟩ := h.next hstate hlock
  have hrequests : tableRequests (c.log ++ [.mgmtBindReq c.mgmtBindStartIndex]) =
      tableRequests c.log ++ [c.mgmtBindStartIndex] := tableRequests_concat _ _
  have hsent : Increasing ({ c with tick := false, zdpResult := w.zdpResult }.output
      (.mgmtBindReq c.mgmtBindStartIndex)) := by
    refine ⟨?_, ?_, ?_⟩
    · show (tableRequests (c.log ++ [.mgmtBindReq c.mgmtBindStartIndex])).Pairwise (· < ·)
      rw [hrequests, pairwise_append]
      refine ⟨h.sorted, pairwise_singleton _ _, ?_⟩
      intro i hi j hj
      rw [mem_singleton.mp hj]
      exact (hnext i hi).2 htick
    · show ∀ i ∈ tableRequests (c.log ++ [.mgmtBindReq c.mgmtBindStartIndex]), i ≤ 254
      rw [hrequests]
      intro i hi
      rcases mem_append.mp hi with hi | hi
      · exact h.bound i hi
      · rw [mem_singleton.mp hi]
        exact hstart
    · intro _ _
      refine ⟨hstart, ?_⟩
      show ∀ i ∈ tableRequests (c.log ++ [.mgmtBindReq c.mgmtBindStartIndex]), _
      rw [hrequests]
      intro i hi
      refine ⟨?_, fun hpending => absurd hpending Bool.false_ne_true⟩
      rcases mem_append.mp hi with hi | hi
      · exact (hnext i hi).1
      · rw [mem_singleton.mp hi]
        exact Nat.le_refl _
  unfold tableReadHandler awaitConfirm
  simp only
  split
  · exact ⟨hsent.sorted, hsent.bound, hsent.next⟩
  · exact hsent.setState rfl (by decide)

theorem increasing_response {c : BindingContext} (h : Increasing c)
    (hstate : c.state = some .tableRead) (hlock : c.stateEnterLock = false)
    {data : List UInt8}
    (hadvances : c.Succeeds data → (mgmtBindOctets data).2.1 + (mgmtBindOctets data).2.2 <
      (mgmtBindOctets data).1 →
      c.mgmtBindStartIndex < (mgmtBindOctets data).2.1 + (mgmtBindOctets data).2.2) :
    Increasing (c.mgmtBindResponse data) := by
  obtain ⟨hstart, hnext⟩ := h.next hstate hlock
  -- the size is an octet, so what is left of the table starts at 254 at most
  have hsize : (mgmtBindOctets data).1 ≤ 255 := by
    unfold mgmtBindOctets
    split
    · have hoctet := (data.getD 2 0).toNat_lt
      simp only
      omega
    · exact Nat.zero_le _
  have hbinding : ∀ c' : BindingContext, c'.log = c.log → Increasing (c'.setState .binding) :=
    fun c' hlog => h.setState hlog (by decide)
  have hverify : ∀ c' : BindingContext, c'.log = c.log → Increasing (c'.setState .tableVerify) :=
    fun c' hlog => h.setState hlog (by decide)
  unfold mgmtBindResponse
  split
  · exact h
  · rename_i hlength
    split
    · exact h
    · rename_i hseq
      split
      · rename_i hstatus
        have hbehind := hadvances ⟨not_not.mp hlength, not_not.mp hseq, hstatus⟩
        generalize mgmtBindOctets data = octets at hsize hbehind ⊢
        obtain ⟨size, index, count⟩ := octets
        simp only at hsize hbehind ⊢
        split
        · rename_i hmore
          have hlt := hbehind hmore
          -- the 8 bits of the start index cut nothing off
          have hmod : (index + count) % 256 = index + count := Nat.mod_eq_of_lt (by omega)
          refine ⟨h.sorted, h.bound, fun _ _ => ⟨?_, fun i hi => ?_⟩⟩
          · show (index + count) % 256 ≤ 254
            omega
          · have hle := (hnext i hi).1
            show i ≤ (index + count) % 256 ∧ (_ → i < (index + count) % 256)
            rw [hmod]
            exact ⟨by omega, fun _ => by omega⟩
        · exact hverify _ rfl
      · split
        · exact hbinding _ rfl
        · exact hbinding _ rfl

theorem increasing_apsConfirm {c : BindingContext} (h : Increasing c)
    (apsReqId id status : UInt8) : Increasing (c.apsConfirm apsReqId id status) := by
  unfold apsConfirm
  split
  · split
    · exact ⟨h.sorted, h.bound, h.next⟩
    · exact h.setState rfl (by decide)
  · exact h

theorem increasing_enter (h : Increasing c) (hlog : c'.log = c.log) (w : World) :
    Increasing (c'.enter w) := by
  cases hstate : c'.state with
  | none =>
    unfold enter
    rw [hstate]
    refine h.off (by rw [hlog]) (.inl ?_)
    rw [hstate]
    exact fun hsome => by cases hsome
  | some s =>
    by_cases hs : s = .tableRead
    · rw [hs] at hstate
      -- the output `startTable` forgets the requests
      have hnone : tableRequests (c'.log ++ [.startTable]) = [] := tableRequests_concat _ _
      unfold enter
      rw [hstate]
      refine ⟨?_, ?_, fun _ _ => ⟨Nat.zero_le _, ?_⟩⟩
      · show (tableRequests (c'.log ++ [.startTable])).Pairwise (· < ·)
        rw [hnone]
        exact List.Pairwise.nil
      · show ∀ i ∈ tableRequests (c'.log ++ [.startTable]), _
        rw [hnone]
        exact fun i hi => absurd hi not_mem_nil
      · show ∀ i ∈ tableRequests (c'.log ++ [.startTable]), _
        rw [hnone]
        exact fun i hi => absurd hi not_mem_nil
    · have hother : c'.state ≠ some .tableRead := by
        rw [hstate]
        exact fun hsame => hs (Option.some.inj hsame)
      have h' : Increasing c' := h.off (by rw [hlog]) (.inl hother)
      exact h'.does hs hstate (does_enter hstate w)

theorem Increasing.dequeued {e : BindingEvent} (h : Increasing c) (hdequeued : Dequeued c e c') :
    Increasing c' := by
  rw [hdequeued.eq]
  refine ⟨h.sorted, h.bound, fun hstate hlock => ?_⟩
  obtain ⟨hstart, hnext⟩ := h.next hstate hlock
  refine ⟨hstart, fun i hi => ⟨(hnext i hi).1, fun hpending => (hnext i hi).2 ?_⟩⟩
  simp only [Bool.and_eq_true] at hpending
  exact hpending.1

theorem increasing_handleEvent {c : BindingContext} (h : Increasing c) (e : BindingEvent)
    (w : World) (hadvances : c.Advances (.event e w)) : Increasing (c.handleEvent e w) := by
  have hdelivered := handleEvent_delivered c e w
  generalize c.handleEvent e w = c'' at hdelivered
  cases hdelivered with
  | waits => exact h
  | skipped hdequeued => exact h.dequeued hdequeued
  | @handled c' hdequeued henters hlock =>
    have h' := h.dequeued hdequeued
    cases hstate : c'.state with
    | none =>
      unfold handle
      rw [hstate]
      exact h'
    | some s =>
      by_cases hs : s = .tableRead
      · rw [hs] at hstate
        have hread : c'.handle e w = c'.tableReadHandler e w := by
          unfold handle
          rw [hstate]
        rw [hread]
        have heq := hdequeued.eq
        cases e with
        | bindingTick =>
          have htick := hdequeued.waits rfl
          simp only [ne_eq, not_true_eq_false, decide_false, Bool.and_false] at heq
          subst heq
          exact increasing_request h hstate hlock htick w
        | zdpMgmtBindResponse data =>
          -- only a tick is taken from the queue
          have hsame : c' = c := by
            rw [heq]
            simp
          subst hsame
          apply increasing_response h' hstate hlock
          exact hadvances hstate henters hlock
        | apsConfirm id status => exact increasing_apsConfirm h' _ _ _
        | poll | bindingTable | zdpResponse | zclReadReportConfigResponse | zclResponse =>
          exact h'
      · exact h'.does hs hstate (does_handle hstate e w)

/-- **The step lemma.** -/
theorem increasing_step {c : BindingContext} {a : BindingAction} (hadvances : c.Advances a)
    (h : Increasing c) : Increasing (c.step a) := by
  -- the other actions leave the reading state or the requests alone
  have hclear : ∀ c' : BindingContext, c'.log = c.log → c'.state = none → Increasing c' := by
    intro c' hlog hstate
    refine h.off (by rw [hlog]) (.inl ?_)
    rw [hstate]
    exact fun hsome => by cases hsome
  have hbinding : ∀ c' : BindingContext, c'.log = c.log → Increasing (c'.setState .binding) :=
    fun c' hlog => h.setState hlog (by decide)
  have hleave : c.leave.log = c.log := (same_leave c).log
  cases a with
  | stateEnter w =>
    unfold step stateEnter
    simp only
    split
    · exact h
    · apply increasing_enter h
      rfl
  | event e w => exact increasing_handleEvent h e w hadvances
  | timeout =>
    unfold step
    simp only
    split
    · unfold stateTimeout
      split
      · exact ⟨h.sorted, h.bound, h.next⟩
      · split
        · exact hbinding _ rfl
        · exact ⟨h.sorted, h.bound, h.next⟩
    · exact h
  | idleEnter => exact hbinding _ rfl
  | idleLeave => exact hclear _ hleave rfl
  | ddfReload => exact hclear _ hleave rfl
  | clearBindings =>
    unfold step clearBindings
    simp only
    split
    · exact ⟨h.sorted, h.bound, h.next⟩
    · exact hbinding _ rfl
  | addBinding bnd =>
    unfold step addBinding
    simp only
    split
    · exact ⟨h.sorted, h.bound, h.next⟩
    · exact ⟨h.sorted, h.bound, h.next⟩
  | setSupportsMgmtBind supported => exact ⟨h.sorted, h.bound, h.next⟩

theorem length_le_of_increasing {requests : List Nat} (h : requests.Pairwise (· < ·))
    (hbound : ∀ i ∈ requests, i ≤ 254) : requests.length ≤ 255 := by
  have hnodup : requests.Nodup := h.imp fun hlt => Nat.ne_of_lt hlt
  have hsub : requests ⊆ List.range 255 := by
    intro i hi
    have hle := hbound i hi
    exact mem_range.mpr (by omega)
  have hlength := (hnodup.subperm hsub).length_le
  rwa [length_range] at hlength

/-- **Reading the table makes progress** in every run in which the responses advance. -/
theorem table_requests_increase (deviceKey : Nat) {acts : List BindingAction}
    (hall : Transition.AllSteps step Advances { deviceKey := deviceKey } acts) :
    (tableRequests (run step { deviceKey := deviceKey } acts).log).Pairwise (· < ·) ∧
      (tableRequests (run step { deviceKey := deviceKey } acts).log).length ≤ 255 := by
  have hinit : Increasing { deviceKey := deviceKey } :=
    ⟨List.Pairwise.nil, fun i hi => absurd hi not_mem_nil, fun hstate => by cases hstate⟩
  have hrun : Increasing (run step { deviceKey := deviceKey } acts) :=
    run_invariant_of (P := Increasing)
      (fun _ _ hadvances h => increasing_step hadvances h) hinit hall
  exact ⟨hrun.sorted, length_le_of_increasing hrun.sorted hrun.bound⟩

/-- Requests are enqueued, with one sequence number. -/
def enqueues : World := { now := 1000, zdpResult := { isEnqueued := true, zdpSeq := 1 } }

def startReading : List BindingAction :=
  [.idleEnter, .stateEnter enqueues,
    .addBinding { clusterId := 6, srcEndpoint := 1, isUnicastBinding := true },
    .event .poll enqueues, .stateEnter enqueues, .event .bindingTick enqueues]

def emptyPart : List BindingAction :=
  startReading ++ [.event (.zdpMgmtBindResponse [1, 0, 5, 0, 0]) enqueues,
    .event .bindingTick enqueues]

/-- The same start index is requested twice. -/
theorem emptyPart_repeats : ¬ (tableRequests (run step {} emptyPart).log).Pairwise (· < ·) := by
  decide +kernel

def twoParts : List BindingAction :=
  startReading ++ [.event (.zdpMgmtBindResponse [1, 0, 5, 0, 3]) enqueues,
    .event .bindingTick enqueues, .event (.zdpMgmtBindResponse [1, 0, 5, 3, 2]) enqueues]

theorem table_requests_increase_twoParts :
    tableRequests (run step {} twoParts).log = [0, 3] ∧
      (tableRequests (run step {} twoParts).log).Pairwise (· < ·) := by
  have hall : Transition.AllSteps step Advances {} twoParts := by
    unfold Transition.AllSteps
    decide +kernel
  exact ⟨by decide +kernel, (table_requests_increase 0 hall).1⟩

end BindingContext
end DeconzRest

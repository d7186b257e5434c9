import DeconzRest.Binding.Graph
import DeconzRest.Binding.Indices

/-!
# The reports that are covered

Two indices run over the reports of a binding: `reportIter` over what was read, `configIter`
over what was configured.  `Phase` says, for each state of a check, which reports up to
`reportIter` are covered by an accepted response or an acknowledged command and where the
others are: in the request that is on its way, or from `configIter` on with the manufacturer
code of the batch.  So when the binding is left, all its reports are covered
(`covers_processNextBinding`).
-/

namespace DeconzRest

/-- What is known of the reports of the binding that is checked. -/
structure Coverage where
  /-- The reports of the last read request. -/
  asked : List ZclReport := []
  /-- The reports of the last configure request. -/
  sent : List ZclReport := []
  /-- The reports of accepted responses and acknowledged requests. -/
  covered : List ZclReport := []

namespace Coverage

def note (v : Coverage) : BindingOutput → Coverage
  | .startReports => {}
  | .readReportConfiguration reports => { v with asked := reports }
  | .accepted => { v with covered := v.covered ++ v.asked }
  | .configureReporting reports => { v with sent := reports }
  | .acknowledged => { v with covered := v.covered ++ v.sent }
  | _ => v

end Coverage

def coverage (log : List BindingOutput) : Coverage := log.foldl Coverage.note {}

theorem coverage_concat (log : List BindingOutput) (o : BindingOutput) :
    coverage (log ++ [o]) = (coverage log).note o := by
  unfold coverage
  rw [List.foldl_append]
  rfl

namespace BindingContext

/-! ## The phases of a check -/

def reporting (c : BindingContext) : List ZclReport :=
  match c.bindings[c.bindingIter]? with
  | none => []
  | some b => b.reporting

variable {c : BindingContext}

theorem reporting_of_getElem? {b : DdfBinding} (h : c.bindings[c.bindingIter]? = some b) :
    c.reporting = b.reporting := by
  unfold reporting
  rw [h]

/-- In the first round, every report up to `reportIter` is covered. -/
def CoveredUpTo (c : BindingContext) : Prop :=
  c.bindingCheckRound = 0 → ∀ i r, c.reporting[i]? = some r → i < c.reportIter → r ∈
    (coverage c.log).covered

/-- In the first round, every report up to `reportIter` is one of these, or is still to be
configured. -/
def LeftToConfigure (c : BindingContext) (reports : List ZclReport) : Prop :=
  c.bindingCheckRound = 0 → ∀ i r, c.reporting[i]? = some r → i < c.reportIter → r ∈ reports ∨
    (c.configIter ≤ i ∧ r.manufacturerCode = c.readReportParam.manufacturerCode)

/-- In the first round, every report up to `reportIter` is covered, or is asked for and still
to be configured if the answer is not accepted. -/
def AskedUpTo (c : BindingContext) : Prop :=
  c.bindingCheckRound = 0 → ∀ i r, c.reporting[i]? = some r → i < c.reportIter → r ∈
    (coverage c.log).covered ∨ (r ∈ (coverage c.log).asked ∧ c.configIter ≤ i ∧ r.manufacturerCode =
      c.readReportParam.manufacturerCode)

/-- There are no reports, and none was asked for. -/
def Unread (c : BindingContext) : Prop := c.reporting = [] ∧ (coverage c.log).asked = []

/-- The order of the indices. -/
structure Bounds (c : BindingContext) : Prop where
  config : c.configIter ≤ c.reportIter
  report : c.reportIter ≤ c.reporting.length

/-- What holds in a state, before its state enter event and after it. -/
def PhaseAt (c : BindingContext) : BindingState → Bool → Prop
  | .readReport, true =>
    Bounds c ∧ (c.reportIter < c.reporting.length ∨ Unread c) ∧ CoveredUpTo c
  | .readReport, false => Bounds c ∧ AskedUpTo c
  | .readNextReport, _ =>
    Bounds c ∧ c.reportIter < c.reporting.length ∧ CoveredUpTo c
  | .configureReporting, true | .configureNextReport, _ =>
    Bounds c ∧ LeftToConfigure c (coverage c.log).covered
  | .configureReporting, false =>
    Bounds c ∧ LeftToConfigure c ((coverage c.log).covered ++ (coverage c.log).sent)
  | _, _ => True

def Phase (c : BindingContext) : Prop :=
  ∀ s, c.state = some s → PhaseAt c s c.stateEnterLock

def Checks : BindingState → Bool
  | .readReport | .readNextReport | .configureNextReport | .configureReporting => true
  | .binding | .tableRead | .tableVerify | .create | .remove | .idle => false

variable {s : BindingState}

theorem phaseAt_free (hs : Checks s = false) (lock : Bool) : PhaseAt c s lock := by
  cases s with
  | readReport | readNextReport | configureNextReport | configureReporting => cases hs
  | binding | tableRead | tableVerify | create | remove | idle => exact trivial

theorem phase_of_free (hstate : c.state = some s) (hs : Checks s = false) : Phase c := by
  intro s' hs'
  rw [hstate, Option.some.injEq] at hs'
  rw [← hs']
  exact phaseAt_free hs _

theorem Same.reporting {c c' : BindingContext} (h : Same c c') : c'.reporting = c.reporting := by
  unfold BindingContext.reporting
  rw [h.bindings, h.bindingIter]

theorem PhaseAt.of_front {c c' : BindingContext} {lock : Bool} (h : PhaseAt c s lock)
    (hstarts : c.reporting <+: c'.reporting) (hround : c'.bindingCheckRound = c.bindingCheckRound)
    (hreport : c'.reportIter = c.reportIter) (hconfig : c'.configIter = c.configIter)
    (hparam : c'.readReportParam = c.readReportParam) (hlog : c'.log = c.log) :
    PhaseAt c' s lock := by
  have hlength := hstarts.length_le
  have hfront : Bounds c → ∀ {i r}, c'.reporting[i]? = some r → i < c'.reportIter →
      c.reporting[i]? = some r ∧ i < c.reportIter := by
    intro hbounds i r hr hi
    rw [hreport] at hi
    have hlt : i < c.reporting.length := Nat.lt_of_lt_of_le hi hbounds.report
    rw [List.prefix_iff_getElem?.mp hstarts i hlt] at hr
    rw [List.getElem?_eq_getElem hlt]
    exact ⟨hr, hi⟩
  have hbounds : Bounds c → Bounds c' := by
    rintro ⟨hle, hend⟩
    refine ⟨?_, ?_⟩
    · rw [hconfig, hreport]
      exact hle
    · rw [hreport]
      exact Nat.le_trans hend hlength
  have hcovered : Bounds c → CoveredUpTo c → CoveredUpTo c' := by
    intro hb hcovered hzero i r hr hi
    rw [hround] at hzero
    obtain ⟨hr, hi⟩ := hfront hb hr hi
    rw [hlog]
    exact hcovered hzero i r hr hi
  have hleft : Bounds c → ∀ reports, LeftToConfigure c reports → LeftToConfigure c' reports := by
    intro hb reports hleft hzero i r hr hi
    rw [hround] at hzero
    obtain ⟨hr, hi⟩ := hfront hb hr hi
    rw [hconfig, hparam]
    exact hleft hzero i r hr hi
  have hmore : c.reportIter < c.reporting.length → c'.reportIter < c'.reporting.length := by
    intro hlt
    rw [hreport]
    exact Nat.lt_of_lt_of_le hlt hlength
  cases s with
  | readReport =>
    cases lock with
    | true =>
      refine ⟨hbounds h.1, ?_, hcovered h.1 h.2.2⟩
      rcases h.2.1 with hlt | ⟨hempty, hunasked⟩
      · exact .inl (hmore hlt)
      · -- the first reports of the binding may be added before it is read
        have hzero := h.1.report
        rw [hempty] at hzero
        have hzero : c.reportIter = 0 := Nat.le_zero.mp hzero
        rcases Nat.eq_zero_or_pos c'.reporting.length with hnone | hsome
        · refine .inr ⟨List.eq_nil_of_length_eq_zero hnone, ?_⟩
          rw [hlog]
          exact hunasked
        · rw [hreport, hzero]
          exact .inl hsome
    | false =>
      refine ⟨hbounds h.1, fun hzero i r hr hi => ?_⟩
      rw [hround] at hzero
      obtain ⟨hr, hi⟩ := hfront h.1 hr hi
      rw [hlog, hconfig, hparam]
      exact h.2 hzero i r hr hi
  | readNextReport => exact ⟨hbounds h.1, hmore h.2.1, hcovered h.1 h.2.2⟩
  | configureNextReport =>
    refine ⟨hbounds h.1, ?_⟩
    rw [hlog]
    exact hleft h.1 _ h.2
  | configureReporting =>
    cases lock with
    | true =>
      refine ⟨hbounds h.1, ?_⟩
      rw [hlog]
      exact hleft h.1 _ h.2
    | false =>
      refine ⟨hbounds h.1, ?_⟩
      rw [hlog]
      exact hleft h.1 _ h.2
  | binding | tableRead | tableVerify | create | remove | idle => exact trivial

theorem Same.phaseAt {c c' : BindingContext} (h : Same c c') {lock : Bool}
    (hphase : PhaseAt c s lock) : PhaseAt c' s lock := by
  apply hphase.of_front
  · simp only [h.reporting, List.prefix_refl]
  · exact h.bindingCheckRound
  · exact h.reportIter
  · exact h.configIter
  · exact h.readReportParam
  · exact h.log

theorem setState_stateEnterLock (h : c.state ≠ some s) : (c.setState s).stateEnterLock = true := by
  unfold setState
  rw [if_neg h]

theorem phase_setState (hne : c.state ≠ some s) (h : PhaseAt c s true) : Phase (c.setState s) := by
  intro s' hs'
  rw [setState_state, Option.some.injEq] at hs'
  rw [setState_stateEnterLock hne, ← hs']
  exact (same_setState c s).phaseAt h

theorem phase_setState_free (c : BindingContext) (hs : Checks s = false) :
    Phase (c.setState s) := phase_of_free (setState_state c s) hs

/-- `DEV_ProcessNextBinding` was called. -/
def Leaves (c c' : BindingContext) : Prop :=
  ∃ out, c'.log = c.log ++ out ∧ .nextBinding ∈ out

/-- The phase holds, and if the binding was left in the first round, its reports are covered. -/
structure Covers (c c' : BindingContext) : Prop where
  phase : Phase c'
  leaves : Leaves c c' → c.bindingCheckRound = 0 → ∀ r ∈ c.reporting, r ∈ (coverage c'.log).covered

theorem not_leaves {c c' : BindingContext} {out : List BindingOutput}
    (hlog : c'.log = c.log ++ out) (hout : .nextBinding ∉ out) : ¬ Leaves c c' := by
  rintro ⟨out', hlog', hmem⟩
  rw [hlog, List.append_cancel_left_eq] at hlog'
  rw [← hlog'] at hmem
  exact hout hmem

theorem covers_of_log {c c' : BindingContext} (hphase : Phase c') (hlog : c'.log = c.log) :
    Covers c c' := by
  have hnot : ¬ Leaves c c' := not_leaves (by rw [hlog, List.append_nil]) List.not_mem_nil
  exact ⟨hphase, fun hleaves => absurd hleaves hnot⟩

theorem covers_of_output {c c' : BindingContext} (o : BindingOutput) (hphase : Phase c')
    (hlog : c'.log = c.log ++ [o]) (ho : o ≠ .nextBinding) : Covers c c' := by
  have hnot : ¬ Leaves c c' :=
    not_leaves hlog fun hmem => ho (List.mem_singleton.mp hmem).symm
  exact ⟨hphase, fun hleaves => absurd hleaves hnot⟩

theorem covers_processNextBinding {c c' : BindingContext}
    (hcovered : c.bindingCheckRound = 0 → ∀ r ∈ c.reporting, r ∈ (coverage c'.log).covered) :
    Covers c c'.processNextBinding := by
  refine ⟨phase_setState_free _ rfl, fun _ hround r hr => ?_⟩
  have hlog : c'.processNextBinding.log = c'.log ++ [.nextBinding] := by
    unfold processNextBinding
    exact (same_setState _ _).log
  rw [hlog, coverage_concat]
  exact hcovered hround r hr

theorem CoveredUpTo.all (h : CoveredUpTo c) (hend : c.reporting.length ≤ c.reportIter)
    (hround : c.bindingCheckRound = 0) :
    ∀ r ∈ c.reporting, r ∈ (coverage c.log).covered := by
  intro r hr
  obtain ⟨i, hi, rfl⟩ := List.getElem_of_mem hr
  exact h hround i _ (List.getElem?_eq_getElem hi) (by omega)

theorem covers_readOn {c c' : BindingContext} {bnd : DdfBinding} {o : BindingOutput}
    (hstate : c'.state = some s) (hs : s ≠ .readNextReport) (hlog : c'.log = c.log ++ [o])
    (ho : o ≠ .nextBinding) (hround : c'.bindingCheckRound = c.bindingCheckRound)
    (hreporting : c.reporting = bnd.reporting) (hreporting' : c'.reporting = bnd.reporting)
    (hbounds : Bounds c') (hcovered : CoveredUpTo c') :
    Covers c (if c'.reportIter < bnd.reporting.length then c'.setState .readNextReport
      else c'.processNextBinding) := by
  split
  · rename_i hmore
    apply covers_of_output o
    · apply phase_setState
      · rw [hstate]
        exact fun hsame => hs (Option.some.inj hsame)
      · rw [← hreporting'] at hmore
        exact ⟨hbounds, hmore, hcovered⟩
    · rw [(same_setState _ _).log, hlog]
    · exact ho
  · rename_i hend
    apply covers_processNextBinding
    intro hfirst r hr
    rw [← hround] at hfirst
    rw [hreporting, ← hreporting'] at hr
    rw [← hreporting'] at hend
    exact hcovered.all (Nat.le_of_not_lt hend) hfirst r hr

end BindingContext
end DeconzRest

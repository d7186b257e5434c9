import DeconzRest.Binding.Coverage

/-!
# No report is skipped

What every handler keeps of the phase of its state (`covers_handle`, `covers_enter`), and from it
what every action keeps (`covers_step`): when a binding is left in the first round, all its
reports are covered, and every read of reports goes on behind the one before
(`reports_covered`).
-/

namespace DeconzRest
namespace BindingContext

open Transition List

/-! ## The handlers of a check -/

variable {c : BindingContext} {s : BindingState}

theorem exists_binding (h : Valid c) (hstate : c.state = some s) (hs : Indexed s = true) :
    ∃ b, c.bindings[c.bindingIter]? = some b ∧ c.reporting = b.reporting := by
  obtain ⟨hb, -⟩ := getElem?_of_lt h.toSound (h.index s hstate hs)
  exact ⟨_, hb, reporting_of_getElem? hb⟩

theorem phase_awaitConfirm (hstate : c.state = some s) (hphase : PhaseAt c s c.stateEnterLock)
    (isEnqueued : Bool) :
    Phase (c.awaitConfirm isEnqueued) := by
  unfold awaitConfirm
  split
  · intro s' hs'
    have hsame : some s = some s' := hstate.symm.trans hs'
    cases hsame
    apply Same.phaseAt (c := c)
    · exact ⟨rfl, rfl, rfl, rfl, rfl, rfl, rfl, rfl, rfl, rfl, rfl⟩
    · exact hphase
  · exact phase_setState_free c rfl

theorem awaitConfirm_log (c : BindingContext) (isEnqueued : Bool) :
    (c.awaitConfirm isEnqueued).log = c.log := by
  unfold awaitConfirm
  split
  · rfl
  · exact (same_setState c .binding).log

theorem covers_apsConfirm (h : Phase c) (apsReqId id status : UInt8) :
    Covers c (c.apsConfirm apsReqId id status) := by
  unfold apsConfirm
  split
  · split
    · apply covers_of_log
      · intro s hs
        apply Same.phaseAt (c := c)
        · exact ⟨rfl, rfl, rfl, rfl, rfl, rfl, rfl, rfl, rfl, rfl, rfl⟩
        · exact h s hs
      · rfl
    · exact covers_of_log (phase_setState_free c rfl) (same_setState c .binding).log
  · exact covers_of_log h rfl

theorem covers_readReportEnter (hvalid : Valid c) (hstate : c.state = some .readReport)
    (hlock : c.stateEnterLock = false) (h : PhaseAt c .readReport true) (w : World) :
    Covers c (c.readReportEnter w) := by
  obtain ⟨hbounds, hmore, hcovered⟩ := h
  obtain ⟨bnd, hb, hreporting⟩ := exists_binding hvalid hstate rfl
  have hconfig := hbounds.config
  unfold readReportEnter
  rw [hb]
  simp only
  split
  · rename_i hempty
    apply covers_processNextBinding
    intro _ r hr
    rw [hreporting, hempty] at hr
    cases hr
  · rename_i hsome
    have hlt : c.reportIter < bnd.reporting.length := by
      rw [← hreporting] at hsome ⊢
      rcases hmore with hlt | hunread
      · exact hlt
      · exact absurd hunread.1 hsome
    have hreads := readBatch_readsOn c.bindingCheckRound w.now bnd.clusterId bnd.srcEndpoint hlt
      c.reportTrackers
    generalize readBatch c.bindingCheckRound w.now bnd.clusterId bnd.srcEndpoint
      (bnd.reporting.drop c.reportIter)
      { reportIter := c.reportIter, reportTrackers := c.reportTrackers } = batch at hreads ⊢
    obtain ⟨hfurther, hend, hcode, hasked⟩ := hreads
    split
    · rename_i hnone
      apply covers_processNextBinding
      -- in the first round something is asked for
      intro hround
      have hfirst := hasked hround c.reportIter _ (List.getElem?_eq_getElem hlt) (Nat.le_refl _)
        hfurther
      rw [hnone] at hfirst
      cases hfirst
    · apply covers_of_output (.readReportConfiguration batch.asked)
      · apply phase_awaitConfirm (s := .readReport)
        · exact hstate
        show PhaseAt _ .readReport c.stateEnterLock
        rw [hlock]
        refine ⟨⟨?_, ?_⟩, ?_⟩
        · show c.configIter ≤ batch.reportIter
          omega
        · show batch.reportIter ≤ c.reporting.length
          rw [hreporting]
          exact hend
        · -- reports before `reportIter` are covered already, the others are asked for now
          intro hround i r hr hi
          have hr : c.reporting[i]? = some r := hr
          show r ∈ (coverage (c.log ++ [.readReportConfiguration batch.asked])).covered ∨
            (r ∈ (coverage (c.log ++ [.readReportConfiguration batch.asked])).asked ∧ c.configIter ≤
              i ∧ r.manufacturerCode = batch.manufacturerCode)
          rw [coverage_concat]
          by_cases hold : i < c.reportIter
          · exact .inl (hcovered hround i r hr hold)
          · have hle : c.reportIter ≤ i := Nat.le_of_not_lt hold
            rw [hreporting] at hr
            have hmem := hasked hround i r hr hle hi
            exact .inr ⟨hmem, Nat.le_trans hconfig hle, hcode r hmem⟩
      · rw [awaitConfirm_log]
        rfl
      · exact fun h => by cases h

theorem covers_readReportHandler (hvalid : Valid c) (hstate : c.state = some .readReport)
    (hlock : c.stateEnterLock = false) (h : Phase c) (e : BindingEvent) (w : World) :
    Covers c (c.readReportHandler e w) := by
  have hphase := h _ hstate
  rw [hlock] at hphase
  obtain ⟨hbounds, hasked⟩ := hphase
  cases e with
  | apsConfirm id status => exact covers_apsConfirm h _ _ _
  | zclReadReportConfigResponse rsp =>
    obtain ⟨bnd, hb, hreporting⟩ := exists_binding hvalid hstate rfl
    unfold readReportHandler
    simp only
    rw [hb]
    simp only
    -- an accepted response covers what was asked for
    split
    · have hcovered : CoveredUpTo ({ c with
          reportTrackers := c.reportTrackers.map (ReportTracker.checked w.now) }.output
            .accepted) := by
        intro hround i r hr hi
        show r ∈ (coverage (c.log ++ [.accepted])).covered
        rw [coverage_concat]
        rcases hasked hround i r hr hi with hdone | ⟨hanswered, -⟩
        · exact mem_append_left _ hdone
        · exact mem_append_right _ hanswered
      apply covers_readOn (s := .readReport) (o := .accepted)
      · exact hstate
      · decide
      · rfl
      · decide
      · rfl
      · exact hreporting
      · exact hreporting
      · exact ⟨hbounds.config, hbounds.report⟩
      · exact hcovered
    · apply covers_of_log
      · apply phase_setState
        · rw [hstate]
          decide
        · refine ⟨hbounds, ?_⟩
          -- what was asked for is left to be configured
          intro hround i r hr hi
          rcases hasked hround i r hr hi with hdone | ⟨-, hleft⟩
          · exact .inl hdone
          · exact .inr hleft
      · exact (same_setState _ _).log
  | poll | bindingTick | bindingTable | zdpMgmtBindResponse | zdpResponse | zclResponse =>
    exact covers_of_log h rfl

theorem covers_configureEnter (hvalid : Valid c) (hstate : c.state = some .configureReporting)
    (hlock : c.stateEnterLock = false) (h : PhaseAt c .configureReporting true) (w : World) :
    Covers c (c.configureEnter w) := by
  obtain ⟨hbounds, hleft⟩ := h
  obtain ⟨bnd, hb, hreporting⟩ := exists_binding hvalid hstate rfl
  have hconfig := hbounds.config
  have hreport := hbounds.report
  rw [hreporting] at hreport
  have hfrom := configureBatch_from c.readReportParam.manufacturerCode
    ((bnd.reporting.take c.reportIter).drop c.configIter) { configIter := c.configIter }
  unfold configureEnter
  rw [hb]
  simp only
  generalize configureBatch c.readReportParam.manufacturerCode
    ((bnd.reporting.take c.reportIter).drop c.configIter) { configIter := c.configIter } = batch
    at hfrom ⊢
  obtain ⟨hle, hbound, -, hsent⟩ := hfrom
  simp only [length_drop, length_take] at hle hbound hsent
  split
  · exact covers_of_log (phase_setState_free _ rfl) (same_setState _ _).log
  · apply covers_of_output (.configureReporting batch.reports)
    · apply phase_awaitConfirm (s := .configureReporting)
      · exact hstate
      show PhaseAt _ .configureReporting c.stateEnterLock
      rw [hlock]
      refine ⟨⟨?_, hbounds.report⟩, ?_⟩
      · show batch.configIter ≤ c.reportIter
        omega
      · intro hround i r hr hi
        have hr : c.reporting[i]? = some r := hr
        have hi : i < c.reportIter := hi
        show r ∈ (coverage (c.log ++ [.configureReporting batch.reports])).covered ++
            (coverage (c.log ++ [.configureReporting batch.reports])).sent ∨
          (batch.configIter ≤ i ∧ r.manufacturerCode = c.readReportParam.manufacturerCode)
        rw [coverage_concat]
        rcases hleft hround i r hr hi with hdone | ⟨hfirst, hcode⟩
        · exact .inl (mem_append_left _ hdone)
        · -- what did not fit into the command is behind the new `configIter`
          by_cases hnext : batch.configIter ≤ i
          · exact .inr ⟨hnext, hcode⟩
          · refine .inl (mem_append_right _ (hsent (i - c.configIter) r ?_ (by omega) hcode))
            rw [List.getElem?_drop, Nat.add_sub_cancel' hfirst, List.getElem?_take_of_lt hi,
              ← hreporting]
            exact hr
    · rw [awaitConfirm_log]
      rfl
    · exact fun h => by cases h

theorem covers_configureHandler (hvalid : Valid c) (hstate : c.state = some .configureReporting)
    (hlock : c.stateEnterLock = false) (h : Phase c) (e : BindingEvent) :
    Covers c (c.configureHandler e) := by
  have hphase := h _ hstate
  rw [hlock] at hphase
  obtain ⟨hbounds, hleft⟩ := hphase
  cases e with
  | apsConfirm id status => exact covers_apsConfirm h _ _ _
  | zclResponse seq status =>
    obtain ⟨bnd, hb, hreporting⟩ := exists_binding hvalid hstate rfl
    have hacked : LeftToConfigure (c.output .acknowledged)
        (coverage (c.output .acknowledged).log).covered := by
      intro hround i r hr hi
      show r ∈ (coverage (c.log ++ [.acknowledged])).covered ∨ _
      rw [coverage_concat]
      exact hleft hround i r hr hi
    -- nothing is left between the two iterators
    have hcovered : c.reportIter ≤ c.configIter → CoveredUpTo (c.output .acknowledged) := by
      intro hdone hround i r hr hi
      have hi : i < c.reportIter := hi
      rcases hacked hround i r hr hi with hmem | ⟨hfirst, -⟩
      · exact hmem
      · have hfirst : c.configIter ≤ i := hfirst
        omega
    unfold configureHandler
    simp only
    split
    · split
      · rw [hb]
        simp only
        split
        · apply covers_of_output .acknowledged
          · apply phase_setState
            · show c.state ≠ some .configureNextReport
              rw [hstate]
              decide
            · exact ⟨⟨hbounds.config, hbounds.report⟩, hacked⟩
          · rw [(same_setState _ _).log]
            rfl
          · decide
        · rename_i hconfigured
          have hdone : c.reportIter ≤ c.configIter := Nat.le_of_not_lt hconfigured
          apply covers_readOn (s := .configureReporting) (o := .acknowledged)
          · exact hstate
          · decide
          · rfl
          · decide
          · rfl
          · exact hreporting
          · exact hreporting
          · exact ⟨hbounds.config, hbounds.report⟩
          · exact hcovered hdone
      · exact covers_of_log (phase_setState_free _ rfl) (same_setState _ _).log
    · exact covers_of_log h rfl
  | poll | bindingTick | bindingTable | zdpMgmtBindResponse | zdpResponse
  | zclReadReportConfigResponse => exact covers_of_log h rfl

/-! ## The other handlers -/

theorem covers_of_does {c c' : BindingContext} (hs : emits s .nextBinding = false)
    (hdoes : Does s c c') (hphase : Phase c') :
    Covers c c' := by
  have hlogs : Logs s c c' := by
    rcases hdoes with hstays | hmoves
    · exact hstays.logs
    · exact hmoves.logs
  obtain ⟨out, hlog, hemits⟩ := hlogs
  have hnot : ¬ Leaves c c' := by
    apply not_leaves hlog
    intro hmem
    rw [hemits _ hmem] at hs
    cases hs
  exact ⟨hphase, fun hleaves => absurd hleaves hnot⟩

theorem covers_of_free {c c' : BindingContext} (hstate : c.state = some s) (hs : Checks s = false)
    (hsuccessors : ∀ s' ∈ successors s, Checks s' = false) (hdoes : Does s c c') : Covers c c' := by
  have hquiet : emits s .nextBinding = false := by
    cases s with
    | readReport | readNextReport | configureNextReport | configureReporting => cases hs
    | binding | tableRead | tableVerify | create | remove | idle => rfl
  apply covers_of_does hquiet hdoes
  rcases hdoes with hstays | hmoves
  · exact phase_of_free (hstays.state.trans hstate) hs
  · obtain ⟨s', hmem, hstate'⟩ := hmoves.state
    exact phase_of_free hstate' (hsuccessors s' hmem)

theorem phase_verifyBinding (hstate : c.state = some .tableVerify) (b : DdfBinding) (tBound : Int)
    (w : World) : Phase (c.verifyBinding b tBound w) := by
  have hfree : ∀ c' : BindingContext, c'.state = c.state → Phase c' :=
    fun c' hstate' => phase_of_free (hstate'.trans hstate) rfl
  unfold verifyBinding
  split
  · exact phase_setState_free _ rfl
  · rename_i bnd confirmed _
    simp only
    split
    · exact phase_setState_free _ rfl
    · cases bnd.dstAddressMode with
      | ext =>
        simp only
        apply phase_setState
        · show c.state ≠ some .readReport
          rw [hstate]
          decide
        · refine ⟨⟨Nat.le_refl _, Nat.zero_le _⟩, ?_, fun _ i r _ hi => ?_⟩
          · show 0 < c.reporting.length ∨
              (c.reporting = [] ∧ (coverage (c.log ++ [.startReports])).asked = [])
            rw [coverage_concat]
            rcases Nat.eq_zero_or_pos c.reporting.length with hempty | hsome
            · exact .inr ⟨eq_nil_of_length_eq_zero hempty, rfl⟩
            · exact .inl hsome
          · exact absurd hi (Nat.not_lt_zero i)
      | group => exact hfree _ rfl
      | none => exact hfree _ rfl

theorem covers_tableVerifyHandler (hstate : c.state = some .tableVerify) (e : BindingEvent)
    (w : World) : Covers c (c.tableVerifyHandler e w) := by
  apply covers_of_does rfl (does_tableVerifyHandler hstate e w)
  have hfree : ∀ c' : BindingContext, c'.state = c.state → Phase c' :=
    fun c' hstate' => phase_of_free (hstate'.trans hstate) rfl
  cases e with
  | bindingTick =>
    unfold tableVerifyHandler
    simp only
    split
    · exact phase_setState_free _ rfl
    · split
      · split
        · exact phase_setState_free _ rfl
        · exact hfree _ rfl
        · apply phase_verifyBinding
          exact hstate
      · exact hfree _ rfl
  | poll | bindingTable | apsConfirm | zdpMgmtBindResponse | zdpResponse
  | zclReadReportConfigResponse | zclResponse => exact hfree _ rfl

theorem covers_handle (hvalid : Valid c) (hlock : c.stateEnterLock = false) (h : Phase c)
    (e : BindingEvent) (w : World) : Covers c (c.handle e w) := by
  cases hstate : c.state with
  | none =>
    unfold handle
    rw [hstate]
    exact covers_of_log h rfl
  | some s =>
    have hdoes := does_handle hstate e w
    unfold handle at hdoes ⊢
    rw [hstate] at hdoes ⊢
    cases s with
    | readNextReport | configureNextReport => exact covers_of_log h rfl
    | tableVerify => exact covers_tableVerifyHandler hstate e w
    | readReport => exact covers_readReportHandler hvalid hstate hlock h e w
    | configureReporting => exact covers_configureHandler hvalid hstate hlock h e
    | binding | tableRead | create | remove | idle =>
      exact covers_of_free hstate rfl (by decide) hdoes

theorem covers_enter (hvalid : Valid c) (hlock : c.stateEnterLock = false)
    (h : ∀ s, c.state = some s → PhaseAt c s true) (w : World) : Covers c (c.enter w) := by
  cases hstate : c.state with
  | none =>
    unfold enter
    rw [hstate]
    apply covers_of_log
    · intro s hs
      rw [hstate] at hs
      cases hs
    · rfl
  | some s =>
    have hphase := h s hstate
    have hdoes := does_enter hstate w
    unfold enter at hdoes ⊢
    rw [hstate] at hdoes ⊢
    cases s with
    | readReport => exact covers_readReportEnter hvalid hstate hlock hphase w
    | configureReporting => exact covers_configureEnter hvalid hstate hlock hphase w
    | readNextReport =>
      obtain ⟨hbounds, hmore, hcovered⟩ := hphase
      apply covers_of_does rfl hdoes
      apply phase_setState
      · rw [hstate]
        decide
      · exact ⟨hbounds, .inl hmore, hcovered⟩
    | configureNextReport =>
      apply covers_of_does rfl hdoes
      apply phase_setState
      · rw [hstate]
        decide
      · exact hphase
    | tableVerify =>
      apply covers_of_log
      · apply phase_of_free (s := .tableVerify)
        · exact hstate
        · rfl
      · rfl
    | binding | tableRead | create | remove | idle =>
      exact covers_of_free hstate rfl (by decide) hdoes

theorem prefix_mergeReports (more reporting : List ZclReport) :
    reporting <+: more.foldl DdfBinding.mergeReport reporting := by
  refine run_invariant (P := fun merged => reporting <+: merged) ?_
    (prefix_refl _) more
  intro merged r h
  unfold DdfBinding.mergeReport
  split
  · exact h
  · exact h.trans (prefix_append _ _)

theorem prefix_addBinding (hindex : c.bindingIter < c.bindings.length) (bnd : DdfBinding) :
    c.reporting <+: (c.addBinding bnd).reporting := by
  have hb : c.bindings[c.bindingIter]? = some c.bindings[c.bindingIter] :=
    List.getElem?_eq_getElem hindex
  rw [reporting_of_getElem? hb]
  unfold addBinding
  split
  · rename_i i _
    have hmodify : (c.bindings.modify i (·.mergeBindingReportConfigs bnd))[c.bindingIter]? =
        some (if i = c.bindingIter then
          c.bindings[c.bindingIter].mergeBindingReportConfigs bnd
        else c.bindings[c.bindingIter]) := by
      rw [List.getElem?_modify, hb]
      split <;> rfl
    unfold reporting
    simp only
    rw [hmodify]
    simp only
    split
    · exact prefix_mergeReports _ _
    · exact prefix_refl _
  · have hsame : (c.bindings ++ [if bnd.dstEndpoint = 0 ∧ bnd.isUnicastBinding then
        { bnd with dstEndpoint := 0x01 } else bnd])[c.bindingIter]? =
          some c.bindings[c.bindingIter] := by
      rw [List.getElem?_append_left hindex]
      exact hb
    unfold reporting
    simp only [hsame, prefix_refl]

/-! ## One action -/

/-- The invariant of the checks. -/
structure Orderly (c : BindingContext) : Prop where
  valid : Valid c
  settled : Settled c
  phase : Phase c

theorem phase_addBinding (hvalid : Valid c) (h : Phase c) (bnd : DdfBinding) :
    Phase (c.addBinding bnd) := by
  have hsame : ∀ s, (c.addBinding bnd).state = some s → c.state = some s ∧
      (c.addBinding bnd).stateEnterLock = c.stateEnterLock := by
    intro s hs
    unfold addBinding at hs ⊢
    split at hs
    · exact ⟨hs, rfl⟩
    · exact ⟨hs, rfl⟩
  intro s hs
  obtain ⟨hstate, hlock⟩ := hsame s hs
  rw [hlock]
  cases hchecks : Checks s with
  | false => exact phaseAt_free hchecks _
  | true =>
    have hindexed : Indexed s = true := by
      cases s with
      | readReport | readNextReport | configureNextReport | configureReporting => rfl
      | binding | tableRead | tableVerify | create | remove | idle => cases hchecks
    have hstarts := prefix_addBinding (hvalid.index s hstate hindexed) bnd
    apply (h s hstate).of_front hstarts
    all_goals
      unfold addBinding
      split
      · rfl
      · rfl

/-- **The step lemma.** -/
theorem covers_step (h : Orderly c) (a : BindingAction) : Covers c (c.step a) := by
  have hsame : ∀ c' : BindingContext, c'.state = c.state → c'.stateEnterLock = c.stateEnterLock →
      Same c c' → Phase c' := by
    intro c' hstate hlock hsame s hs
    rw [hstate] at hs
    rw [hlock]
    exact hsame.phaseAt (h.phase s hs)
  have hnone : ∀ c' : BindingContext, c'.state = none → Phase c' := by
    intro c' hstate s hs
    rw [hstate] at hs
    cases hs
  have hbinding : ∀ c' : BindingContext, c'.log = c.log → Covers c (c'.setState .binding) := by
    intro c' hlog
    apply covers_of_log (phase_setState_free c' rfl)
    rw [(same_setState c' .binding).log, hlog]
  have hleave : c.leave.log = c.log := (same_leave c).log
  cases a with
  | stateEnter w =>
    unfold step stateEnter
    simp only
    split
    · exact covers_of_log h.phase rfl
    · rename_i hwaits
      have hentered : Covers { c with enters := c.enters - 1, stateEnterLock := false }
          ({ c with enters := c.enters - 1, stateEnterLock := false }.enter w) := by
        apply covers_enter
        · exact ⟨⟨h.valid.lengths, h.valid.fault⟩, h.valid.index⟩
        · rfl
        · intro s hs
          have hphase := h.phase s hs
          by_cases hother : s = .binding
          · rw [hother]
            exact trivial
          · -- the event waits, so it was not delivered
            have henters := h.settled s hs hother
            cases hlock : c.stateEnterLock with
            | false =>
              rw [hlock] at henters
              exact absurd henters hwaits
            | true =>
              rw [hlock] at hphase
              apply Same.phaseAt (c := c)
              · exact ⟨rfl, rfl, rfl, rfl, rfl, rfl, rfl, rfl, rfl, rfl, rfl⟩
              · exact hphase
      exact ⟨hentered.phase, hentered.leaves⟩
  | event e w =>
    have hdelivered := handleEvent_delivered c e w
    unfold step
    simp only
    generalize c.handleEvent e w = c'' at hdelivered
    have hdequeuedPhase : ∀ {c' : BindingContext}, Dequeued c e c' → Phase c' := by
      intro c' hdequeued
      rw [hdequeued.eq]
      intro s hs
      exact (h.phase s hs).of_front (prefix_refl _) rfl rfl rfl rfl rfl
    cases hdelivered with
    | waits => exact covers_of_log h.phase rfl
    | skipped hdequeued =>
      apply covers_of_log (hdequeuedPhase hdequeued)
      rw [hdequeued.eq]
    | @handled c' hdequeued henters hlock =>
      have hvalid : Valid c' := by
        rw [hdequeued.eq]
        exact ⟨⟨h.valid.lengths, h.valid.fault⟩, h.valid.index⟩
      have hhandled := covers_handle hvalid hlock (hdequeuedPhase hdequeued) e w
      have heq := hdequeued.eq
      subst heq
      exact ⟨hhandled.phase, hhandled.leaves⟩
  | timeout =>
    unfold step stateTimeout
    simp only
    split
    · split
      · exact covers_of_log (hsame _ rfl rfl
          ⟨rfl, rfl, rfl, rfl, rfl, rfl, rfl, rfl, rfl, rfl, rfl⟩) rfl
      · split
        · exact hbinding _ rfl
        · exact covers_of_log (hsame _ rfl rfl
            ⟨rfl, rfl, rfl, rfl, rfl, rfl, rfl, rfl, rfl, rfl, rfl⟩) rfl
    · exact covers_of_log h.phase rfl
  | idleEnter => exact hbinding _ rfl
  | idleLeave => exact covers_of_log (hnone _ rfl) hleave
  | ddfReload => exact covers_of_log (hnone _ rfl) hleave
  | clearBindings =>
    unfold step clearBindings
    simp only
    split
    · rename_i hstate
      exact covers_of_log (hnone _ hstate) rfl
    · exact hbinding _ rfl
  | addBinding bnd =>
    apply covers_of_log (phase_addBinding h.valid h.phase bnd)
    unfold addBinding
    split
    · rfl
    · rfl
  | setSupportsMgmtBind supported =>
    exact covers_of_log (hsame _ rfl rfl
      ⟨rfl, rfl, rfl, rfl, rfl, rfl, rfl, rfl, rfl, rfl, rfl⟩) rfl

theorem orderly_step (h : Orderly c) (a : BindingAction) : Orderly (c.step a) :=
  ⟨valid_step h.valid a, settled_step h.settled a, (covers_step h a).phase⟩

theorem orderly_run (deviceKey : Nat) (acts : List BindingAction) :
    Orderly (run step { deviceKey := deviceKey } acts) := by
  have hinit : Orderly { deviceKey := deviceKey } := by
    refine ⟨⟨⟨rfl, rfl⟩, ?_⟩, settled_of_none rfl, ?_⟩
    · intro s hs
      cases hs
    · intro s hs
      cases hs
  exact run_invariant (P := Orderly) (fun _ a h => orderly_step h a) hinit acts

/-! ## Reading goes on -/

theorem reportIter_lt_enter (hvalid : Valid c) (hstate : c.state = some .readReport)
    (h : PhaseAt c .readReport true) (hsome : c.reporting ≠ [] ∨ (coverage c.log).asked ≠ [])
    (w : World) :
    c.reportIter < (c.enter w).reportIter := by
  obtain ⟨-, hmore, -⟩ := h
  obtain ⟨bnd, hb, hreporting⟩ := exists_binding hvalid hstate rfl
  have hlt : c.reportIter < bnd.reporting.length := by
    rw [← hreporting]
    rcases hmore with hlt | ⟨hempty, hunasked⟩
    · exact hlt
    · rcases hsome with hsome | hasked
      · exact absurd hempty hsome
      · exact absurd hunasked hasked
  have hne : bnd.reporting ≠ [] := by
    intro hnil
    rw [hnil] at hlt
    exact absurd hlt (Nat.not_lt_zero _)
  have hfurther := (readBatch_readsOn c.bindingCheckRound w.now bnd.clusterId bnd.srcEndpoint hlt
    c.reportTrackers).further
  unfold enter readReportEnter
  rw [hstate]
  simp only
  rw [hb]
  simp only
  rw [if_neg hne]
  split
  · unfold processNextBinding
    rw [(same_setState _ _).reportIter]
    exact hfurther
  · unfold awaitConfirm
    split
    · exact hfurther
    · rw [(same_setState _ _).reportIter]
      exact hfurther

/-- **No report is skipped.**  At every step of every run: if the binding is left in the first
round, each of its reports was asked for with an accepted response or sent in an acknowledged
command; and each state enter event of `DEV_ReadReportConfigurationHandler` for a binding with
reports, or of which reports were read before, gets further. -/
theorem reports_covered (deviceKey : Nat) (acts : List BindingAction) (a : BindingAction) :
    let c := run step { deviceKey := deviceKey } acts
    (Leaves c (c.step a) → c.bindingCheckRound = 0 → ∀ r ∈ c.reporting, r ∈
      (coverage (c.step a).log).covered) ∧
    (∀ w, a = .stateEnter w → c.enters ≠ 0 → c.state = some .readReport →
      (c.reporting ≠ [] ∨ (coverage c.log).asked ≠ []) → c.reportIter < (c.step a).reportIter) := by
  intro c
  have horderly : Orderly c := orderly_run deviceKey acts
  refine ⟨(covers_step horderly a).leaves, ?_⟩
  rintro w rfl henters hstate hsome
  have hlock : c.stateEnterLock = true := by
    have hwaits := horderly.settled _ hstate (by decide)
    cases hlock : c.stateEnterLock with
    | false =>
      rw [hlock] at hwaits
      exact absurd hwaits henters
    | true => rfl
  have hphase := horderly.phase _ hstate
  rw [hlock] at hphase
  unfold step stateEnter
  simp only
  rw [if_neg henters]
  apply reportIter_lt_enter
    (c := { c with enters := c.enters - 1, stateEnterLock := false })
  · exact ⟨⟨horderly.valid.lengths, horderly.valid.fault⟩, horderly.valid.index⟩
  · exact hstate
  · apply Same.phaseAt (c := c)
    · exact ⟨rfl, rfl, rfl, rfl, rfl, rfl, rfl, rfl, rfl, rfl, rfl⟩
    · exact hphase
  · exact hsome

def reportOf (attributeId manufacturerCode : UInt16) : ZclReport :=
  { attributeId := attributeId, minInterval := 1, maxInterval := 300,
    manufacturerCode := manufacturerCode, dataType := 0x20 }

def eightReports : DdfBinding :=
  { dstExtAddress := 7, clusterId := 6, srcEndpoint := 1, dstEndpoint := 1,
    isUnicastBinding := true,
    reporting := [reportOf 0 0, reportOf 1 0, reportOf 2 5, reportOf 3 0, reportOf 4 0,
      reportOf 5 0, reportOf 6 0, reportOf 7 0] }

def bound : World :=
  { now := 100000, zdpResult := { isEnqueued := true, zdpSeq := 4 },
    zclResult := { isEnqueued := true, sequenceNumber := 8 }, macAddress := 7,
    bindingTable := [(eightReports.toCoreBinding 77, 99999)] }

/-- No read is answered with a report, so the reports are configured; in between the state enter
events arrive. -/
def configureAll : List BindingAction :=
  [.event (.zclReadReportConfigResponse none) bound, .stateEnter bound,
    .event (.zclResponse 8 0) bound]

def threeBatches : List BindingAction :=
  [.idleEnter, .stateEnter bound, .addBinding eightReports, .setSupportsMgmtBind false,
    .event .poll bound, .stateEnter bound, .event .bindingTick bound, .stateEnter bound] ++
  configureAll ++ [.stateEnter bound, .stateEnter bound] ++
  configureAll ++ [.stateEnter bound, .stateEnter bound] ++
  [.event (.zclReadReportConfigResponse none) bound, .stateEnter bound]

theorem reports_covered_threeBatches :
    let c := run step { deviceKey := 77 } threeBatches
    let c' := run step { deviceKey := 77 } (threeBatches.take 12)
    c.reporting = eightReports.reporting ∧
    (∀ r ∈ c.reporting, r ∈ (coverage (c.step (.event (.zclResponse 8 0) bound)).log).covered) ∧
    c'.reportIter < (c'.step (.stateEnter bound)).reportIter := by
  intro c c'
  have hleaves : Leaves c (c.step (.event (.zclResponse 8 0) bound)) :=
    ⟨[.acknowledged, .nextBinding], by decide +kernel, by decide⟩
  have hround : c.bindingCheckRound = 0 := by decide +kernel
  have henters : c'.enters ≠ 0 := by decide +kernel
  have hstate : c'.state = some .readReport := by decide +kernel
  have hsome : c'.reporting ≠ [] := by decide +kernel
  refine ⟨by decide +kernel, ?_, ?_⟩
  · exact (reports_covered 77 threeBatches (.event (.zclResponse 8 0) bound)).1 hleaves hround
  · exact (reports_covered 77 (threeBatches.take 12) (.stateEnter bound)).2 bound rfl henters
      hstate (.inl hsome)

end BindingContext
end DeconzRest

import DeconzRest.Zcl.Reporting

/-!
# The reports of a binding

The reporting entries of a binding are read and configured in batches: a batch holds the
entries of one manufacturer code, six at most.  This module has the loops that make a batch,
and the comparison of a response with what was asked.
-/

namespace DeconzRest

open List

/-- `DDF_ZclReport` -/
structure ZclReport where
  reportableChange : UInt32 := 0
  attributeId : UInt16
  minInterval : UInt16
  maxInterval : UInt16
  manufacturerCode : UInt16 := 0
  direction : UInt8 := 0
  dataType : UInt8
deriving DecidableEq, Repr

/-- `ReportTracker`; the time in milliseconds. -/
structure ReportTracker where
  lastConfigureCheck : Int := 0
  clusterId : UInt16
  attributeId : UInt16
  endpoint : UInt8
deriving DecidableEq, Repr

/-- `ZCL_ReadReportConfigurationParam`, as far as the response is compared with it. -/
structure ReadReportParam where
  manufacturerCode : UInt16 := 0
  records : List ReadReportRecord := []
deriving DecidableEq, Repr

/-- `MarkZclConfigureBusy` -/
def markZclConfigureBusy : Int := 21

namespace ZclReport

def readRecord (r : ZclReport) : ReadReportRecord :=
  { attributeId := r.attributeId, direction := r.direction }

def configureRecord (r : ZclReport) : ConfigureRecord :=
  { reportableChange := r.reportableChange.toUInt64, attributeId := r.attributeId,
    minInterval := r.minInterval, maxInterval := r.maxInterval, direction := r.direction,
    dataType := r.dataType }

end ZclReport

namespace ReportTracker

def isFor (clusterId attributeId : UInt16) (endpoint : UInt8) (t : ReportTracker) : Bool :=
  t.endpoint == endpoint && t.clusterId == clusterId && t.attributeId == attributeId

/-- `DEV_GetOrCreateReportTracker`: the trackers, with one for the attribute. -/
def getOrCreate (trackers : List ReportTracker) (clusterId attributeId : UInt16)
    (endpoint : UInt8) : List ReportTracker :=
  if trackers.any (isFor clusterId attributeId endpoint) then trackers
  else trackers ++ [{ clusterId := clusterId, attributeId := attributeId, endpoint := endpoint }]

def lastCheck (trackers : List ReportTracker) (clusterId attributeId : UInt16)
    (endpoint : UInt8) : Int :=
  match trackers.find? (isFor clusterId attributeId endpoint) with
  | none => 0
  | some t => t.lastConfigureCheck

def markBusy (clusterId attributeId : UInt16) (endpoint : UInt8) :
    List ReportTracker → List ReportTracker
  | [] => []
  | t :: ts =>
    if t.isFor clusterId attributeId endpoint then
      { t with lastConfigureCheck := markZclConfigureBusy } :: ts
    else
      t :: markBusy clusterId attributeId endpoint ts

def checked (now : Int) (t : ReportTracker) : ReportTracker :=
  if t.lastConfigureCheck = markZclConfigureBusy then { t with lastConfigureCheck := now } else t

end ReportTracker

/-- What the loop of `DEV_ReadReportConfigurationHandler` works on. -/
structure ReadBatch where
  reportIter : Nat
  manufacturerCode : UInt16 := 0
  asked : List ZclReport := []
  reportTrackers : List ReportTracker
deriving DecidableEq, Repr

/-- The loop of `DEV_ReadReportConfigurationHandler` over the reports from `reportIter` on. -/
def readBatch (bindingCheckRound : Nat) (now : Int) (clusterId : UInt16) (endpoint : UInt8) :
    List ZclReport → ReadBatch → ReadBatch
  | [], b => b
  | r :: rs, b =>
    let trackers :=
      ReportTracker.getOrCreate b.reportTrackers clusterId r.attributeId endpoint
    let b := { b with reportTrackers := trackers }
    -- always verify on first round (needed for DDF hot reloading)
    if bindingCheckRound ≠ 0 ∧
        now - ReportTracker.lastCheck trackers clusterId r.attributeId endpoint < 3600 * 1000 then
      readBatch bindingCheckRound now clusterId endpoint rs
        { b with reportIter := b.reportIter + 1 }
    else if b.asked ≠ [] ∧ b.manufacturerCode ≠ r.manufacturerCode then
      b -- proceed later
    else
      let b := { b with
        manufacturerCode := r.manufacturerCode, asked := b.asked ++ [r],
        reportTrackers := ReportTracker.markBusy clusterId r.attributeId endpoint trackers }
      if b.asked.length = maxRecords then b
      else readBatch bindingCheckRound now clusterId endpoint rs
        { b with reportIter := b.reportIter + 1 }

/-- What the loop of `DEV_ConfigureReportingHandler` works on. -/
structure ConfigureBatch where
  configIter : Nat
  reports : List ZclReport := []
deriving DecidableEq, Repr

/-- The loop of `DEV_ConfigureReportingHandler` over the reports from `configIter` up to
`reportIter`. -/
def configureBatch (manufacturerCode : UInt16) : List ZclReport → ConfigureBatch → ConfigureBatch
  | [], b => b
  | r :: rs, b =>
    let b := { b with configIter := b.configIter + 1 }
    if r.manufacturerCode ≠ manufacturerCode then configureBatch manufacturerCode rs b
    else
      let b := { b with reports := b.reports ++ [r] }
      -- prevent too large APS frames
      if b.reports.length = maxRecords then b else configureBatch manufacturerCode rs b

def confirms (param : ReadReportParam) (manufacturerCode : UInt16) (record : ReportRspRecord)
    (report : ZclReport) : Bool :=
  param.records.any (fun rec =>
      rec.attributeId == report.attributeId && rec.direction == report.direction) &&
    record.status == zclSuccessStatus &&
    report.manufacturerCode == manufacturerCode &&
    report.attributeId == record.attributeId &&
    report.minInterval == record.minInterval &&
    report.maxInterval == record.maxInterval &&
    report.reportableChange.toUInt64 == record.reportableChange

/-- `okCount` of `reportingConfigurationValid` -/
def okCount (reporting : List ZclReport) (param : ReadReportParam)
    (rsp : ReportConfigurationRsp) : Nat :=
  (rsp.records.map fun record =>
    reporting.countP (confirms param rsp.manufacturerCode record)).sum

/-- `reportingConfigurationValid` -/
def reportingConfigurationValid (reporting : List ZclReport) (param : ReadReportParam)
    (rsp : Option ReportConfigurationRsp) : Bool :=
  match rsp with
  | none => false
  | some rsp => decide (okCount reporting param rsp = param.records.length)

/-- The reports from `start` on are asked as they come, until the manufacturer code changes or
the frame is full. -/
structure ReadBatch.From (b b' : ReadBatch) (rs : List ZclReport) : Prop where
  asked : ∃ more, b'.asked = b.asked ++ more ∧ more.Sublist rs
  code : ∀ r ∈ b'.asked, r.manufacturerCode = b'.manufacturerCode
  length : b'.asked.length ≤ maxRecords
  le : b.reportIter ≤ b'.reportIter
  bound : b'.reportIter ≤ b.reportIter + rs.length

theorem codes_concat {b : ReadBatch} {r : ZclReport}
    (hcode : ∀ s ∈ b.asked, s.manufacturerCode = b.manufacturerCode)
    (hsame : ¬ (b.asked ≠ [] ∧ b.manufacturerCode ≠ r.manufacturerCode)) :
    ∀ s ∈ b.asked ++ [r], s.manufacturerCode = r.manufacturerCode := by
  intro s hs
  rcases mem_append.mp hs with hs | hs
  · rw [hcode s hs]
    by_contra hother
    exact hsame ⟨ne_nil_of_mem hs, hother⟩
  · rw [mem_singleton.mp hs]

theorem readBatch_from (round : Nat) (now : Int) (clusterId : UInt16) (endpoint : UInt8)
    (rs : List ZclReport) (b : ReadBatch)
    (hcode : ∀ r ∈ b.asked, r.manufacturerCode = b.manufacturerCode)
    (hlength : b.asked.length < maxRecords) :
    ReadBatch.From b (readBatch round now clusterId endpoint rs b) rs := by
  induction rs generalizing b with
  | nil =>
    exact ⟨⟨[], (append_nil _).symm, List.Sublist.refl _⟩, hcode, Nat.le_of_lt hlength,
      Nat.le_refl _, Nat.le_refl _⟩
  | cons r rs ih =>
    rw [readBatch]
    simp only
    split
    · -- the report was checked lately
      obtain ⟨⟨more, hasked, hsub⟩, hcode', hlength', hle, hbound⟩ := ih
        { b with
          reportIter := b.reportIter + 1
          reportTrackers := ReportTracker.getOrCreate b.reportTrackers clusterId r.attributeId
            endpoint } hcode hlength
      simp only at hle hbound
      exact ⟨⟨more, hasked, hsub.cons r⟩, hcode', hlength', by omega, by
        rw [length_cons]; omega⟩
    · split
      · -- the manufacturer code changes
        exact ⟨⟨[], (append_nil _).symm, nil_sublist _⟩, hcode, Nat.le_of_lt hlength, Nat.le_refl _,
          Nat.le_add_right _ _⟩
      · rename_i hsame
        have hcodes := codes_concat hcode hsame
        have hone : (b.asked ++ [r]).length = b.asked.length + 1 := List.length_append
        split
        · rename_i hfull
          refine ⟨⟨[r], rfl, ?_⟩, hcodes, Nat.le_of_eq hfull, Nat.le_refl _, Nat.le_add_right _ _⟩
          exact singleton_sublist.mpr mem_cons_self
        · rename_i hfull
          obtain ⟨⟨more, hasked, hsub⟩, hcode', hlength', hle, hbound⟩ := ih
            { reportIter := b.reportIter + 1, manufacturerCode := r.manufacturerCode,
              asked := b.asked ++ [r],
              reportTrackers := ReportTracker.markBusy clusterId r.attributeId endpoint
                (ReportTracker.getOrCreate b.reportTrackers clusterId r.attributeId endpoint) }
            hcodes (by simp only; omega)
          simp only at hle hbound hasked
          refine ⟨⟨r :: more, ?_, hsub.cons_cons r⟩, hcode', hlength', by omega, by
            rw [length_cons]; omega⟩
          rw [hasked, append_assoc]
          rfl

/-! ## What a batch passes

The read loop stops in front of another manufacturer code, and at the report that fills the
frame: that one is asked for but not passed, so the next read asks for it again. -/

theorem readBatch_asked (now : Int) (clusterId : UInt16) (endpoint : UInt8)
    (rs : List ZclReport) (b : ReadBatch)
    (hcode : ∀ r ∈ b.asked, r.manufacturerCode = b.manufacturerCode)
    (hlength : b.asked.length < maxRecords) {i : Nat} {r : ZclReport} (hr : rs[i]? = some r)
    (hi : b.reportIter + i < (readBatch 0 now clusterId endpoint rs b).reportIter) :
    r ∈ (readBatch 0 now clusterId endpoint rs b).asked := by
  induction rs generalizing b i with
  | nil => cases hr
  | cons s rs ih =>
    rw [readBatch] at hi ⊢
    simp only [ne_eq, not_true_eq_false, false_and, if_false] at hi ⊢
    split at hi
    · -- the manufacturer code changes
      simp only at hi
      omega
    · rename_i hsame
      rw [if_neg hsame]
      split at hi
      · simp only at hi
        omega
      · rename_i hfull
        rw [if_neg hfull]
        have hcodes := codes_concat hcode hsame
        have hone : (b.asked ++ [s]).length = b.asked.length + 1 := List.length_append
        have hless : (b.asked ++ [s]).length < maxRecords := by omega
        cases i with
        | zero =>
          -- what was asked stays asked
          rw [List.getElem?_cons_zero, Option.some.injEq] at hr
          obtain ⟨more, hmore, -⟩ := (readBatch_from 0 now clusterId endpoint rs
            { reportIter := b.reportIter + 1, manufacturerCode := s.manufacturerCode,
              asked := b.asked ++ [s],
              reportTrackers := ReportTracker.markBusy clusterId s.attributeId endpoint
                (ReportTracker.getOrCreate b.reportTrackers clusterId s.attributeId endpoint) }
            hcodes hless).asked
          rw [hmore, ← hr]
          simp
        | succ i =>
          rw [List.getElem?_cons_succ] at hr
          apply ih _ (by exact hcodes) (by exact hless) hr
          simp only at hi ⊢
          omega

theorem readBatch_lt (round : Nat) (now : Int) (clusterId : UInt16) (endpoint : UInt8)
    {rs : List ZclReport} (hrs : rs ≠ []) (reportIter : Nat) (trackers : List ReportTracker) :
    reportIter < (readBatch round now clusterId endpoint rs
      { reportIter := reportIter, reportTrackers := trackers }).reportIter := by
  cases rs with
  | nil => exact absurd rfl hrs
  | cons r rs =>
    rw [readBatch]
    simp only [ne_eq, not_true_eq_false, false_and, if_false, nil_append]
    split
    · have hle := (readBatch_from round now clusterId endpoint rs
        { reportIter := reportIter + 1,
          reportTrackers := ReportTracker.getOrCreate trackers clusterId r.attributeId endpoint }
        (fun r hr => absurd hr not_mem_nil) (Nat.zero_lt_succ 5)).le
      exact hle
    · have hone : ¬ [r].length = maxRecords := by
        show ¬ 1 = 6
        decide
      rw [if_neg hone]
      have hle := (readBatch_from round now clusterId endpoint rs
        { reportIter := reportIter + 1, manufacturerCode := r.manufacturerCode, asked := [r],
          reportTrackers := ReportTracker.markBusy clusterId r.attributeId endpoint
            (ReportTracker.getOrCreate trackers clusterId r.attributeId endpoint) }
        (fun s hs => by rw [mem_singleton.mp hs]) (by
          show 1 < maxRecords
          decide)).le
      exact hle

/-- A read of the reports `rs` from `start` on: it gets further, and in the first round it asks
for every report that it passes. -/
structure ReadBatch.ReadsOn (rs : List ZclReport) (round start : Nat) (b : ReadBatch) : Prop where
  further : start < b.reportIter
  bound : b.reportIter ≤ rs.length
  code : ∀ r ∈ b.asked, r.manufacturerCode = b.manufacturerCode
  asked : round = 0 → ∀ i r, rs[i]? = some r → start ≤ i → i < b.reportIter → r ∈ b.asked

theorem readBatch_readsOn (round : Nat) (now : Int) (clusterId : UInt16) (endpoint : UInt8)
    {rs : List ZclReport} {start : Nat} (hstart : start < rs.length)
    (trackers : List ReportTracker) :
    ReadBatch.ReadsOn rs round start (readBatch round now clusterId endpoint (rs.drop start)
      { reportIter := start, reportTrackers := trackers }) := by
  have hrest : rs.drop start ≠ [] := by
    intro hnil
    have hle := drop_eq_nil_iff.mp hnil
    omega
  have hfrom := readBatch_from round now clusterId endpoint (rs.drop start)
    { reportIter := start, reportTrackers := trackers }
    (fun r hr => absurd hr not_mem_nil) (Nat.zero_lt_succ 5)
  refine ⟨readBatch_lt round now clusterId endpoint hrest start trackers, ?_, hfrom.code, ?_⟩
  · have hbound := hfrom.bound
    simp only [length_drop] at hbound
    omega
  · rintro rfl i r hr hle hi
    have hdrop : (rs.drop start)[i - start]? = some r := by
      rw [List.getElem?_drop, Nat.add_sub_cancel' hle]
      exact hr
    apply readBatch_asked now clusterId endpoint (rs.drop start)
      { reportIter := start, reportTrackers := trackers }
      (fun r hr => absurd hr not_mem_nil) (Nat.zero_lt_succ 5) hdrop
    simp only
    omega

/-- Every report of the manufacturer code that the configure loop passes is sent. -/
structure ConfigureBatch.From (manufacturerCode : UInt16) (b b' : ConfigureBatch)
    (rs : List ZclReport) : Prop where
  le : b.configIter ≤ b'.configIter
  bound : b'.configIter ≤ b.configIter + rs.length
  mono : ∀ r ∈ b.reports, r ∈ b'.reports
  sent : ∀ i r, rs[i]? = some r → b.configIter + i < b'.configIter → r.manufacturerCode =
    manufacturerCode → r ∈ b'.reports

theorem configureBatch_from (manufacturerCode : UInt16) (rs : List ZclReport)
    (b : ConfigureBatch) :
    ConfigureBatch.From manufacturerCode b (configureBatch manufacturerCode rs b) rs := by
  induction rs generalizing b with
  | nil =>
    exact ⟨Nat.le_refl _, Nat.le_refl _, fun r hr => hr, fun i r hr => by cases hr⟩
  | cons s rs ih =>
    rw [configureBatch]
    simp only
    split
    · rename_i hother
      obtain ⟨hle, hbound, hmono, hsent⟩ := ih { b with configIter := b.configIter + 1 }
      simp only at hle hbound hsent
      refine ⟨by omega, by rw [length_cons]; omega, hmono, ?_⟩
      intro i r hr hi hcode
      cases i with
      | zero =>
        rw [List.getElem?_cons_zero, Option.some.injEq] at hr
        rw [hr] at hother
        exact absurd hcode hother
      | succ i =>
        rw [List.getElem?_cons_succ] at hr
        exact hsent i r hr (by omega) hcode
    · split
      · refine ⟨Nat.le_succ _, by rw [length_cons]; simp only; omega, ?_, ?_⟩
        · exact fun r hr => mem_append_left _ hr
        · intro i r hr hi _
          cases i with
          | zero =>
            rw [List.getElem?_cons_zero, Option.some.injEq] at hr
            rw [← hr]
            exact mem_append_right _ mem_cons_self
          | succ i =>
            simp only at hi
            omega
      · obtain ⟨hle, hbound, hmono, hsent⟩ := ih
          { configIter := b.configIter + 1, reports := b.reports ++ [s] }
        simp only at hle hbound hmono hsent
        refine ⟨by omega, by rw [length_cons]; omega, ?_, ?_⟩
        · exact fun r hr => hmono r (mem_append_left _ hr)
        · intro i r hr hi hcode
          cases i with
          | zero =>
            rw [List.getElem?_cons_zero, Option.some.injEq] at hr
            rw [← hr]
            exact hmono s (mem_append_right _ mem_cons_self)
          | succ i =>
            rw [List.getElem?_cons_succ] at hr
            exact hsent i r hr (by omega) hcode

end DeconzRest

import DeconzRest.Binding.ClosedLoop
import Mathlib.Data.Multiset.AddSub
import Mathlib.Data.Multiset.UnionInter

/-!
# Which answers are accepted

`reportingConfigurationValid` counts the pairs of a record of the response and a report of the
binding that agree, and compares the count with the number of the entries that were asked for.  The
count does not tell which entries the pairs are for: answers that are left over make up for entries
that have none.  The cluster of the response is not looked at.
-/

namespace DeconzRest

/-- `ZCL_ReadReportConfigurationParam` with its cluster -/
structure ReadReportRequest extends ReadReportParam where
  clusterId : UInt16
deriving DecidableEq, Repr

/-- `ZCL_ReadReportConfigurationRsp` with all that the parser takes from the indication and the
frame -/
structure ReadReportResponse extends ReportConfigurationRsp where
  clusterId : UInt16
  sequenceNumber : UInt8
  endpoint : UInt8
deriving DecidableEq, Repr

/-- `reportingConfigurationValid` for the event of a response, of which the cluster, the sequence
number and the endpoint are not compared -/
def ReadReportResponse.valid (reporting : List ZclReport) (request : ReadReportRequest)
    (rsp : ReadReportResponse) : Bool :=
  reportingConfigurationValid reporting request.toReadReportParam
    (some rsp.toReportConfigurationRsp)

/-- The record was read with success and is what the report asks the device for. -/
def agrees (manufacturerCode : UInt16) (record : ReportRspRecord) (report : ZclReport) : Prop :=
  record.status = zclSuccessStatus ∧ record.attributeId = report.attributeId ∧ manufacturerCode =
    report.manufacturerCode ∧ record.minInterval = report.minInterval ∧
    record.maxInterval = report.maxInterval ∧
    record.reportableChange = report.reportableChange.toUInt64

instance (manufacturerCode : UInt16) (record : ReportRspRecord) (report : ZclReport) :
    Decidable (agrees manufacturerCode record report) :=
  inferInstanceAs (Decidable (_ ∧ _))

/-- The entry has an answer: a record that agrees with a report of the binding for the entry. -/
def Answered (reporting : List ZclReport) (rsp : ReportConfigurationRsp)
    (entry : ReadReportRecord) : Prop :=
  ∃ record ∈ rsp.records, ∃ report ∈ reporting, report.readRecord = entry ∧
    agrees rsp.manufacturerCode record report

/-- What acceptance should mean: the response is of the cluster that was asked, and every entry of
the request has an answer. -/
def SoundAcceptance (reporting : List ZclReport) (request : ReadReportRequest)
    (rsp : ReadReportResponse) : Prop :=
  rsp.valid reporting request = true → rsp.clusterId = request.clusterId ∧ ∀ entry ∈
    request.records, Answered reporting rsp.toReportConfigurationRsp entry

/-- The entries that the pairs of a record and a report answer, with one for each pair -/
def answers (reporting : List ZclReport) (rsp : ReportConfigurationRsp) : List ReadReportRecord :=
  rsp.records.flatMap fun record =>
    (reporting.filter fun report => agrees rsp.manufacturerCode record report).map
      ZclReport.readRecord

/-- The answers to entries of the request -/
def askedAnswers (reporting : List ZclReport) (records : List ReadReportRecord)
    (rsp : ReportConfigurationRsp) : Multiset ReadReportRecord :=
  (answers reporting rsp).filter fun entry => entry ∈ records

/-- The number of answers beyond the first to an entry (beyond the second, where the entry is asked
for twice, and so on) -/
def leftOver (reporting : List ZclReport) (records : List ReadReportRecord)
    (rsp : ReportConfigurationRsp) : Nat :=
  (askedAnswers reporting records rsp - records).card

/-- The number of entries that are asked for and have no answer left -/
def unanswered (reporting : List ZclReport) (records : List ReadReportRecord)
    (rsp : ReportConfigurationRsp) : Nat :=
  ((records : Multiset ReadReportRecord) - askedAnswers reporting records rsp).card

/-! ## The count -/

theorem mem_answers {reporting : List ZclReport} {rsp : ReportConfigurationRsp}
    {entry : ReadReportRecord} : entry ∈ answers reporting rsp ↔ Answered reporting rsp entry := by
  unfold answers Answered
  simp only [List.mem_flatMap, List.mem_map, List.mem_filter, decide_eq_true_eq]
  constructor
  · rintro ⟨record, hrecord, report, ⟨hreport, hagrees⟩, hentry⟩
    exact ⟨record, hrecord, report, hreport, hentry, hagrees⟩
  · rintro ⟨record, hrecord, report, hreport, hentry, hagrees⟩
    exact ⟨record, hrecord, report, ⟨hreport, hagrees⟩, hentry⟩

theorem confirms_eq (param : ReadReportParam) (manufacturerCode : UInt16)
    (record : ReportRspRecord) (report : ZclReport) :
    confirms param manufacturerCode record report =
      (decide (report.readRecord ∈ param.records) &&
        decide (agrees manufacturerCode record report)) := by
  have hasked : param.records.any (fun rec =>
      rec.attributeId == report.attributeId && rec.direction == report.direction) =
        decide (report.readRecord ∈ param.records) := by
    rw [Bool.eq_iff_iff, List.any_eq_true, decide_eq_true_eq]
    constructor
    · rintro ⟨rec, hrec, hsame⟩
      simp only [Bool.and_eq_true, beq_iff_eq] at hsame
      have heq : rec = report.readRecord := by
        rw [ZclReport.readRecord, ← hsame.1, ← hsame.2]
      exact heq ▸ hrec
    · exact fun hmem => ⟨_, hmem, by simp [ZclReport.readRecord]⟩
  rw [confirms, hasked, Bool.eq_iff_iff]
  simp only [Bool.and_eq_true, beq_iff_eq, decide_eq_true_eq]
  unfold agrees
  constructor
  · rintro ⟨⟨⟨⟨⟨⟨hmem, hstatus⟩, hcode⟩, hattr⟩, hmin⟩, hmax⟩, hchange⟩
    exact ⟨hmem, hstatus, hattr.symm, hcode.symm, hmin.symm, hmax.symm, hchange.symm⟩
  · rintro ⟨hmem, hstatus, hattr, hcode, hmin, hmax, hchange⟩
    exact ⟨⟨⟨⟨⟨⟨hmem, hstatus⟩, hcode.symm⟩, hattr.symm⟩, hmin.symm⟩, hmax.symm⟩, hchange.symm⟩

theorem okCount_eq (reporting : List ZclReport) (param : ReadReportParam)
    (rsp : ReportConfigurationRsp) :
    okCount reporting param rsp = (askedAnswers reporting param.records rsp).card := by
  have hpair : ∀ record, reporting.countP (confirms param rsp.manufacturerCode record) =
      (((reporting.filter fun report => agrees rsp.manufacturerCode record report).map
        ZclReport.readRecord).filter fun entry => entry ∈ param.records).length := by
    intro record
    rw [← List.countP_eq_length_filter, List.countP_map, List.countP_filter]
    refine List.countP_congr fun report _ => ?_
    rw [confirms_eq]
    rfl
  unfold okCount askedAnswers answers
  rw [Multiset.coe_card, List.filter_flatMap, List.length_flatMap]
  simp only [hpair]

theorem valid_iff (reporting : List ZclReport) (request : ReadReportRequest)
    (rsp : ReadReportResponse) :
    rsp.valid reporting request = true ↔
      leftOver reporting request.records rsp.toReportConfigurationRsp =
        unanswered reporting request.records rsp.toReportConfigurationRsp := by
  have hcount := okCount_eq reporting request.toReadReportParam rsp.toReportConfigurationRsp
  unfold ReadReportResponse.valid reportingConfigurationValid leftOver unanswered
  simp only
  rw [decide_eq_true_iff, hcount]
  generalize askedAnswers reporting request.records rsp.toReportConfigurationRsp = A
  -- both sides have what the two have in common
  have hanswers := congrArg Multiset.card (Multiset.sub_add_inter A request.records)
  have hasked := congrArg Multiset.card
    (Multiset.sub_add_inter (request.records : Multiset ReadReportRecord) A)
  rw [Multiset.card_add] at hanswers hasked
  rw [Multiset.inter_comm, Multiset.coe_card] at hasked
  omega

/-- **What is accepted**: acceptance is sound, unless as many answers are left over as entries are
left unanswered, and the response is of another cluster or an entry has no answer at all. -/
theorem acceptance_sound_iff (reporting : List ZclReport) (request : ReadReportRequest)
    (rsp : ReadReportResponse) :
    SoundAcceptance reporting request rsp ↔
      ¬ (leftOver reporting request.records rsp.toReportConfigurationRsp =
          unanswered reporting request.records rsp.toReportConfigurationRsp ∧
        (rsp.clusterId ≠ request.clusterId ∨ ∃ entry ∈ request.records, entry ∉
          answers reporting rsp.toReportConfigurationRsp)) := by
  unfold SoundAcceptance
  rw [valid_iff, not_and, not_or, not_not]
  refine imp_congr_right fun _ => and_congr_right fun _ => ?_
  simp only [not_exists, not_and, not_not, mem_answers]

def voltageReport : ZclReport :=
  { attributeId := 0x0505, minInterval := 5, maxInterval := 600, dataType := 0x21,
    reportableChange := 1 }

def plugRequest : ReadReportRequest :=
  { (batchFrom [powerReport, voltageReport] 0 0 0 0x0b04 1 []).param with clusterId := 0x0b04 }

/-- The plug has the report of the power, returns it twice, and does not know the voltage. -/
def plugResponse : ReadReportResponse :=
  { zclParseReadReportConfigurationRsp
      { manufacturerCode := 0,
        payload :=
          [0x00, 0x00, 0x0B, 0x05, 0x29, 0x05, 0x00, 0x58, 0x02, 0x0A, 0x00, 0x00, 0x00, 0x0B, 0x05,
            0x29, 0x05, 0x00, 0x58, 0x02, 0x0A, 0x00,
            0x86, 0x00, 0x05, 0x05] } with
    clusterId := 0x0b04, sequenceNumber := 8, endpoint := 1 }

/-- The second record of the power is counted for the voltage. -/
theorem power_counted_for_voltage :
    ¬ ∀ (reporting : List ZclReport) (request : ReadReportRequest) (rsp : ReadReportResponse),
      SoundAcceptance reporting request rsp := by
  intro h
  have hvalid : plugResponse.valid [powerReport, voltageReport] plugRequest = true := by
    decide +kernel
  have hanswered := (h _ _ _ hvalid).2 voltageReport.readRecord (by decide +kernel)
  exact absurd (mem_answers.mpr hanswered) (by decide +kernel)

end DeconzRest

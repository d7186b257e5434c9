import DeconzRest.Binding.Reports
import Mathlib.Data.List.Basic

/-!
# Does a configured report stay configured?

A device that keeps what `ZCL_ConfigureReporting` sends and returns it when asked should
make `reportingConfigurationValid` accept, or the gateway configures it again and again.
A reportable change that does not fit its data type comes back cut to the width of the type,
so it is never confirmed; an attribute that is listed twice is confirmed for both entries.
`accepted_iff` counts the confirmations, and `returned_iff_fits` is what is left of it where
every attribute is listed once.
-/

namespace DeconzRest

open List

/-- A configure reporting frame as the reports in it, under their manufacturer code. -/
structure ConfigureFrame where
  manufacturerCode : UInt16
  reports : List ZclReport
deriving DecidableEq, Repr

namespace ConfigureFrame

def send (f : ConfigureFrame) : ZclFrame :=
  zclConfigureReporting f.manufacturerCode (f.reports.map ZclReport.configureRecord)

def sent (f : ConfigureFrame) : List (UInt16 × ZclReport) :=
  f.reports.map fun r => (f.manufacturerCode, r)

def storeAll (store : ReportStore) (frames : List ConfigureFrame) : ReportStore :=
  frames.foldl (fun store f => store.configure f.send) store

def lastSent (frames : List ConfigureFrame) (manufacturerCode : UInt16)
    (record : ReadReportRecord) : Option ZclReport :=
  ((frames.flatMap sent).reverse.find? fun e => decide (e.1 = manufacturerCode ∧ e.2.attributeId =
    record.attributeId ∧ e.2.direction = record.direction)).map (·.2)

def stored (e : UInt16 × ZclReport) : UInt16 × StoredReport :=
  (e.1, StoredReport.ofRecord e.2.configureRecord)

theorem configure_send (store : ReportStore) (f : ConfigureFrame) :
    store.configure f.send = (f.sent.map stored).reverse ++ store := by
  have hread := readStoreds_flatMap (f.reports.map ZclReport.configureRecord)
    (length_flatMap_configureRecord (f.reports.map ZclReport.configureRecord))
  have hfold : ∀ (reports : List ZclReport) (store : ReportStore),
      ((reports.map ZclReport.configureRecord).map StoredReport.ofRecord).foldl
          (fun store report => (f.manufacturerCode, report) :: store) store =
        ((reports.map fun r => (f.manufacturerCode, r)).map stored).reverse ++ store := by
    intro reports
    induction reports with
    | nil => exact fun _ => rfl
    | cons r rs ih =>
      intro store
      rw [map_cons, map_cons, foldl_cons, ih, map_cons, map_cons, reverse_cons, append_assoc]
      rfl
  unfold ReportStore.configure send zclConfigureReporting sent
  simp only
  rw [hread, hfold]

theorem storeAll_eq (store : ReportStore) (frames : List ConfigureFrame) :
    storeAll store frames = ((frames.flatMap sent).map stored).reverse ++ store := by
  induction frames generalizing store with
  | nil => rfl
  | cons f fs ih =>
    have hcons : storeAll store (f :: fs) = storeAll (store.configure f.send) fs := rfl
    rw [hcons, ih, configure_send, flatMap_cons, map_append, reverse_append, append_assoc]

theorem lookup_storeAll {store : ReportStore} {frames : List ConfigureFrame}
    {manufacturerCode : UInt16} {record : ReadReportRecord} {r : ZclReport}
    (h : lastSent frames manufacturerCode record = some r) :
    (storeAll store frames).lookup manufacturerCode record =
      some (StoredReport.ofRecord r.configureRecord) := by
  unfold lastSent at h
  obtain ⟨e, hfind, rfl⟩ := Option.map_eq_some_iff.mp h
  unfold ReportStore.lookup
  have hfirst : ((frames.flatMap sent).map stored).reverse.find? (fun entry =>
      decide (entry.1 = manufacturerCode ∧ entry.2.attributeId = record.attributeId ∧
        entry.2.direction = record.direction)) = some (stored e) := by
    rw [← map_reverse, List.find?_map]
    have hsame : ((fun entry : UInt16 × StoredReport => decide (entry.1 = manufacturerCode ∧
        entry.2.attributeId = record.attributeId ∧ entry.2.direction = record.direction)) ∘
        stored) = fun e => decide (e.1 = manufacturerCode ∧ e.2.attributeId = record.attributeId ∧
          e.2.direction = record.direction) := rfl
    rw [hsame, hfind]
    rfl
  rw [storeAll_eq, List.find?_append, hfirst]
  rfl

end ConfigureFrame

open ConfigureFrame

/-- The reportable change fits the data type: nothing is cut off. -/
def ZclReport.Fits (r : ZclReport) : Prop :=
  r.reportableChange.toNat < 256 ^ changeSize r.dataType

instance (r : ZclReport) : Decidable r.Fits := inferInstanceAs (Decidable (_ < _))

/-- The listed report is asked for and is what comes back of the report `last` that was sent. -/
def comesBack (asked : List ZclReport) (manufacturerCode : UInt16) (last report : ZclReport) :
    Bool :=
  asked.any (fun r =>
      r.attributeId == report.attributeId && r.direction == report.direction) &&
    report.manufacturerCode == manufacturerCode &&
    report.attributeId == last.attributeId &&
    report.minInterval == last.minInterval &&
    report.maxInterval == last.maxInterval &&
    report.reportableChange.toNat ==
      last.reportableChange.toNat % 256 ^ changeSize last.dataType

/-- The number of listed reports that are what comes back of some report that is asked. -/
def returned (reporting : List ZclReport) (frames : List ConfigureFrame) (batch : ReadBatch) :
    Nat :=
  (batch.asked.map fun r => reporting.countP
    (comesBack batch.asked batch.manufacturerCode
      ((lastSent frames batch.manufacturerCode r.readRecord).getD r))).sum

def ReadBatch.param (batch : ReadBatch) : ReadReportParam :=
  { manufacturerCode := batch.manufacturerCode, records := batch.asked.map ZclReport.readRecord }

/-- The gateway accepts the answer of a device that has got the frames. -/
def Accepted (reporting : List ZclReport) (store : ReportStore) (frames : List ConfigureFrame)
    (batch : ReadBatch) : Prop :=
  reportingConfigurationValid reporting batch.param
    (some (zclParseReadReportConfigurationRsp
      ((storeAll store frames).respond batch.manufacturerCode batch.param.records))) = true

instance (reporting : List ZclReport) (store : ReportStore) (frames : List ConfigureFrame)
    (batch : ReadBatch) : Decidable (Accepted reporting store frames batch) :=
  inferInstanceAs (Decidable (_ = true))

/-! ## The answer -/

theorem toNat_change (change : UInt32) (record : ConfigureRecord)
    (h : record.reportableChange.toNat < 2 ^ 32) :
    (change.toUInt64 ==
        (ReportRspRecord.ofRecord record).reportableChange) =
      (change.toNat == record.reportableChange.toNat % 256 ^ changeSize record.dataType) := by
  have hle : record.reportableChange.toNat % 256 ^ changeSize record.dataType ≤
      record.reportableChange.toNat := Nat.mod_le _ _
  have hchange := change.toNat_lt
  have hback : (ReportRspRecord.ofRecord record).reportableChange.toNat =
      record.reportableChange.toNat % 256 ^ changeSize record.dataType := by
    unfold ReportRspRecord.ofRecord
    simp only
    rw [UInt64.toNat_ofNat', Nat.mod_eq_of_lt]
    omega
  rw [Bool.eq_iff_iff, beq_iff_eq, beq_iff_eq, ← hback, ← UInt64.toNat_inj, UInt32.toNat_toUInt64]

theorem confirms_ofRecord (batch : ReadBatch) (last report : ZclReport) :
    confirms batch.param batch.manufacturerCode (ReportRspRecord.ofRecord last.configureRecord)
        report = comesBack batch.asked batch.manufacturerCode last report := by
  have hsmall : last.configureRecord.reportableChange.toNat = last.reportableChange.toNat :=
    last.reportableChange.toNat_toUInt64
  have hlt := last.reportableChange.toNat_lt
  have hchange := toNat_change report.reportableChange last.configureRecord
    (by rw [hsmall]; omega)
  rw [hsmall] at hchange
  have hfound : (batch.asked.map ZclReport.readRecord).any (fun rec =>
      rec.attributeId == report.attributeId && rec.direction == report.direction) =
        batch.asked.any fun r =>
          r.attributeId == report.attributeId && r.direction == report.direction := by
    rw [any_map]
    rfl
  unfold confirms comesBack ReadBatch.param
  simp only
  rw [hchange, hfound]
  simp only [ReportRspRecord.ofRecord, beq_self_eq_true, Bool.and_true]
  rfl

variable {frames : List ConfigureFrame} {batch : ReadBatch}

theorem parse_respond (store : ReportStore) (hlength : batch.asked.length ≤ maxRecords)
    (hsent : ∀ r ∈ batch.asked, (lastSent frames batch.manufacturerCode r.readRecord).isSome = true)
    :
    (zclParseReadReportConfigurationRsp
        ((storeAll store frames).respond batch.manufacturerCode batch.param.records)).records =
      batch.asked.map fun r => ReportRspRecord.ofRecord
        ((lastSent frames batch.manufacturerCode r.readRecord).getD r).configureRecord := by
  have hpayload : ∀ rs : List ZclReport, (∀ r ∈ rs, r ∈ batch.asked) →
      (rs.map ZclReport.readRecord).flatMap (fun record => reportRsp record
          ((storeAll store frames).lookup batch.manufacturerCode record)) =
        rs.flatMap fun r => reportRsp r.readRecord (some (StoredReport.ofRecord
          ((lastSent frames batch.manufacturerCode r.readRecord).getD r).configureRecord)) := by
    intro rs hrs
    rw [flatMap_map]
    apply flatMap_congr
    intro r hr
    obtain ⟨last, hlast⟩ := Option.isSome_iff_exists.mp (hsent r (hrs r hr))
    rw [lookup_storeAll hlast, hlast]
    rfl
  unfold zclParseReadReportConfigurationRsp ReportStore.respond ReadBatch.param
  simp only
  rw [hpayload batch.asked (fun r hr => hr), readReportRsps_flatMap _ _ _ hlength]

/-- **When the loop closes.** -/
theorem accepted_iff_returned (reporting : List ZclReport) (store : ReportStore)
    (hlength : batch.asked.length ≤ maxRecords)
    (hsent : ∀ r ∈ batch.asked, (lastSent frames batch.manufacturerCode r.readRecord).isSome = true)
    :
    Accepted reporting store frames batch ↔ returned reporting frames batch =
      batch.asked.length := by
  have hrecords := parse_respond store hlength hsent
  unfold Accepted reportingConfigurationValid
  simp only
  rw [decide_eq_true_iff]
  unfold okCount returned
  rw [hrecords, map_map]
  have hlen : batch.param.records.length = batch.asked.length := length_map _
  have hconfirms : (fun r => reporting.countP (confirms batch.param batch.manufacturerCode
      (ReportRspRecord.ofRecord
        ((lastSent frames batch.manufacturerCode r.readRecord).getD r).configureRecord))) =
      fun r => reporting.countP (comesBack batch.asked batch.manufacturerCode
        ((lastSent frames batch.manufacturerCode r.readRecord).getD r)) := by
    funext r
    congr 1
    funext report
    exact confirms_ofRecord _ _ _
  rw [hlen]
  show (batch.asked.map fun r => reporting.countP (confirms batch.param batch.manufacturerCode
    (ReportRspRecord.ofRecord
      ((lastSent frames batch.manufacturerCode r.readRecord).getD r).configureRecord))).sum = _ ↔ _
  rw [hconfirms]

/-! ## Attributes that are listed once -/

/-- No two reports of the manufacturer code are for one attribute. -/
def ListedOnce (reporting : List ZclReport) (manufacturerCode : UInt16) : Prop :=
  reporting.Pairwise fun r s => r.manufacturerCode = manufacturerCode → s.manufacturerCode =
    manufacturerCode → r.attributeId ≠ s.attributeId

instance (reporting : List ZclReport) (manufacturerCode : UInt16) :
    Decidable (ListedOnce reporting manufacturerCode) :=
  inferInstanceAs (Decidable (List.Pairwise _ _))

variable {reporting : List ZclReport} {manufacturerCode : UInt16}

theorem eq_of_listedOnce (h : ListedOnce reporting manufacturerCode) {r s : ZclReport}
    (hr : r ∈ reporting) (hs : s ∈ reporting) (hcode : r.manufacturerCode = manufacturerCode)
    (hcode' : s.manufacturerCode = manufacturerCode) (hattr : s.attributeId = r.attributeId) :
    s = r := by
  induction reporting with
  | nil => cases hr
  | cons t ts ih =>
    obtain ⟨ht, hts⟩ := pairwise_cons.mp h
    rcases mem_cons.mp hr with rfl | hrt
    · rcases mem_cons.mp hs with rfl | hst
      · rfl
      · exact absurd hattr.symm (ht s hst hcode hcode')
    · rcases mem_cons.mp hs with rfl | hst
      · exact absurd hattr (ht r hrt hcode' hcode)
      · exact ih hts hrt hst

theorem countP_of_unique (h : ListedOnce reporting manufacturerCode) {r : ZclReport}
    (hr : r ∈ reporting) (hcode : r.manufacturerCode = manufacturerCode) {p : ZclReport → Bool}
    (hp : ∀ s, p s = true → s.manufacturerCode = manufacturerCode ∧ s.attributeId = r.attributeId) :
    reporting.countP p = if p r then 1 else 0 := by
  induction reporting with
  | nil => cases hr
  | cons s rs ih =>
    obtain ⟨hs, hrs⟩ := pairwise_cons.mp h
    rcases mem_cons.mp hr with rfl | hmem
    · -- behind the entry there is no other
      have hnone : rs.countP p = 0 := by
        rw [countP_eq_zero]
        intro s hmem hps
        obtain ⟨hcode', hattr⟩ := hp s hps
        exact hs s hmem hcode hcode' hattr.symm
      rw [countP_cons, hnone, Nat.zero_add]
    · have hother : ¬ p s = true := by
        intro hps
        obtain ⟨hcode', hattr⟩ := hp s hps
        exact hs r hmem hcode' hcode hattr
      rw [countP_cons, ih hrs hmem, if_neg hother, Nat.add_zero]

/-- The frames hold reports of the binding, under their manufacturer code. -/
def SentFrom (reporting : List ZclReport) (frames : List ConfigureFrame) : Prop :=
  ∀ f ∈ frames, ∀ r ∈ f.reports, r ∈ reporting ∧ r.manufacturerCode = f.manufacturerCode

instance (reporting : List ZclReport) (frames : List ConfigureFrame) :
    Decidable (SentFrom reporting frames) :=
  inferInstanceAs (Decidable (∀ f ∈ frames, ∀ r ∈ f.reports, _ ∧ _))

theorem lastSent_mem (h : SentFrom reporting frames) {record : ReadReportRecord} {last : ZclReport}
    (hlast : lastSent frames manufacturerCode record = some last) :
    last ∈ reporting ∧ last.manufacturerCode = manufacturerCode ∧ last.attributeId =
      record.attributeId ∧ last.direction = record.direction := by
  unfold lastSent at hlast
  obtain ⟨e, hfind, rfl⟩ := Option.map_eq_some_iff.mp hlast
  have hfound := List.find?_some hfind
  have hkey := of_decide_eq_true hfound
  have hmem := mem_reverse.mp (mem_of_find?_eq_some hfind)
  obtain ⟨f, hf, he⟩ := mem_flatMap.mp hmem
  obtain ⟨r, hr, rfl⟩ := mem_map.mp he
  obtain ⟨hreporting, hcode⟩ := h f hf r hr
  exact ⟨hreporting, hcode.trans hkey.1, hkey.2⟩

theorem comesBack_self {asked : List ZclReport} {r : ZclReport} (hr : r ∈ asked)
    (hcode : r.manufacturerCode = manufacturerCode) :
    comesBack asked manufacturerCode r r = decide r.Fits := by
  have hasked : asked.any (fun s =>
      s.attributeId == r.attributeId && s.direction == r.direction) = true := by
    rw [any_eq_true]
    exact ⟨r, hr, by simp⟩
  have hcut : (r.reportableChange.toNat ==
      r.reportableChange.toNat % 256 ^ changeSize r.dataType) = decide r.Fits := by
    rw [Bool.eq_iff_iff, beq_iff_eq, decide_eq_true_iff]
    unfold ZclReport.Fits
    constructor
    · intro hsame
      rw [hsame]
      exact Nat.mod_lt _ (Nat.pow_pos (by decide))
    · exact fun hlt => (Nat.mod_eq_of_lt hlt).symm
  unfold comesBack
  rw [hasked, hcut, hcode]
  simp

theorem sum_ones {α : Type} {f : α → Nat} {p : α → Prop} [DecidablePred p] {xs : List α}
    (h : ∀ x ∈ xs, f x = if p x then 1 else 0) :
    (xs.map f).sum = xs.length ↔ ∀ x ∈ xs, p x := by
  have hle : ∀ ys : List α, (∀ y ∈ ys, f y = if p y then 1 else 0) → (ys.map f).sum ≤
      ys.length := by
    intro ys hys
    induction ys with
    | nil => exact Nat.le_refl 0
    | cons y ys ih =>
      have hy := hys y mem_cons_self
      have hrest := ih fun z hz => hys z (mem_cons_of_mem y hz)
      rw [map_cons, sum_cons, length_cons, hy]
      split <;> omega
  induction xs with
  | nil => simp
  | cons x xs ih =>
    have hxs := fun y hy => h y (mem_cons_of_mem x hy)
    have hbound := hle xs hxs
    rw [map_cons, sum_cons, length_cons, h x mem_cons_self, forall_mem_cons]
    by_cases hx : p x
    · rw [if_pos hx]
      constructor
      · exact fun hsum => ⟨hx, (ih hxs).mp (by omega)⟩
      · intro hall
        have hrest := (ih hxs).mpr hall.2
        omega
    · rw [if_neg hx]
      constructor
      · exact fun hsum => by omega
      · exact fun hall => absurd hall.1 hx

theorem returned_iff_fits (honce : ListedOnce reporting batch.manufacturerCode)
    (hframes : SentFrom reporting frames) (hmem : ∀ r ∈ batch.asked, r ∈ reporting)
    (hcode : ∀ r ∈ batch.asked, r.manufacturerCode = batch.manufacturerCode)
    (hsent : ∀ r ∈ batch.asked, (lastSent frames batch.manufacturerCode r.readRecord).isSome = true)
    :
    returned reporting frames batch = batch.asked.length ↔ ∀ r ∈ batch.asked, r.Fits := by
  apply sum_ones
  intro r hr
  obtain ⟨last, hlast⟩ := Option.isSome_iff_exists.mp (hsent r hr)
  obtain ⟨hlastMem, hlastCode, hlastAttr, -⟩ := lastSent_mem hframes hlast
  have hsame : last = r :=
    eq_of_listedOnce honce (hmem r hr) hlastMem (hcode r hr) hlastCode hlastAttr
  rw [hlast, Option.getD_some, hsame, countP_of_unique honce (hmem r hr) (hcode r hr),
    comesBack_self hr (hcode r hr)]
  · simp only [decide_eq_true_eq]
  · intro s hs
    unfold comesBack at hs
    simp only [Bool.and_eq_true, beq_iff_eq] at hs
    exact ⟨hs.1.1.1.1.2, hs.1.1.1.2⟩

def batchFrom (reporting : List ZclReport) (start bindingCheckRound : Nat) (now : Int)
    (clusterId : UInt16) (endpoint : UInt8) (trackers : List ReportTracker) : ReadBatch :=
  readBatch bindingCheckRound now clusterId endpoint (reporting.drop start)
    { reportIter := start, reportTrackers := trackers }

/-- **When the loop closes.**  A device that has got the configuration and returns what it
was sent last is accepted if and only if as many of the listed reports come back as are asked;
where no attribute is listed twice, if and only if every change that is asked fits its type. -/
theorem accepted_iff {reporting : List ZclReport} {frames : List ConfigureFrame}
    (hframes : SentFrom reporting frames) (store : ReportStore)
    (start bindingCheckRound : Nat) (now : Int) (clusterId : UInt16) (endpoint : UInt8)
    (trackers : List ReportTracker)
    (hsent : ∀ r ∈ (batchFrom reporting start bindingCheckRound now clusterId endpoint
      trackers).asked, ∃ f ∈ frames, r ∈ f.reports) :
    let batch := batchFrom reporting start bindingCheckRound now clusterId endpoint trackers
    (Accepted reporting store frames batch ↔ returned reporting frames batch = batch.asked.length) ∧
      (ListedOnce reporting batch.manufacturerCode →
        (Accepted reporting store frames batch ↔ ∀ r ∈ batch.asked, r.Fits)) := by
  intro batch
  have hfrom : ReadBatch.From { reportIter := start, reportTrackers := trackers } batch
      (reporting.drop start) :=
    readBatch_from bindingCheckRound now clusterId endpoint (reporting.drop start) _
      (fun r hr => absurd hr not_mem_nil) (Nat.zero_lt_succ 5)
  obtain ⟨more, hasked, hsub⟩ := hfrom.asked
  have hmem : ∀ r ∈ batch.asked, r ∈ reporting := by
    intro r hr
    rw [hasked, nil_append] at hr
    exact mem_of_mem_drop (hsub.mem hr)
  have hlast : ∀ r ∈ batch.asked, (lastSent frames batch.manufacturerCode r.readRecord).isSome =
      true := by
    intro r hr
    obtain ⟨f, hf, hrf⟩ := hsent r hr
    have hcode : f.manufacturerCode = batch.manufacturerCode :=
      (hframes f hf r hrf).2.symm.trans (hfrom.code r hr)
    unfold lastSent
    rw [Option.isSome_map, List.find?_isSome]
    refine ⟨(f.manufacturerCode, r), ?_, decide_eq_true ⟨hcode, rfl, rfl⟩⟩
    rw [mem_reverse, mem_flatMap]
    exact ⟨f, hf, mem_map_of_mem hrf⟩
  have hcount := accepted_iff_returned reporting store hfrom.length hlast
  exact ⟨hcount, fun honce =>
    hcount.trans (returned_iff_fits honce hframes hmem hfrom.code hlast)⟩

def onOffReport : ZclReport :=
  { attributeId := 0x0000, minInterval := 1, maxInterval := 300, dataType := 0x10,
    reportableChange := 1 }

/-- The device has got the report and returns it, and the gateway configures it again. -/
theorem onOffReport_rejected :
    ¬ Accepted [onOffReport] [] [{ manufacturerCode := 0, reports := [onOffReport] }]
      (batchFrom [onOffReport] 0 0 0 0x0006 1 []) := by
  decide +kernel

def powerReport : ZclReport :=
  { attributeId := 0x050b, minInterval := 5, maxInterval := 600, dataType := 0x29,
    reportableChange := 10 }

theorem accepted_iff_powerReport :
    Accepted [powerReport] [] [{ manufacturerCode := 0, reports := [powerReport] }]
      (batchFrom [powerReport] 0 0 0 0x0b04 1 []) := by
  have hframes : SentFrom [powerReport] [{ manufacturerCode := 0, reports := [powerReport] }] := by
    decide +kernel
  have haccepted := accepted_iff hframes [] 0 0 0 0x0b04 1 [] (by decide +kernel)
  exact (haccepted.2 (by decide +kernel)).mpr (by decide +kernel)

end DeconzRest

import DeconzRest.Lib.LittleEndian

/-!
# Reporting configuration on the wire

`ZCL_ConfigureReporting` writes the records of a configure reporting command,
`ZCL_ParseReadReportConfigurationRsp` reads the records that a device returns.  A record
holds a reportable change only where the data type is analog, in the width of the type.
-/

namespace DeconzRest

/-- `ZclDataType` -/
structure ZclDataType where
  dataType : UInt8
  analog : Bool
  size : Nat
deriving DecidableEq, Repr

/-- `deCONZ::ZclNoData`, the end of the table. -/
def zclNoData : ZclDataType := { dataType := 0x00, analog := false, size := 0 }

/-- `_zclDataTypes` in front of `ZclNoData`: integers, floats, and times. -/
def zclDataTypes : List ZclDataType := [
  { dataType := 0x20, analog := true, size := 1 },
  { dataType := 0x21, analog := true, size := 2 },
  { dataType := 0x22, analog := true, size := 3 },
  { dataType := 0x23, analog := true, size := 4 },
  { dataType := 0x24, analog := true, size := 5 },
  { dataType := 0x25, analog := true, size := 6 },
  { dataType := 0x26, analog := true, size := 7 },
  { dataType := 0x27, analog := true, size := 8 },
  { dataType := 0x28, analog := true, size := 1 },
  { dataType := 0x29, analog := true, size := 2 },
  { dataType := 0x2a, analog := true, size := 3 },
  { dataType := 0x2b, analog := true, size := 4 },
  { dataType := 0x2c, analog := true, size := 5 },
  { dataType := 0x2d, analog := true, size := 6 },
  { dataType := 0x2e, analog := true, size := 7 },
  { dataType := 0x2f, analog := true, size := 8 },
  { dataType := 0x39, analog := true, size := 4 },
  { dataType := 0x38, analog := true, size := 2 },
  { dataType := 0x3a, analog := true, size := 8 },
  { dataType := 0xe0, analog := true, size := 4 },
  { dataType := 0xe1, analog := true, size := 4 },
  { dataType := 0xe2, analog := true, size := 4 }]

/-- `ZCL_GetDataType` -/
def zclGetDataType (type : UInt8) : ZclDataType :=
  (zclDataTypes.find? fun dt => dt.dataType = type).getD zclNoData

/-- `ZCL_IsDataTypeAnalog` -/
def zclIsDataTypeAnalog (type : UInt8) : Bool := (zclGetDataType type).analog

/-- `ZCL_DataTypeSize` -/
def zclDataTypeSize (type : UInt8) : Nat := (zclGetDataType type).size

/-- The bytes of a reportable change: none if the type is discrete. -/
def changeSize (type : UInt8) : Nat := if zclIsDataTypeAnalog type then zclDataTypeSize type else 0

/-- What is read of a `deCONZ::ZclFrame`; the manufacturer code is 0 if the frame is not
manufacturer specific. -/
structure ZclFrame where
  manufacturerCode : UInt16
  payload : List UInt8
deriving DecidableEq, Repr

/-- `ZCL_ReadReportConfigurationParam::Record` -/
structure ReadReportRecord where
  attributeId : UInt16
  direction : UInt8
deriving DecidableEq, Repr

/-- `ZCL_ConfigureReportingParam::Record` -/
structure ConfigureRecord where
  reportableChange : UInt64
  attributeId : UInt16
  minInterval : UInt16
  maxInterval : UInt16
  direction : UInt8
  dataType : UInt8
deriving DecidableEq, Repr

/-- `ZCL_ReadReportConfigurationRsp::Record` -/
structure ReportRspRecord where
  reportableChange : UInt64 := 0
  attributeId : UInt16 := 0
  minInterval : UInt16 := 0
  maxInterval : UInt16 := 0
  status : UInt8 := 0
  direction : UInt8 := 0
  dataType : UInt8 := 0
deriving DecidableEq, Repr

/-- `deCONZ::ZclSuccessStatus` -/
def zclSuccessStatus : UInt8 := 0x00

/-- `MaxRecords` of the requests and of the response. -/
def maxRecords : Nat := 6

def configureRecord (record : ConfigureRecord) : List UInt8 :=
  writeLE 1 record.direction.toNat ++ writeLE 2 record.attributeId.toNat ++
    writeLE 1 record.dataType.toNat ++ writeLE 2 record.minInterval.toNat ++
    writeLE 2 record.maxInterval.toNat ++
    writeLE (changeSize record.dataType) record.reportableChange.toNat

/-- `ZCL_ConfigureReporting` -/
def zclConfigureReporting (manufacturerCode : UInt16) (records : List ConfigureRecord) : ZclFrame :=
  { manufacturerCode := manufacturerCode, payload := records.flatMap configureRecord }

/-- One record of a response, none if the payload ends in it. -/
def readReportRsp (bytes : List UInt8) : Option (ReportRspRecord × List UInt8) := do
  let (status, bytes) ← readLE 1 bytes
  let (direction, bytes) ← readLE 1 bytes
  let (attributeId, bytes) ← readLE 2 bytes
  let head : ReportRspRecord :=
    { status := UInt8.ofNat status, direction := UInt8.ofNat direction,
      attributeId := UInt16.ofNat attributeId }
  -- if the status is not success, the other fields shall be omitted
  if UInt8.ofNat status ≠ zclSuccessStatus then
    return (head, bytes)
  let (dataType, bytes) ← readLE 1 bytes
  let (minInterval, bytes) ← readLE 2 bytes
  let (maxInterval, bytes) ← readLE 2 bytes
  let (reportableChange, bytes) ← readLE (changeSize (UInt8.ofNat dataType)) bytes
  return ({ head with
    dataType := UInt8.ofNat dataType, minInterval := UInt16.ofNat minInterval,
    maxInterval := UInt16.ofNat maxInterval,
    reportableChange := UInt64.ofNat reportableChange }, bytes)

/-- The loop over the records, with the number of those that may still come. -/
def readReportRsps : Nat → List UInt8 → List ReportRspRecord
  | 0, _ => []
  | n + 1, bytes =>
    match readReportRsp bytes with
    | none => []
    | some (record, rest) => record :: readReportRsps n rest

/-- `ZCL_ReadReportConfigurationRsp` -/
structure ReportConfigurationRsp where
  manufacturerCode : UInt16
  records : List ReportRspRecord
deriving DecidableEq, Repr

/-- `ZCL_ParseReadReportConfigurationRsp` -/
def zclParseReadReportConfigurationRsp (frame : ZclFrame) : ReportConfigurationRsp :=
  { manufacturerCode := frame.manufacturerCode, records := readReportRsps maxRecords frame.payload }

structure StoredReport where
  direction : UInt8
  attributeId : UInt16
  dataType : UInt8
  minInterval : UInt16
  maxInterval : UInt16
  change : List UInt8
deriving DecidableEq, Repr

def readStored (bytes : List UInt8) : Option (StoredReport × List UInt8) := do
  let (direction, bytes) ← readLE 1 bytes
  let (attributeId, bytes) ← readLE 2 bytes
  let (dataType, bytes) ← readLE 1 bytes
  let (minInterval, bytes) ← readLE 2 bytes
  let (maxInterval, bytes) ← readLE 2 bytes
  let size := changeSize (UInt8.ofNat dataType)
  if bytes.length < size then
    none
  return ({ direction := UInt8.ofNat direction, attributeId := UInt16.ofNat attributeId,
            dataType := UInt8.ofNat dataType, minInterval := UInt16.ofNat minInterval,
            maxInterval := UInt16.ofNat maxInterval, change := bytes.take size },
    bytes.drop size)

/-- All records of the command; `n` is the number of bytes at most. -/
def readStoreds : Nat → List UInt8 → List StoredReport
  | 0, _ => []
  | n + 1, bytes =>
    match readStored bytes with
    | none => []
    | some (report, rest) => report :: readStoreds n rest

abbrev ReportStore := List (UInt16 × StoredReport)

def ReportStore.configure (store : ReportStore) (frame : ZclFrame) : ReportStore :=
  (readStoreds frame.payload.length frame.payload).foldl
    (fun store report => (frame.manufacturerCode, report) :: store) store

def ReportStore.lookup (store : ReportStore) (manufacturerCode : UInt16)
    (record : ReadReportRecord) : Option StoredReport :=
  (store.find? fun entry => decide (entry.1 = manufacturerCode ∧ entry.2.attributeId =
    record.attributeId ∧ entry.2.direction = record.direction)).map (·.2)

/-- `NOT_FOUND` -/
def zclNotFound : UInt8 := 0x8b

def reportRsp (record : ReadReportRecord) : Option StoredReport → List UInt8
  | none =>
    writeLE 1 zclNotFound.toNat ++ writeLE 1 record.direction.toNat ++
      writeLE 2 record.attributeId.toNat
  | some report =>
    writeLE 1 zclSuccessStatus.toNat ++ writeLE 1 report.direction.toNat ++
      writeLE 2 report.attributeId.toNat ++ writeLE 1 report.dataType.toNat ++
      writeLE 2 report.minInterval.toNat ++ writeLE 2 report.maxInterval.toNat ++ report.change

def ReportStore.respond (store : ReportStore) (manufacturerCode : UInt16)
    (records : List ReadReportRecord) : ZclFrame :=
  { manufacturerCode := manufacturerCode,
    payload := records.flatMap fun record => reportRsp record (store.lookup manufacturerCode record) }

/-! ## Round trips -/

theorem readLE_byte (b : UInt8) (rest : List UInt8) :
    readLE 1 (writeLE 1 b.toNat ++ rest) = some (b.toNat, rest) :=
  readLE_writeLE_of_lt (by have := b.toNat_lt; omega) rest

theorem readLE_word (w : UInt16) (rest : List UInt8) :
    readLE 2 (writeLE 2 w.toNat ++ rest) = some (w.toNat, rest) :=
  readLE_writeLE_of_lt (by have := w.toNat_lt; omega) rest

def StoredReport.ofRecord (record : ConfigureRecord) : StoredReport :=
  { direction := record.direction, attributeId := record.attributeId,
    dataType := record.dataType, minInterval := record.minInterval,
    maxInterval := record.maxInterval,
    change := writeLE (changeSize record.dataType) record.reportableChange.toNat }

theorem readStored_configureRecord (record : ConfigureRecord) (rest : List UInt8) :
    readStored (configureRecord record ++ rest) = some (StoredReport.ofRecord record, rest) := by
  have hsize := length_writeLE (changeSize record.dataType) record.reportableChange.toNat
  unfold readStored configureRecord StoredReport.ofRecord
  simp only [List.append_assoc, readLE_byte, readLE_word, UInt8.ofNat_toNat, UInt16.ofNat_toNat,
    Option.bind_eq_bind, Option.bind_some, Option.pure_def]
  rw [if_neg (by rw [List.length_append]; omega), List.take_left' hsize, List.drop_left' hsize]

theorem readStoreds_flatMap (records : List ConfigureRecord) {n : Nat}
    (h : records.length ≤ n) :
    readStoreds n (records.flatMap configureRecord) = records.map StoredReport.ofRecord := by
  induction records generalizing n with
  | nil =>
    cases n with
    | zero => rfl
    | succ n => rfl
  | cons record records ih =>
    cases n with
    | zero => simp at h
    | succ n =>
      rw [List.flatMap_cons, readStoreds, readStored_configureRecord]
      simp only
      rw [ih (by simpa using h), List.map_cons]

theorem length_flatMap_configureRecord (records : List ConfigureRecord) :
    records.length ≤ (records.flatMap configureRecord).length := by
  induction records with
  | nil => exact Nat.le_refl 0
  | cons record records ih =>
    have hrecord : 1 ≤ (configureRecord record).length := by
      unfold configureRecord
      simp only [List.length_append, length_writeLE]
      omega
    rw [List.flatMap_cons, List.length_append, List.length_cons]
    omega

/-- The record of the response that belongs to a record that was sent: the change is cut to
the width of the data type. -/
def ReportRspRecord.ofRecord (record : ConfigureRecord) : ReportRspRecord :=
  { reportableChange :=
      UInt64.ofNat (record.reportableChange.toNat % 256 ^ changeSize record.dataType),
    attributeId := record.attributeId, minInterval := record.minInterval,
    maxInterval := record.maxInterval, status := zclSuccessStatus,
    direction := record.direction, dataType := record.dataType }

theorem readReportRsp_ofRecord (asked : ReadReportRecord) (record : ConfigureRecord)
    (rest : List UInt8) :
    readReportRsp (reportRsp asked (some (StoredReport.ofRecord record)) ++ rest) =
      some (ReportRspRecord.ofRecord record, rest) := by
  unfold readReportRsp reportRsp StoredReport.ofRecord ReportRspRecord.ofRecord
  simp only [List.append_assoc, readLE_byte, readLE_word, UInt8.ofNat_toNat, UInt16.ofNat_toNat,
    Option.bind_eq_bind, Option.bind_some, Option.pure_def]
  rw [if_neg (not_not.mpr rfl), readLE_writeLE]
  rfl

theorem readReportRsps_flatMap {α : Type} (asked : α → ReadReportRecord)
    (sent : α → ConfigureRecord) (xs : List α) {n : Nat} (h : xs.length ≤ n) :
    readReportRsps n
        (xs.flatMap fun x => reportRsp (asked x) (some (StoredReport.ofRecord (sent x)))) =
      xs.map fun x => ReportRspRecord.ofRecord (sent x) := by
  induction xs generalizing n with
  | nil =>
    cases n with
    | zero => rfl
    | succ n => rfl
  | cons x xs ih =>
    cases n with
    | zero => simp at h
    | succ n =>
      rw [List.flatMap_cons, readReportRsps, readReportRsp_ofRecord]
      simp only
      rw [ih (by simpa using h), List.map_cons]

end DeconzRest

import DeconzRest.Lib.DataStream
import Mathlib.Algebra.Ring.Int.Defs

/-!
# Datapoints of the Tuya cluster

`parseTuyaData` goes through the datapoints of a Tuya message and evaluates an item for those with
the item's datapoint identifier.  It goes on behind as many bytes as the data type implies.  That is
the length of the value for all types but raw, whose value stays in front of it: its bytes are read
as the next datapoints (`parseTuyaData_raw`).
-/

namespace DeconzRest
namespace Tuya

open List Option

/-! ## The parser -/

inductive ZclDataType where
  | none | characterString | boolean | uint8 | uint16 | uint32 | int32
deriving DecidableEq, Repr

/-- A call of `evalZclAttribute`, with the place of its datapoint in the payload -/
structure Evaluation where
  offset : Nat
  attrIndex : Nat
  dpid : Nat
  zclDataType : ZclDataType
  value : Int
deriving DecidableEq, Repr

/-- The switch over the data type: the number in the union, whose lowest bytes a small number takes,
and the ZCL data type, which stays as it was for a bitmap of another length; none where the function
returns -/
def readValue (dataType dataLength : Nat) (zclDataType : ZclDataType) (stream : DataStream) :
    Option (Nat × ZclDataType × DataStream) :=
  match dataType with
  -- not setting value because need too much resources
  | 0x00 => some (0, .characterString, stream)
  | 0x01 => some ((stream.readBig 1).1, .boolean, (stream.readBig 1).2)
  | 0x02 => some ((stream.readBig 4).1, .int32, (stream.readBig 4).2)
  | 0x04 => some ((stream.readBig 1).1, .uint8, (stream.readBig 1).2)
  | 0x05 =>
    match dataLength with
    | 1 => some ((stream.readBig 1).1, .uint8, (stream.readBig 1).2)
    | 2 => some ((stream.readBig 2).1, .uint16, (stream.readBig 2).2)
    | 4 => some ((stream.readBig 4).1, .uint32, (stream.readBig 4).2)
    | _ => some (0, zclDataType, stream)
  -- a string or an unknown type
  | _ => none

def signed32 (num : Nat) : Int := if num < 2 ^ 31 then num else (num : Int) - 2 ^ 32

def attrValue (zclDataType : ZclDataType) (num : Nat) : Int :=
  if zclDataType = .int32 then signed32 num else num

/-- The loop of `parseTuyaData` for the item with the identifier `dpid`: the evaluations that are
made in a payload of `size` bytes.  Every turn takes a byte at least, so `fuel` need not be more
than the bytes that are left. -/
def datapointLoop (dpid size : Nat) : Nat → Nat → ZclDataType → DataStream → List Evaluation
  | 0, _, _, _ => []
  | fuel + 1, attrIndex, zclDataType, stream =>
    if stream.bytes = [] then []
    else
      let (id, header) := stream.readBig 1
      let (dataType, header) := header.readBig 1
      let (dataLength, header) := header.readBig 2
      if header.readPastEnd then []
      else
        match readValue dataType dataLength zclDataType header with
        | none => []
        | some (num, zclDataType, rest) =>
          let more := datapointLoop dpid size fuel (attrIndex + 1) zclDataType rest
          if id = dpid then
            ⟨size - stream.bytes.length, attrIndex, id, zclDataType,
              attrValue zclDataType num⟩ :: more
          else more

/-- `TUYA_CLUSTER_ID` -/
def tuyaClusterId : UInt16 := 0xEF00

/-- `TY_DATA_RESPONSE`, `TY_DATA_REPORT` and `TY_DATA_STATUS_SEARCH` -/
def dataCommands : List UInt8 := [0x01, 0x02, 0x06]

/-- `parseTuyaData` for an item whose parse function is set: the result and the evaluations.  The
parameter `evaluate` stands for the expression of the item. -/
def parseTuyaData (evaluate : Evaluation → Bool) (dpid : UInt16) (clusterId : UInt16)
    (commandId : UInt8) (payload : List UInt8) : Bool × List Evaluation :=
  if clusterId ≠ tuyaClusterId ∨ commandId ∉ dataCommands then (false, [])
  else
    let stream := (DataStream.readBig 2 ⟨payload, false⟩).2
    let evaluations := datapointLoop dpid.toNat payload.length payload.length 0 .none stream
    (evaluations.any evaluate, evaluations)

inductive DataType where
  | raw | bool | value | enum | bitmap
deriving DecidableEq, Repr

/-- `TuyaDataType` -/
def DataType.code : DataType → UInt8
  | .raw => 0x00
  | .bool => 0x01
  | .value => 0x02
  | .enum => 0x04
  | .bitmap => 0x05

/-- The lengths that a value of the type may have -/
def DataType.Allows : DataType → Nat → Prop
  | .raw, n => n < 2 ^ 16
  | .bool, n => n = 1
  | .value, n => n = 4
  | .enum, n => n = 1
  | .bitmap, n => n = 1 ∨ n = 2 ∨ n = 4

instance (type : DataType) (n : Nat) : Decidable (type.Allows n) := by
  cases type <;> unfold DataType.Allows <;> infer_instance

structure Datapoint where
  dpid : UInt8
  type : DataType
  value : List UInt8
  allowed : type.Allows value.length

namespace Datapoint

def encode (dp : Datapoint) : List UInt8 :=
  dp.dpid :: dp.type.code :: .ofNat (dp.value.length / 256) :: .ofNat dp.value.length :: dp.value

/-- The ZCL data type that stands for the data type -/
def zclDataType (dp : Datapoint) : ZclDataType :=
  match dp.type with
  | .raw => .characterString
  | .bool => .boolean
  | .value => .int32
  | .enum => .uint8
  | .bitmap =>
    if dp.value.length = 1 then .uint8 else if dp.value.length = 2 then .uint16 else .uint32

/-- The number that the value is; for a raw datapoint none is set. -/
def number (dp : Datapoint) : Int :=
  match dp.type with
  | .raw => 0
  | .value => signed32 (DataStream.bigNumber dp.value)
  | _ => DataStream.bigNumber dp.value

end Datapoint

def message (seq : UInt8 × UInt8) (dps : List Datapoint) : List UInt8 :=
  seq.1 :: seq.2 :: dps.flatMap Datapoint.encode

/-- The evaluations of the item for the datapoints, of which the first stands at `offset` -/
def expected (dpid : Nat) : Nat → Nat → List Datapoint → List Evaluation
  | _, _, [] => []
  | offset, i, dp :: dps =>
    let more := expected dpid (offset + dp.encode.length) (i + 1) dps
    if dp.dpid.toNat = dpid then
      ⟨offset, i, dp.dpid.toNat, dp.zclDataType, dp.number⟩ :: more
    else more

/-! ## Turns of the loop -/

variable {dpid size fuel attrIndex : Nat} {zclDataType : ZclDataType}

theorem datapointLoop_end {readPastEnd : Bool} :
    datapointLoop dpid size fuel attrIndex zclDataType ⟨[], readPastEnd⟩ = [] := by
  cases fuel with
  | zero => rfl
  | succ fuel => rw [datapointLoop, if_pos rfl]

theorem length_readValue {dataType dataLength num : Nat} {newType : ZclDataType}
    {stream rest : DataStream}
    (h : readValue dataType dataLength zclDataType stream = some (num, newType, rest)) :
    rest.bytes.length ≤ stream.bytes.length := by
  have hread : ∀ n, (stream.readBig n).2.bytes.length ≤ stream.bytes.length := fun n =>
    Nat.le_trans (stream.length_readBig n) (Nat.sub_le _ _)
  have hrest : rest = stream ∨ ∃ n, rest = (stream.readBig n).2 := by
    unfold readValue at h
    split at h
    case h_5 =>
      split at h
      case h_4 => exact .inl (Prod.mk.inj (Prod.mk.inj (some.inj h)).2).2.symm
      all_goals exact .inr ⟨_, (Prod.mk.inj (Prod.mk.inj (some.inj h)).2).2.symm⟩
    case h_1 => exact .inl (Prod.mk.inj (Prod.mk.inj (some.inj h)).2).2.symm
    case h_6 => cases h
    all_goals exact .inr ⟨_, (Prod.mk.inj (Prod.mk.inj (some.inj h)).2).2.symm⟩
  rcases hrest with rfl | ⟨n, rfl⟩
  · exact Nat.le_refl _
  · exact hread n

theorem datapointLoop_fuel {stream : DataStream} (h : stream.bytes.length ≤ fuel) (extra : Nat) :
    datapointLoop dpid size (fuel + extra) attrIndex zclDataType stream =
      datapointLoop dpid size fuel attrIndex zclDataType stream := by
  induction fuel generalizing attrIndex zclDataType stream with
  | zero =>
    obtain ⟨bytes, readPastEnd⟩ := stream
    have hend : bytes = [] := eq_nil_of_length_eq_zero (Nat.le_zero.mp h)
    rw [hend, datapointLoop_end, datapointLoop_end]
  | succ fuel ih =>
    rw [Nat.add_right_comm, datapointLoop, datapointLoop]
    split
    · rfl
    · simp only
      split
      · rfl
      · split
        · rfl
        · rename_i num newType rest hread
          have hfirst := stream.length_readBig 1
          have hsecond := (stream.readBig 1).2.length_readBig 1
          have hheader := ((stream.readBig 1).2.readBig 1).2.length_readBig 2
          have hrest := length_readValue hread
          have hpos : stream.bytes.length ≠ 0 :=
            mt eq_nil_of_length_eq_zero (by assumption)
          rw [ih (by omega)]

theorem datapointLoop_header (id type high low : UInt8) (bytes : List UInt8) :
    datapointLoop dpid size (fuel + 1) attrIndex zclDataType
        ⟨id :: type :: high :: low :: bytes, false⟩ =
      match readValue type.toNat (high.toNat * 256 + low.toNat) zclDataType ⟨bytes, false⟩ with
      | none => []
      | some (num, zclDataType, rest) =>
        let more := datapointLoop dpid size fuel (attrIndex + 1) zclDataType rest
        if id.toNat = dpid then
          ⟨size - (bytes.length + 4), attrIndex, id.toNat, zclDataType,
            attrValue zclDataType num⟩ :: more
        else more := by
  rw [datapointLoop, if_neg (cons_ne_nil _ _)]
  simp only [DataStream.readBig_byte, DataStream.readBig_two]
  rfl

theorem datapointLoop_short {bytes : List UInt8} (h : bytes.length < 4) :
    datapointLoop dpid size fuel attrIndex zclDataType ⟨bytes, false⟩ = [] := by
  cases fuel with
  | zero => rfl
  | succ fuel =>
    match bytes with
    | [] => exact datapointLoop_end
    | [id] => rfl
    | [id, type] =>
      rw [datapointLoop, if_neg (cons_ne_nil _ _)]
      simp only [DataStream.readBig_byte]
      rfl
    | [id, type, high] =>
      rw [datapointLoop, if_neg (cons_ne_nil _ _)]
      simp only [DataStream.readBig_byte]
      rfl
    | _ :: _ :: _ :: _ :: _ => simp at h; omega

/-- The bytes of the value that a turn does not read -/
def Datapoint.leftover (dp : Datapoint) : List UInt8 :=
  if dp.type = .raw then dp.value else []

variable (dp : Datapoint)

theorem Datapoint.length_lt : dp.value.length < 2 ^ 16 := by
  have h := dp.allowed
  unfold DataType.Allows at h
  split at h <;> omega

theorem Datapoint.length_eq :
    (UInt8.ofNat (dp.value.length / 256)).toNat * 256 + (UInt8.ofNat dp.value.length).toNat =
      dp.value.length := by
  have h := dp.length_lt
  rw [UInt8.toNat_ofNat', UInt8.toNat_ofNat']
  omega

theorem readValue_datapoint (rest : List UInt8) :
    ∃ num, readValue dp.type.code.toNat dp.value.length zclDataType ⟨dp.value ++ rest, false⟩ =
        some (num, dp.zclDataType, ⟨dp.leftover ++ rest, false⟩) ∧
      attrValue dp.zclDataType num = dp.number := by
  have hread := @DataStream.readBig_append rest false dp.value
  obtain ⟨dpid, type, value, hallowed⟩ := dp
  cases type with
  | raw => exact ⟨0, rfl, rfl⟩
  | bool | enum =>
    have hlength : value.length = 1 := hallowed
    simp only [hlength] at hread
    refine ⟨DataStream.bigNumber value, ?_, rfl⟩
    show some ((DataStream.readBig 1 _).1, _, (DataStream.readBig 1 _).2) = _
    rw [hread]
    rfl
  | value =>
    have hlength : value.length = 4 := hallowed
    simp only [hlength] at hread
    refine ⟨DataStream.bigNumber value, ?_, rfl⟩
    show some ((DataStream.readBig 4 _).1, _, (DataStream.readBig 4 _).2) = _
    rw [hread]
    rfl
  | bitmap =>
    refine ⟨DataStream.bigNumber value, ?_, ?_⟩
    · rcases hallowed with hlength | hlength | hlength <;>
        simp only [hlength] at hread ⊢ <;>
        simp [readValue, DataType.code, Datapoint.zclDataType, Datapoint.leftover, hlength, hread]
    · rcases hallowed with hlength | hlength | hlength <;>
        simp [attrValue, Datapoint.zclDataType, Datapoint.number, hlength]

theorem datapointLoop_datapoint (rest : List UInt8) :
    datapointLoop dpid size (fuel + 1) attrIndex zclDataType ⟨dp.encode ++ rest, false⟩ =
      let more := datapointLoop dpid size fuel (attrIndex + 1) dp.zclDataType
        ⟨dp.leftover ++ rest, false⟩
      if dp.dpid.toNat = dpid then
        ⟨size - (dp.encode ++ rest).length, attrIndex, dp.dpid.toNat, dp.zclDataType,
          dp.number⟩ :: more
      else more := by
  obtain ⟨num, hread, hvalue⟩ := @readValue_datapoint zclDataType dp rest
  have hlength : (dp.encode ++ rest).length = (dp.value ++ rest).length + 4 := by
    simp [Datapoint.encode]
  rw [hlength]
  unfold Datapoint.encode
  simp only [cons_append]
  rw [datapointLoop_header, dp.length_eq, hread]
  simp only [hvalue]

theorem Datapoint.length_encode : dp.encode.length = dp.value.length + 4 := rfl

variable {offset i : Nat} {dps : List Datapoint}

theorem le_offset_of_expected {e : Evaluation} (h : e ∈ expected dpid offset i dps) :
    offset ≤ e.offset := by
  induction dps generalizing offset i with
  | nil => exact absurd h not_mem_nil
  | cons dp dps ih =>
    rw [expected] at h
    split at h
    · rcases mem_cons.mp h with rfl | h
      · exact Nat.le_refl _
      · exact Nat.le_trans (Nat.le_add_right _ _) (ih h)
    · exact Nat.le_trans (Nat.le_add_right _ _) (ih h)

/-! ## Raw datapoints -/

def knownTypes : List UInt8 := [0x00, 0x01, 0x02, 0x04, 0x05]

/-- Read as a datapoint, the bytes end the loop: they are too few, or the type is none of those that
the loop goes on for. -/
def EndsLoop (bytes : List UInt8) : Prop :=
  bytes.length < 4 ∨ ∀ type, bytes[1]? = some type → type ∉ knownTypes

theorem readValue_eq_none_iff {type : UInt8} {dataLength : Nat} {stream : DataStream} :
    readValue type.toNat dataLength zclDataType stream = none ↔ type ∉ knownTypes := by
  have hknown : type ∈ knownTypes ↔ type.toNat = 0 ∨ type.toNat = 1 ∨ type.toNat = 2 ∨ type.toNat =
      4 ∨ type.toNat = 5 := by
    simp only [knownTypes, mem_cons, not_mem_nil, or_false, ← UInt8.toNat_inj]
    rfl
  rw [hknown]
  unfold readValue
  split
  case h_5 => split <;> simp only [reduceCtorEq, false_iff, not_not] <;> omega
  case h_6 h0 h1 h2 h4 h5 =>
    exact iff_of_true rfl (not_or.mpr ⟨h0, not_or.mpr ⟨h1, not_or.mpr ⟨h2, not_or.mpr ⟨h4, h5⟩⟩⟩⟩)
  all_goals
    simp only [reduceCtorEq, false_iff, not_not]
    omega

/-- Every raw datapoint with a value is the last one, and its value ends the loop. -/
def RawEnds (dps : List Datapoint) : Prop :=
  ∀ front dp back, dps = front ++ dp :: back → dp.type = .raw → dp.value ≠ [] → back = [] ∧
    EndsLoop dp.value

theorem rawEnds_nil : RawEnds [] := by
  intro front dp back heq
  exact absurd heq (by simp)

theorem rawEnds_cons {dp : Datapoint} :
    RawEnds (dp :: dps) ↔ (dp.type = .raw → dp.value ≠ [] → dps = [] ∧ EndsLoop dp.value) ∧
      RawEnds dps := by
  constructor
  · intro h
    exact ⟨h [] dp dps rfl, fun front dp' back heq => h (dp :: front) dp' back (by rw [heq]; rfl)⟩
  · rintro ⟨hfirst, hrest⟩ front dp' back heq
    cases front with
    | nil =>
      obtain ⟨rfl, rfl⟩ := List.cons.inj heq
      exact hfirst
    | cons first front =>
      obtain ⟨-, heq⟩ := List.cons.inj heq
      exact hrest front dp' back heq

theorem exists_expected (h : dps ≠ []) :
    ∃ dpid : UInt16, expected dpid.toNat offset i dps ≠ [] := by
  cases dps with
  | nil => exact absurd rfl h
  | cons dp dps =>
    refine ⟨dp.dpid.toUInt16, ?_⟩
    rw [expected, if_pos (UInt8.toNat_toUInt16 _).symm]
    exact cons_ne_nil _ _

theorem expected_eq_nil_iff :
    (∀ dpid : UInt16, [] = expected dpid.toNat offset i dps) ↔ dps = [] := by
  refine ⟨fun h => ?_, ?_⟩
  · by_contra hne
    obtain ⟨dpid, hsome⟩ := @exists_expected offset i dps hne
    exact hsome (h dpid).symm
  · rintro rfl _
    rfl

theorem exists_header {bytes : List UInt8} (h : 4 ≤ bytes.length) :
    ∃ id type high low rest, bytes = id :: type :: high :: low :: rest := by
  match bytes with
  | id :: type :: high :: low :: rest => exact ⟨id, type, high, low, rest, rfl⟩
  | [] | [_] | [_, _] | [_, _, _] => simp at h

theorem endsLoop_header {id type high low : UInt8} {rest : List UInt8} :
    EndsLoop (id :: type :: high :: low :: rest) ↔ type ∉ knownTypes := by
  have hlong : ¬ (id :: type :: high :: low :: rest).length < 4 := by
    simp only [length_cons]
    omega
  unfold EndsLoop
  simp only [List.getElem?_cons_succ, List.getElem?_cons_zero, Option.some.injEq, forall_eq',
    or_iff_right hlong]

theorem datapointLoop_raw {value : List UInt8} {back : List Datapoint} {offset : Nat}
    (hvalue : value ≠ []) (hsize : size = offset + (back.flatMap Datapoint.encode).length)
    (hoffset : 0 < offset) (hfuel : 0 < fuel) :
    (∀ dpid : UInt16, datapointLoop dpid.toNat size fuel attrIndex zclDataType
        ⟨value ++ back.flatMap Datapoint.encode, false⟩ =
          expected dpid.toNat offset attrIndex back) ↔ back = [] ∧ EndsLoop value := by
  have hpos : 0 < value.length := length_pos_iff.mpr hvalue
  have hlength : (value ++ back.flatMap Datapoint.encode).length + offset = value.length +
      size := by
    rw [List.length_append]
    omega
  rcases Nat.lt_or_ge (value ++ back.flatMap Datapoint.encode).length 4 with hshort | hlong
  · simp only [datapointLoop_short hshort]
    rw [expected_eq_nil_iff]
    refine ⟨fun hback => ⟨hback, .inl ?_⟩, And.left⟩
    rw [hback, flatMap_nil, append_nil] at hshort
    exact hshort
  · obtain ⟨fuel, rfl⟩ : ∃ k, fuel = k + 1 := ⟨fuel - 1, by omega⟩
    obtain ⟨id, type, high, low, bytes, hbytes⟩ := exists_header hlong
    have hends : back = [] → (EndsLoop value ↔ type ∉ knownTypes) := by
      rintro rfl
      rw [flatMap_nil, append_nil] at hbytes
      rw [hbytes, endsLoop_header]
    rw [hbytes] at hlength ⊢
    simp only [datapointLoop_header]
    by_cases htype : type ∉ knownTypes
    · simp only [readValue_eq_none_iff.mpr htype]
      rw [expected_eq_nil_iff]
      exact ⟨fun hback => ⟨hback, (hends hback).mpr htype⟩, And.left⟩
    · refine iff_of_false (fun h => ?_) fun ⟨hback, hendsLoop⟩ => htype ((hends hback).mp hendsLoop)
      obtain ⟨⟨num, newType, rest⟩, hread⟩ := ne_none_iff_exists'.mp
        (mt readValue_eq_none_iff.mp htype)
      have hid := h id.toUInt16
      rw [hread] at hid
      simp only at hid
      rw [if_pos (UInt8.toNat_toUInt16 _).symm] at hid
      -- the item is evaluated for bytes in front of everything that is expected
      have hfirst := le_offset_of_expected (hid ▸ mem_cons_self)
      simp only [length_cons] at hlength hfirst
      omega

/-- The evaluations are right for all items if and only if the raw datapoints with a value are at
the end and end the loop. -/
theorem datapointLoop_iff {offset : Nat}
    (hsize : size = offset + (dps.flatMap Datapoint.encode).length) (hoffset : 0 < offset)
    (hfuel : (dps.flatMap Datapoint.encode).length ≤ fuel) :
    (∀ dpid : UInt16, datapointLoop dpid.toNat size fuel attrIndex zclDataType
        ⟨dps.flatMap Datapoint.encode, false⟩ = expected dpid.toNat offset attrIndex dps) ↔
      RawEnds dps := by
  induction dps generalizing offset fuel attrIndex zclDataType with
  | nil => exact iff_of_true (fun _ => datapointLoop_end) rawEnds_nil
  | cons dp dps ih =>
    rw [flatMap_cons, List.length_append, dp.length_encode] at hfuel hsize
    obtain ⟨fuel, rfl⟩ : ∃ k, fuel = k + 1 := ⟨fuel - 1, by omega⟩
    have hplace : size - (dp.encode ++ dps.flatMap Datapoint.encode).length = offset := by
      rw [List.length_append, dp.length_encode]
      omega
    have htail : (∀ dpid : UInt16, datapointLoop dpid.toNat size (fuel + 1) attrIndex zclDataType
        ⟨(dp :: dps).flatMap Datapoint.encode, false⟩ =
          expected dpid.toNat offset attrIndex (dp :: dps)) ↔
        ∀ dpid : UInt16, datapointLoop dpid.toNat size fuel (attrIndex + 1) dp.zclDataType
          ⟨dp.leftover ++ dps.flatMap Datapoint.encode, false⟩ =
            expected dpid.toNat (offset + dp.encode.length) (attrIndex + 1) dps := by
      refine forall_congr' fun dpid => ?_
      rw [flatMap_cons, datapointLoop_datapoint, expected, hplace]
      simp only
      split
      · rw [cons_inj_right]
      · rfl
    have hnext : size = offset + dp.encode.length + (dps.flatMap Datapoint.encode).length := by
      rw [dp.length_encode]
      omega
    rw [htail, rawEnds_cons]
    by_cases hraw : dp.type = .raw ∧ dp.value ≠ []
    · obtain ⟨htype, hvalue⟩ := hraw
      have hleft : dp.leftover = dp.value := if_pos htype
      have hpos : 0 < dp.value.length := length_pos_iff.mpr hvalue
      rw [hleft, datapointLoop_raw hvalue hnext (by omega) (by omega)]
      refine ⟨fun hends => ⟨fun _ _ => hends, ?_⟩, fun hends => hends.1 htype hvalue⟩
      rw [hends.1]
      exact rawEnds_nil
    · have hleft : dp.leftover = [] := by
        unfold Datapoint.leftover
        split
        · rename_i htype
          exact not_not.mp fun hvalue => hraw ⟨htype, hvalue⟩
        · rfl
      rw [hleft, nil_append, ih hnext (by omega) (by omega)]
      exact ⟨fun hrest => ⟨fun htype hvalue => absurd ⟨htype, hvalue⟩ hraw, hrest⟩, And.right⟩

/-- The item is evaluated for its datapoints, once for each, in order and at their places, and is
handed their values; the value of a raw datapoint is not set, so it has to be empty. -/
def EvaluatesAll (dpid : UInt16) (dps : List Datapoint) (evaluations : List Evaluation) : Prop :=
  evaluations = expected dpid.toNat 2 0 dps ∧ ∀ dp ∈ dps, dp.dpid.toNat = dpid.toNat → dp.type =
    .raw → dp.value = []

theorem parseTuyaData_message (evaluate : Evaluation → Bool) (dpid : UInt16) {commandId : UInt8}
    (hcommand : commandId ∈ dataCommands) (seq : UInt8 × UInt8) (dps : List Datapoint) :
    (parseTuyaData evaluate dpid tuyaClusterId commandId (message seq dps)).2 =
      datapointLoop dpid.toNat (2 + (dps.flatMap Datapoint.encode).length)
        (2 + (dps.flatMap Datapoint.encode).length) 0 .none
          ⟨dps.flatMap Datapoint.encode, false⟩ := by
  have hlength : (message seq dps).length = 2 + (dps.flatMap Datapoint.encode).length :=
    Nat.add_comm _ 2
  unfold parseTuyaData
  rw [if_neg (by simp [hcommand]), hlength]
  unfold message
  simp only [DataStream.readBig_two]

/-- **Datapoints**: every item is evaluated for its datapoints if and only if no raw datapoint of
the message has a value.  Apart from the values of raw datapoints, which are not set on purpose, the
evaluations are also right where only the last datapoint is raw and has a value that ends the
loop. -/
theorem parseTuyaData_raw (evaluate : Evaluation → Bool) {commandId : UInt8}
    (hcommand : commandId ∈ dataCommands) (seq : UInt8 × UInt8) (dps : List Datapoint) :
    ((∀ dpid : UInt16, EvaluatesAll dpid dps
        (parseTuyaData evaluate dpid tuyaClusterId commandId (message seq dps)).2) ↔
      ∀ dp ∈ dps, dp.type = .raw → dp.value = []) ∧
    ((∀ dpid : UInt16,
        (parseTuyaData evaluate dpid tuyaClusterId commandId (message seq dps)).2 =
          expected dpid.toNat 2 0 dps) ↔ RawEnds dps) := by
  have hevaluations : (∀ dpid : UInt16,
      (parseTuyaData evaluate dpid tuyaClusterId commandId (message seq dps)).2 =
        expected dpid.toNat 2 0 dps) ↔ RawEnds dps := by
    simp only [parseTuyaData_message evaluate _ hcommand]
    exact datapointLoop_iff rfl (by decide) (by omega)
  refine ⟨⟨fun h dp hdp hraw => ?_, fun h dpid => ⟨?_, fun dp hdp _ => h dp hdp⟩⟩, hevaluations⟩
  · exact (h dp.dpid.toUInt16).2 dp hdp (UInt8.toNat_toUInt16 _).symm hraw
  · refine hevaluations.mpr (fun front dp back heq hraw hvalue => absurd ?_ hvalue) dpid
    exact h dp (heq ▸ mem_append_right _ mem_cons_self) hraw

def rawDatapoint : Datapoint := ⟨0x0A, .raw, [0x06, 0x00, 0x14], by decide⟩

def switchDatapoint : Datapoint := ⟨0x01, .bool, [0x01], by decide⟩

/-- The bytes of the raw datapoint shift those behind it, and the switch seems to be a raw datapoint
of its own. -/
theorem switch_behind_raw_missed :
    ¬ ∀ (evaluate : Evaluation → Bool) (commandId : UInt8), commandId ∈ dataCommands →
      ∀ (seq : UInt8 × UInt8) (dps : List Datapoint) (dpid : UInt16),
        (parseTuyaData evaluate dpid tuyaClusterId commandId (message seq dps)).2 =
          expected dpid.toNat 2 0 dps := by
  intro h
  have hswitch := h (fun _ => true) 0x02 (by decide) (0, 1) [rawDatapoint, switchDatapoint] 1
  exact absurd hswitch (by decide)

theorem parseTuyaData_raw_switch :
    (parseTuyaData (fun _ => true) 1 tuyaClusterId 0x02 (message (0, 1) [switchDatapoint])).2 =
      [⟨2, 0, 1, .boolean, 1⟩] := by
  have hboth := parseTuyaData_raw (fun _ => true) (by decide : (0x02 : UInt8) ∈ dataCommands) (0, 1)
    [switchDatapoint]
  have hraw : ∀ dp ∈ [switchDatapoint], dp.type = .raw → dp.value = [] := by decide
  exact (hboth.1.mpr hraw 1).1.trans (by decide)

end Tuya
end DeconzRest

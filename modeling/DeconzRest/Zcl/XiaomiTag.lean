import DeconzRest.Lib.DataStream

/-!
# Tags in the special reports of Xiaomi devices

`parseXiaomiZclTag` looks for one of three special attributes in a report, and then for a tag in its
value.  In front of the special attribute only the values of character strings are skipped, and
behind its last tag the search goes on in whatever follows.

A piece of a payload is what the scan for the special attribute takes for one attribute.
-/

namespace DeconzRest
namespace Xiaomi

open List
open Option (some_inj some_ne_none)

variable {V : Type*}

/-- `deCONZ::ZclAttribute`, as far as it is set here -/
structure ZclAttribute (V : Type*) where
  id : UInt8
  dataType : UInt8
  value : V
deriving DecidableEq, Repr

/-- The first loop: the special attribute with the number of its struct elements, and the stream
behind its header.  Every turn takes a byte at least, so `fuel` need not be more than the bytes. -/
def scan : Nat → DataStream → Option (UInt16 × UInt16 × DataStream)
  | 0, _ => none
  | fuel + 1, stream =>
    if stream.bytes = [] then none
    else
      let (a, stream) := stream.read16
      let (dataType, stream) := stream.read8
      -- the length of another type is not used
      let (length, stream) :=
        if dataType = 0x42 ∨ dataType = 0x41 then stream.read8 else (0, stream)
      if a = 0xff01 ∧ dataType = 0x42 then some (a, 0, stream)
      else if a = 0xff02 ∧ dataType = 0x4c then some (a, stream.read16)
      else if a = 0x00f7 ∧ dataType = 0x41 then some (a, 0, stream)
      else scan fuel (if dataType = 0x42 then stream.discard length.toNat else stream)

/-- The second loop, with the places where it takes a tag: the numbers of bytes that are left
there. -/
def tagLoop (readFromStream : UInt8 → DataStream → Option (V × DataStream))
    (attrId structElements : UInt16) (rtag : UInt8) :
    Nat → UInt8 → DataStream → Option (ZclAttribute V) × List Nat
  | 0, _, _ => (none, [])
  | fuel + 1, tag, stream =>
    if stream.bytes = [] then (none, [])
    else
      let place := stream.bytes.length
      let (tag, stream) :=
        if attrId = 0xff01 ∨ attrId = 0x00f7 then stream.read8 else (tag, stream)
      let (dataType, stream) := stream.read8
      match readFromStream dataType stream with
      | none => (none, [place])
      | some (value, stream) =>
        if tag = rtag then (some ⟨tag, dataType, value⟩, [place])
        else
          -- running struct index
          let tag := if 0 < structElements then tag + 1 else tag
          let (result, places) :=
            tagLoop readFromStream attrId structElements rtag fuel tag stream
          (result, place :: places)

/-- `parseXiaomiZclTag`, with the places where a tag is taken -/
def parseXiaomiZclTag (readFromStream : UInt8 → DataStream → Option (V × DataStream))
    (rtag : UInt8) (payload : List UInt8) : Option (ZclAttribute V) × List Nat :=
  match scan (payload.length + 1) { bytes := payload } with
  | none => (none, [])
  | some (attrId, structElements, stream) =>
    if stream.bytes = [] then (none, [])
    else tagLoop readFromStream attrId structElements rtag stream.bytes.length 0 stream

/-! ## Reports -/

/-- A record of a report; `octets` is its value, with the length in front of a string. -/
structure AttributeRecord where
  attrId : UInt16
  dataType : UInt8
  octets : List UInt8
deriving DecidableEq, Repr

def AttributeRecord.bytes (r : AttributeRecord) : List UInt8 :=
  writeLE 2 r.attrId.toNat ++ r.dataType :: r.octets

inductive SpecialKind where
  /-- 0xff01, a character string -/
  | string
  /-- 0xff02, a struct -/
  | struct
  /-- 0x00f7, an octet string -/
  | octetString
deriving DecidableEq, Repr

def SpecialKind.attrId : SpecialKind → UInt16
  | .string => 0xff01
  | .struct => 0xff02
  | .octetString => 0x00f7

def SpecialKind.header : SpecialKind → Nat → List UInt8
  | .string, n => [0x01, 0xff, 0x42, .ofNat n]
  | .struct, n => 0x02 :: 0xff :: 0x4c :: writeLE 2 n
  | .octetString, n => [0xf7, 0x00, 0x41, .ofNat n]

/-- A value inside a special attribute; the elements of a struct have no tag of their own. -/
structure SpecialElement (V : Type*) where
  tag : UInt8
  dataType : UInt8
  value : V
  /-- The value as it is written -/
  octets : List UInt8

def SpecialKind.elementBytes (kind : SpecialKind) (e : SpecialElement V) : List UInt8 :=
  if kind = .struct then e.dataType :: e.octets else e.tag :: e.dataType :: e.octets

/-- The elements with their tags, or with their indices in a struct -/
def SpecialKind.tagged (kind : SpecialKind) :
    UInt8 → List (SpecialElement V) → List (UInt8 × SpecialElement V)
  | _, [] => []
  | index, e :: elements =>
    (if kind = .struct then index else e.tag, e) :: kind.tagged (index + 1) elements

structure SpecialReport (V : Type*) where
  before : List AttributeRecord
  kind : SpecialKind
  elements : List (SpecialElement V)
  behind : List AttributeRecord

namespace SpecialReport

variable (r : SpecialReport V)

/-- The value of the special attribute behind its length or the number of elements -/
def content : List UInt8 := r.elements.flatMap r.kind.elementBytes

def count : Nat := if r.kind = .struct then r.elements.length else r.content.length

def front : List UInt8 := r.before.flatMap AttributeRecord.bytes

def rest : List UInt8 := r.behind.flatMap AttributeRecord.bytes

def payload : List UInt8 := r.front ++ (r.kind.header r.count ++ (r.content ++ r.rest))

/-- The length or the number of elements fits, and `readFromStream` takes for every element just its
value from the stream. -/
structure WellFormed (readFromStream : UInt8 → DataStream → Option (V × DataStream)) : Prop where
  fits : r.count < if r.kind = .struct then 65536 else 256
  consumes : ∀ e ∈ r.elements, ∀ rest pastEnd,
    readFromStream e.dataType ⟨e.octets ++ rest, pastEnd⟩ = some (e.value, ⟨rest, pastEnd⟩)

def stored (rtag : UInt8) : Option (ZclAttribute V) :=
  ((r.kind.tagged 0 r.elements).find? fun e => e.1 == rtag).map fun e =>
    ⟨e.1, e.2.dataType, e.2.value⟩

end SpecialReport

def elementPlaces (kind : SpecialKind) (rest : Nat) : List (SpecialElement V) → List Nat
  | [] => []
  | e :: elements =>
    (((e :: elements).flatMap kind.elementBytes).length + rest) :: elementPlaces kind rest elements

/-- What is found is what is stored in the special attribute, and tags are taken at its elements
only, one after the other. -/
structure FindsStored (r : SpecialReport V) (rtag : UInt8)
    (found : Option (ZclAttribute V) × List Nat) : Prop where
  result : found.1 = r.stored rtag
  places : found.2 <+: elementPlaces r.kind r.rest.length r.elements

/-- The bytes can be cut into pieces: the id and the type of an attribute that is not special, for a
string its length, and for a character string also its characters. -/
inductive Skipped : List UInt8 → Prop
  | nil : Skipped []
  | other (a : UInt16) (dataType : UInt8) {rest : List UInt8} (hstring : dataType ≠ 0x42)
      (hoctets : dataType ≠ 0x41) (hstruct : ¬ (a = 0xff02 ∧ dataType = 0x4c))
      (h : Skipped rest) : Skipped (writeLE 2 a.toNat ++ dataType :: rest)
  | octets (a : UInt16) (length : UInt8) {rest : List UInt8} (ha : a ≠ 0x00f7)
      (h : Skipped rest) : Skipped (writeLE 2 a.toNat ++ 0x41 :: length :: rest)
  | string (a : UInt16) (length : UInt8) {data rest : List UInt8} (ha : a ≠ 0xff01)
      (hdata : data.length = length.toNat) (h : Skipped rest) :
      Skipped (writeLE 2 a.toNat ++ 0x42 :: length :: (data ++ rest))

/-- Wherever the bytes can be cut into pieces up to the header of a special attribute, there is
nothing behind the header. -/
def Missed (payload : List UInt8) : Prop :=
  ∀ front kind n rest, Skipped front → payload = front ++ (SpecialKind.header kind n ++ rest) →
    rest = []

/-- The search comes to the special attribute and does not leave it, or there is no search for a tag
that is not there. -/
def Confined (r : SpecialReport V) (rtag : UInt8) : Prop :=
  (Skipped r.front ∧ ((r.stored rtag).isSome = true ∨ r.behind = [])) ∨
    (r.stored rtag = none ∧ Missed r.payload)

/-! ## The scan -/

/-- A turn of the scan, from behind the type -/
def scanBehindType (fuel : Nat) (a : UInt16) (dataType : UInt8) (stream : DataStream) :
    Option (UInt16 × UInt16 × DataStream) :=
  let (length, stream) :=
    if dataType = 0x42 ∨ dataType = 0x41 then stream.read8 else (0, stream)
  if a = 0xff01 ∧ dataType = 0x42 then some (a, 0, stream)
  else if a = 0xff02 ∧ dataType = 0x4c then some (a, stream.read16)
  else if a = 0x00f7 ∧ dataType = 0x41 then some (a, 0, stream)
  else scan fuel (if dataType = 0x42 then stream.discard length.toNat else stream)

variable {fuel : Nat} {stream : DataStream}

theorem scan_succ (h : stream.bytes ≠ []) :
    scan (fuel + 1) stream =
      scanBehindType fuel stream.read16.1 stream.read16.2.read8.1 stream.read16.2.read8.2 := by
  rw [scan, if_neg h]
  rfl

theorem scan_piece (fuel : Nat) (a : UInt16) (dataType : UInt8) (rest : List UInt8)
    (pastEnd : Bool) :
    scan (fuel + 1) ⟨writeLE 2 a.toNat ++ dataType :: rest, pastEnd⟩ =
      scanBehindType fuel a dataType ⟨rest, pastEnd⟩ := by
  rw [scan_succ, DataStream.read16_writeLE, DataStream.read8_cons]
  exact fun hnil => absurd (append_eq_nil_iff.mp hnil).2 (cons_ne_nil _ _)

theorem scan_header (kind : SpecialKind) (n : Nat) (rest : List UInt8) (pastEnd : Bool)
    (fuel : Nat) :
    scan (fuel + 1) ⟨kind.header n ++ rest, pastEnd⟩ =
      some (kind.attrId, if kind = .struct then .ofNat n else 0, ⟨rest, pastEnd⟩) := by
  cases kind with
  | string =>
    rw [show SpecialKind.string.header n ++ rest = writeLE 2 (0xff01 : UInt16).toNat ++ 0x42 ::
      (UInt8.ofNat n :: rest) from rfl, scan_piece]
    simp [scanBehindType, SpecialKind.attrId]
  | struct =>
    rw [show SpecialKind.struct.header n ++ rest = writeLE 2 (0xff02 : UInt16).toNat ++ 0x4c ::
      (writeLE 2 n ++ rest) from rfl, scan_piece]
    have hcount : DataStream.read16 ⟨writeLE 2 n ++ rest, pastEnd⟩ =
        (.ofNat n, ⟨rest, pastEnd⟩) := by
      unfold DataStream.read16 DataStream.read
      rw [readLE_writeLE]
      exact congrArg (·, _) (UInt16.toNat.inj (by simp))
    simp [scanBehindType, SpecialKind.attrId, hcount]
  | octetString =>
    rw [show SpecialKind.octetString.header n ++ rest = writeLE 2 (0x00f7 : UInt16).toNat ++ 0x41 ::
      (UInt8.ofNat n :: rest) from rfl, scan_piece]
    simp [scanBehindType, SpecialKind.attrId]

theorem octets_ne_string : (0x41 : UInt8) ≠ 0x42 := by decide

theorem octets_ne_struct : (0x41 : UInt8) ≠ 0x4c := by decide

theorem string_ne_octets : (0x42 : UInt8) ≠ 0x41 := by decide

theorem string_ne_struct : (0x42 : UInt8) ≠ 0x4c := by decide

theorem scan_skipped {front : List UInt8} (h : Skipped front) (kind : SpecialKind) (n : Nat)
    (rest : List UInt8) (pastEnd : Bool) (hfuel : front.length < fuel) :
    scan fuel ⟨front ++ (kind.header n ++ rest), pastEnd⟩ =
      some (kind.attrId, if kind = .struct then .ofNat n else 0, ⟨rest, pastEnd⟩) := by
  induction h generalizing fuel with
  | nil =>
    cases fuel with
    | zero => exact absurd hfuel (Nat.not_lt_zero _)
    | succ fuel => exact scan_header kind n rest pastEnd fuel
  | @other a dataType front hstring hoctets hstruct _ ih =>
    cases fuel with
    | zero => exact absurd hfuel (Nat.not_lt_zero _)
    | succ fuel =>
      rw [List.length_append, length_cons] at hfuel
      rw [append_assoc, cons_append, scan_piece]
      unfold scanBehindType
      simp only [hstring, hoctets, hstruct, and_false, or_self, if_false]
      exact ih (by omega)
  | @octets a length front ha _ ih =>
    cases fuel with
    | zero => exact absurd hfuel (Nat.not_lt_zero _)
    | succ fuel =>
      rw [List.length_append, length_cons, length_cons] at hfuel
      rw [append_assoc, cons_append, cons_append, scan_piece]
      unfold scanBehindType
      simp only [ha, or_true, if_true, DataStream.read8_cons, false_and, if_false, octets_ne_string,
        octets_ne_struct, and_false]
      exact ih (by omega)
  | @string a length data front ha hdata _ ih =>
    cases fuel with
    | zero => exact absurd hfuel (Nat.not_lt_zero _)
    | succ fuel =>
      rw [List.length_append, length_cons, length_cons, List.length_append] at hfuel
      rw [append_assoc, cons_append, cons_append, append_assoc, scan_piece]
      unfold scanBehindType
      simp only [ha, true_or, if_true, DataStream.read8_cons, false_and, if_false, string_ne_octets,
        string_ne_struct, and_false, ← hdata, DataStream.discard_append]
      exact ih (by omega)

/-- There are pieces and the header of a special attribute in front of what is left. -/
def FoundBehindPieces (bytes left : List UInt8) : Prop :=
  ∃ front kind n, Skipped front ∧ bytes = front ++ (SpecialKind.header kind n ++ left)

variable {r : UInt16 × UInt16 × DataStream}

theorem scan_ne_nil (h : scan fuel stream = some r) : stream.bytes ≠ [] := by
  intro hnil
  cases fuel with
  | zero => exact absurd h (some_ne_none _).symm
  | succ fuel =>
    rw [scan, if_pos hnil] at h
    exact absurd h (some_ne_none _).symm

theorem read8_ne_nil {s : DataStream} (h : s.read8.2.bytes ≠ []) : s.bytes ≠ [] :=
  fun hnil => h (DataStream.read_of_nil hnil)

theorem read16_ne_nil {s : DataStream} (h : s.read16.2.bytes ≠ []) : s.bytes ≠ [] :=
  fun hnil => h (DataStream.read_of_nil hnil)

theorem found_of_behindType {a : UInt16} {dataType : UInt8}
    (ih : ∀ {stream}, scan fuel stream = some r → FoundBehindPieces stream.bytes r.2.2.bytes)
    (h : scanBehindType fuel a dataType stream = some r) (hleft : r.2.2.bytes ≠ []) :
    stream.bytes ≠ [] ∧
      FoundBehindPieces (writeLE 2 a.toNat ++ dataType :: stream.bytes) r.2.2.bytes := by
  unfold scanBehindType at h
  by_cases hstring : dataType = 0x42
  · subst hstring
    simp only [true_or, if_true, and_true, string_ne_octets, string_ne_struct, and_false,
      if_false] at h
    by_cases ha : a = 0xff01
    · rw [if_pos ha] at h
      obtain rfl := some_inj.mp h
      refine ⟨read8_ne_nil hleft, [], .string, stream.read8.1.toNat, .nil, ?_⟩
      rw [DataStream.bytes_of_read8 hleft, ha, SpecialKind.header, UInt8.ofNat_toNat]
      rfl
    · rw [if_neg ha] at h
      obtain ⟨data, hdata, hbytes⟩ := DataStream.bytes_of_discard (scan_ne_nil h)
      have hne : stream.read8.2.bytes ≠ [] := by
        rw [hbytes]
        exact fun hnil => scan_ne_nil h (append_eq_nil_iff.mp hnil).2
      obtain ⟨front, kind, n, hfront, hfound⟩ := ih h
      refine ⟨read8_ne_nil hne, _, kind, n, hfront.string a stream.read8.1 ha hdata, ?_⟩
      rw [DataStream.bytes_of_read8 hne, hbytes, hfound]
      simp only [append_assoc, cons_append]
  · by_cases hoctets : dataType = 0x41
    · subst hoctets
      simp only [or_true, if_true, and_true, octets_ne_string, octets_ne_struct, and_false,
        if_false] at h
      by_cases ha : a = 0x00f7
      · rw [if_pos ha] at h
        obtain rfl := some_inj.mp h
        refine ⟨read8_ne_nil hleft, [], .octetString, stream.read8.1.toNat, .nil, ?_⟩
        rw [DataStream.bytes_of_read8 hleft, ha, SpecialKind.header, UInt8.ofNat_toNat]
        rfl
      · rw [if_neg ha] at h
        have hne := scan_ne_nil h
        obtain ⟨front, kind, n, hfront, hfound⟩ := ih h
        refine ⟨read8_ne_nil hne, _, kind, n, hfront.octets a stream.read8.1 ha, ?_⟩
        rw [DataStream.bytes_of_read8 hne, hfound]
        simp only [append_assoc, cons_append]
    · simp only [hstring, hoctets, or_self, if_false, and_false] at h
      by_cases hstruct : a = 0xff02 ∧ dataType = 0x4c
      · rw [if_pos hstruct] at h
        obtain rfl := some_inj.mp h
        refine ⟨read16_ne_nil hleft, [], .struct, stream.read16.1.toNat, .nil, ?_⟩
        rw [DataStream.bytes_of_read16 hleft, hstruct.1, hstruct.2, SpecialKind.header]
        rfl
      · rw [if_neg hstruct] at h
        obtain ⟨front, kind, n, hfront, hfound⟩ := ih h
        refine ⟨scan_ne_nil h, _, kind, n, hfront.other a dataType hstring hoctets hstruct, ?_⟩
        rw [hfound]
        simp only [append_assoc, cons_append]

theorem found_of_scan (h : scan fuel stream = some r) (hleft : r.2.2.bytes ≠ []) :
    FoundBehindPieces stream.bytes r.2.2.bytes := by
  induction fuel generalizing stream with
  | zero => exact absurd h (some_ne_none _).symm
  | succ fuel ih =>
    rw [scan_succ (scan_ne_nil h)] at h
    obtain ⟨hne, hfound⟩ := found_of_behindType ih h hleft
    rw [DataStream.bytes_of_read16 (read8_ne_nil hne), DataStream.bytes_of_read8 hne]
    exact hfound

theorem header_ne_struct {kind : SpecialKind} (hkind : kind ≠ .struct) (front front' : List UInt8)
    (n n' : Nat) : front ++ kind.header n ≠ front' ++ SpecialKind.struct.header n' := by
  intro heq
  have hcut : front ++ kind.header n = (front' ++ [0x02]) ++ (0xff :: 0x4c :: writeLE 2 n') := by
    rw [append_assoc]
    exact heq
  cases kind with
  | string => exact absurd (List.cons.inj (append_inj' hcut rfl).2).1 (by decide)
  | octetString => exact absurd (List.cons.inj (append_inj' hcut rfl).2).1 (by decide)
  | struct => exact hkind rfl

theorem header_unique {front front' : List UInt8} {kind kind' : SpecialKind} {n n' : Nat}
    (h : front ++ kind.header n = front' ++ kind'.header n') : front = front' := by
  have hlength : ∀ kind : SpecialKind, ∀ n, kind ≠ .struct → (kind.header n).length = 4 := by
    intro kind n hkind
    cases kind with
    | string | octetString => rfl
    | struct => exact absurd rfl hkind
  by_cases hkind : kind = .struct
  · by_cases hkind' : kind' = .struct
    · rw [hkind, hkind'] at h
      exact (append_inj' h rfl).1
    · rw [hkind] at h
      exact absurd h.symm (header_ne_struct hkind' front' front n' n)
  · by_cases hkind' : kind' = .struct
    · rw [hkind'] at h
      exact absurd h (header_ne_struct hkind front front' n n')
    · exact (append_inj' h ((hlength kind n hkind).trans (hlength kind' n' hkind').symm)).1

/-! ## The tags -/

section Tags

variable {readFromStream : UInt8 → DataStream → Option (V × DataStream)} {kind : SpecialKind}
  {structElements : UInt16} {rtag : UInt8}

theorem elementBytes_ne_nil (kind : SpecialKind) (e : SpecialElement V) :
    kind.elementBytes e ≠ [] := by
  unfold SpecialKind.elementBytes
  split <;> exact cons_ne_nil _ _

variable {fuel : Nat} {tag index : UInt8}

theorem tagLoop_element {e : SpecialElement V} {rest : List UInt8} {pastEnd : Bool}
    (he : readFromStream e.dataType ⟨e.octets ++ rest, pastEnd⟩ = some (e.value, ⟨rest, pastEnd⟩))
    (htag : kind = .struct → tag = index) :
    tagLoop readFromStream kind.attrId structElements rtag (fuel + 1) tag
        ⟨kind.elementBytes e ++ rest, pastEnd⟩ =
      let t := if kind = .struct then index else e.tag
      let place := (kind.elementBytes e ++ rest).length
      if t = rtag then (some ⟨t, e.dataType, e.value⟩, [place])
      else
        let (result, places) := tagLoop readFromStream kind.attrId structElements rtag fuel
          (if 0 < structElements then t + 1 else t) ⟨rest, pastEnd⟩
        (result, place :: places) := by
  have hne : kind.elementBytes e ++ rest ≠ [] :=
    fun hnil => elementBytes_ne_nil kind e (append_eq_nil_iff.mp hnil).1
  rw [tagLoop, if_neg hne]
  cases kind with
  | struct =>
    obtain rfl := htag rfl
    simp [SpecialKind.elementBytes, SpecialKind.attrId, he]
  | string => simp [SpecialKind.elementBytes, SpecialKind.attrId, he]
  | octetString => simp [SpecialKind.elementBytes, SpecialKind.attrId, he]

theorem tagLoop_cons {first : SpecialElement V} (elements : List (SpecialElement V))
    (rest : List UInt8) (pastEnd : Bool)
    (hfirst : ∀ rest pastEnd, readFromStream first.dataType ⟨first.octets ++ rest, pastEnd⟩ =
      some (first.value, ⟨rest, pastEnd⟩))
    (hcount : kind = .struct → 0 < structElements) (fuel : Nat)
    (htag : kind = .struct → tag = index) :
    let t := if kind = .struct then index else first.tag
    let place := ((first :: elements).flatMap kind.elementBytes).length + rest.length
    let loop := tagLoop readFromStream kind.attrId structElements rtag
    let found := loop (fuel + 1) tag
      ⟨(first :: elements).flatMap kind.elementBytes ++ rest, pastEnd⟩
    (t = rtag → found = (some ⟨t, first.dataType, first.value⟩, [place])) ∧
      (t ≠ rtag → ∃ tag', (kind = .struct → tag' = index + 1) ∧ found =
        ((loop fuel tag' ⟨elements.flatMap kind.elementBytes ++ rest, pastEnd⟩).1, place ::
          (loop fuel tag' ⟨elements.flatMap kind.elementBytes ++ rest, pastEnd⟩).2)) := by
  have hplace : (kind.elementBytes first ++
      (elements.flatMap kind.elementBytes ++ rest)).length =
        ((first :: elements).flatMap kind.elementBytes).length + rest.length := by
    rw [flatMap_cons, ← append_assoc, List.length_append]
  simp only
  rw [← hplace, flatMap_cons, append_assoc, tagLoop_element (hfirst _ _) htag]
  constructor
  · intro hmatch
    exact if_pos hmatch
  · intro hmatch
    refine ⟨_, ?_, if_neg hmatch⟩
    intro hstruct
    rw [if_pos (hcount hstruct), if_pos hstruct]

theorem tagLoop_elements {elements : List (SpecialElement V)} (rest : List UInt8) (pastEnd : Bool)
    (hcount : kind = .struct → elements ≠ [] → 0 < structElements)
    (hconsumes : ∀ e ∈ elements, ∀ rest pastEnd,
      readFromStream e.dataType ⟨e.octets ++ rest, pastEnd⟩ = some (e.value, ⟨rest, pastEnd⟩))
    (hfuel : elements.length ≤ fuel) (htag : kind = .struct → tag = index) :
    (∀ e, (kind.tagged index elements).find? (fun e => e.1 == rtag) = some e → ∃ places,
      tagLoop readFromStream kind.attrId structElements rtag fuel tag
          ⟨elements.flatMap kind.elementBytes ++ rest, pastEnd⟩ =
        (some ⟨e.1, e.2.dataType, e.2.value⟩, places) ∧
          places <+: elementPlaces kind rest.length elements) ∧
    ((kind.tagged index elements).find? (fun e => e.1 == rtag) = none → ∃ tag',
      tagLoop readFromStream kind.attrId structElements rtag fuel tag
          ⟨elements.flatMap kind.elementBytes ++ rest, pastEnd⟩ =
        ((tagLoop readFromStream kind.attrId structElements rtag (fuel - elements.length) tag'
            ⟨rest, pastEnd⟩).1,
          elementPlaces kind rest.length elements ++ (tagLoop readFromStream kind.attrId
            structElements rtag (fuel - elements.length) tag' ⟨rest, pastEnd⟩).2)) := by
  induction elements generalizing fuel tag index with
  | nil => exact ⟨fun e hfind => absurd hfind (some_ne_none _).symm, fun _ => ⟨tag, rfl⟩⟩
  | cons first elements ih =>
    obtain ⟨hfirst, hconsumes⟩ := forall_mem_cons.mp hconsumes
    have hcount : kind = .struct → 0 < structElements :=
      fun hstruct => hcount hstruct (cons_ne_nil _ _)
    rw [length_cons] at hfuel
    obtain ⟨fuel, rfl⟩ := Nat.exists_eq_add_of_le' (Nat.le_trans (Nat.succ_pos _) hfuel)
    have hcons := @tagLoop_cons V readFromStream kind structElements rtag tag index first elements
      rest pastEnd hfirst hcount fuel htag
    rw [SpecialKind.tagged, List.find?_cons]
    by_cases hmatch : (if kind = .struct then index else first.tag) = rtag
    · simp only [beq_iff_eq.mpr hmatch]
      refine ⟨fun e hfind => ?_, fun hfind => absurd hfind (some_ne_none _)⟩
      obtain rfl := some_inj.mp hfind
      exact ⟨_, hcons.1 hmatch, (prefix_cons_inj _).mpr nil_prefix⟩
    · simp only [beq_eq_false_iff_ne.mpr hmatch]
      obtain ⟨next, hnext, hfound⟩ := hcons.2 hmatch
      obtain ⟨hstored, habsent⟩ := ih (fun hstruct _ => hcount hstruct) hconsumes
        (Nat.le_of_succ_le_succ hfuel) hnext
      rw [hfound]
      refine ⟨fun e hfind => ?_, fun hfind => ?_⟩
      · obtain ⟨places, hloop, hplaces⟩ := hstored e hfind
        rw [hloop]
        exact ⟨_, rfl, (prefix_cons_inj _).mpr hplaces⟩
      · obtain ⟨tag', hloop⟩ := habsent hfind
        refine ⟨tag', ?_⟩
        rw [hloop, length_cons, Nat.add_sub_add_right]
        rfl

theorem head?_tagLoop {attrId : UInt16} (hfuel : 0 < fuel) (tag : UInt8) {stream : DataStream}
    (hne : stream.bytes ≠ []) :
    (tagLoop readFromStream attrId structElements rtag fuel tag stream).2.head? =
      some stream.bytes.length := by
  obtain ⟨fuel, rfl⟩ := Nat.exists_eq_add_of_le' hfuel
  rw [tagLoop, if_neg hne]
  simp only
  generalize (if attrId = 0xff01 ∨ attrId = 0x00f7 then stream.read8 else (tag, stream)) = first
  cases readFromStream first.2.read8.1 first.2.read8.2 with
  | none => rfl
  | some read =>
    by_cases htag : first.1 = rtag
    · simp only [if_pos htag, List.head?_cons]
    · simp only [if_neg htag, List.head?_cons]

theorem tagLoop_end {attrId : UInt16} (fuel : Nat) (tag : UInt8) (pastEnd : Bool) :
    tagLoop readFromStream attrId structElements rtag fuel tag ⟨[], pastEnd⟩ = (none, []) := by
  cases fuel with
  | zero => rfl
  | succ fuel => rw [tagLoop, if_pos rfl]

end Tags

/-! ## Reports -/

namespace SpecialReport

variable {r : SpecialReport V}

theorem length_elements_le (kind : SpecialKind) (elements : List (SpecialElement V)) :
    elements.length ≤ (elements.flatMap kind.elementBytes).length := by
  induction elements with
  | nil => exact Nat.zero_le _
  | cons e elements ih =>
    have hpos := length_pos_iff.mpr (elementBytes_ne_nil kind e)
    rw [flatMap_cons, List.length_append, length_cons]
    omega

theorem rest_eq_nil_iff : r.rest = [] ↔ r.behind = [] := by
  unfold rest
  cases r.behind with
  | nil => simp
  | cons record records => simp [AttributeRecord.bytes]

theorem scan_payload (hfront : Skipped r.front) :
    scan (r.payload.length + 1) { bytes := r.payload } =
      some (r.kind.attrId, if r.kind = .struct then .ofNat r.count else 0,
        ⟨r.content ++ r.rest, false⟩) := by
  refine scan_skipped hfront r.kind r.count (r.content ++ r.rest) false ?_
  unfold payload
  rw [List.length_append]
  omega

theorem count_pos {readFromStream : UInt8 → DataStream → Option (V × DataStream)}
    (hr : r.WellFormed readFromStream) (hstruct : r.kind = .struct) (hne : r.elements ≠ []) :
    0 < if r.kind = .struct then UInt16.ofNat r.count else 0 := by
  have hfits := hr.fits
  unfold count at hfits ⊢
  rw [if_pos hstruct, if_pos hstruct] at hfits
  rw [if_pos hstruct, if_pos hstruct, UInt16.lt_iff_toNat_lt, UInt16.toNat_ofNat',
    Nat.mod_eq_of_lt hfits]
  exact length_pos_iff.mpr hne

variable {readFromStream : UInt8 → DataStream → Option (V × DataStream)} {rtag : UInt8}

theorem parse_payload (hfront : Skipped r.front) :
    parseXiaomiZclTag readFromStream rtag r.payload =
      tagLoop readFromStream r.kind.attrId (if r.kind = .struct then .ofNat r.count else 0) rtag
        (r.content ++ r.rest).length 0 ⟨r.content ++ r.rest, false⟩ := by
  unfold parseXiaomiZclTag
  rw [scan_payload hfront]
  simp only
  split
  · rename_i hnil
    rw [hnil]
    rfl
  · rfl

theorem finds_of_skipped (hr : r.WellFormed readFromStream) (hfront : Skipped r.front) :
    FindsStored r rtag (parseXiaomiZclTag readFromStream rtag r.payload) ↔ (r.stored rtag).isSome =
      true ∨ r.behind = [] := by
  have hlength : (r.content ++ r.rest).length = r.content.length + r.rest.length :=
    List.length_append
  have helements : r.elements.length ≤ r.content.length := length_elements_le r.kind r.elements
  obtain ⟨hfound, habsent⟩ := tagLoop_elements r.rest false (count_pos hr) hr.consumes
    (show r.elements.length ≤ (r.content ++ r.rest).length by omega) (fun _ => rfl)
  rw [parse_payload hfront]
  cases hfind : (r.kind.tagged 0 r.elements).find? (fun e => e.1 == rtag) with
  | some e =>
    have hstored : r.stored rtag = some ⟨e.1, e.2.dataType, e.2.value⟩ := by
      unfold stored
      rw [hfind]
      rfl
    obtain ⟨places, hloop, hplaces⟩ := hfound e hfind
    refine iff_of_true ?_ (.inl (by rw [hstored]; rfl))
    unfold content at hloop ⊢
    rw [hloop]
    exact ⟨hstored.symm, hplaces⟩
  | none =>
    have hstored : r.stored rtag = none := by
      unfold stored
      rw [hfind]
      rfl
    obtain ⟨tag', hloop⟩ := habsent hfind
    unfold content at hloop ⊢
    rw [hloop]
    by_cases hbehind : r.behind = []
    · have hrest := rest_eq_nil_iff.mpr hbehind
      refine iff_of_true ?_ (.inr hbehind)
      rw [hrest, tagLoop_end]
      refine ⟨hstored.symm, ?_⟩
      rw [hrest]
      exact (append_nil _).symm ▸ prefix_refl _
    · -- the first byte behind the special attribute is taken for a tag or a type
      have hrest : r.rest ≠ [] := fun hnil => hbehind (rest_eq_nil_iff.mp hnil)
      refine iff_of_false ?_ ?_
      · intro hfinds
        have hpos := length_pos_iff.mpr hrest
        have hhead : (tagLoop readFromStream r.kind.attrId
            (if r.kind = .struct then .ofNat r.count else 0) rtag
            ((r.content ++ r.rest).length - r.elements.length) tag' ⟨r.rest, false⟩).2.head? =
              some r.rest.length :=
          head?_tagLoop (by omega) tag' hrest
        have hnone : ∀ {xs ys : List Nat}, xs ++ ys <+: xs → ys = [] := by
          intro xs ys hprefix
          have hle := hprefix.length_le
          rw [List.length_append] at hle
          exact eq_nil_of_length_eq_zero (by omega)
        exact absurd (hhead.symm.trans (congrArg List.head? (hnone hfinds.places)))
          (some_ne_none _)
      · rintro (hsome | hnil)
        · rw [hstored] at hsome
          exact absurd hsome Bool.false_ne_true
        · exact hbehind hnil

theorem not_missed {bytes left : List UInt8} (h : FoundBehindPieces bytes left)
    (hleft : left ≠ []) : ¬ Missed bytes := by
  obtain ⟨front, kind, n, hfront, hbytes⟩ := h
  exact fun hmissed => hleft (hmissed front kind n left hfront hbytes)

theorem missed_of_scan {payload : List UInt8}
    (h : ∀ r, scan (payload.length + 1) { bytes := payload } = some r → r.2.2.bytes = []) :
    Missed payload := by
  intro front kind n rest hfront hpayload
  have hfuel : front.length < payload.length + 1 := by
    rw [hpayload, List.length_append]
    omega
  have hscan := scan_skipped hfront kind n rest false hfuel
  rw [← hpayload] at hscan
  exact h _ hscan

theorem finds_of_not_skipped (hfront : ¬ Skipped r.front) :
    FindsStored r rtag (parseXiaomiZclTag readFromStream rtag r.payload) ↔ r.stored rtag = none ∧
      Missed r.payload := by
  have hnothing : Missed r.payload →
      (FindsStored r rtag ((none, []) : Option (ZclAttribute V) × List Nat) ↔ r.stored rtag = none ∧
        Missed r.payload) := fun hmissed =>
    ⟨fun hfinds => ⟨hfinds.result.symm, hmissed⟩, fun h => ⟨h.1.symm, nil_prefix⟩⟩
  unfold parseXiaomiZclTag
  cases hscan : scan (r.payload.length + 1) { bytes := r.payload } with
  | none =>
    refine hnothing (missed_of_scan fun found hfound => ?_)
    rw [hscan] at hfound
    exact absurd hfound (some_ne_none _).symm
  | some found =>
    obtain ⟨attrId, structElements, left⟩ := found
    by_cases hleft : left.bytes = []
    · simp only [if_pos hleft]
      refine hnothing (missed_of_scan fun found hfound => ?_)
      rw [hscan] at hfound
      exact some_inj.mp hfound ▸ hleft
    · simp only [if_neg hleft]
      have hfound := found_of_scan hscan hleft
      refine iff_of_false ?_ fun h => not_missed hfound hleft h.2
      intro hfinds
      -- the first place is not the first element of the special attribute
      have hhead : (tagLoop readFromStream attrId structElements rtag left.bytes.length 0
          left).2.head? = some left.bytes.length :=
        head?_tagLoop (length_pos_iff.mpr hleft) 0 hleft
      obtain ⟨later, hplaces⟩ := hfinds.places
      have hfirst := congrArg List.head? hplaces
      rw [List.head?_append, hhead, Option.some_or] at hfirst
      have hlength : left.bytes.length = (r.content ++ r.rest).length := by
        unfold content
        cases helements : r.elements with
        | nil =>
          rw [helements] at hfirst
          exact absurd hfirst (some_ne_none _)
        | cons e elements =>
          rw [helements] at hfirst
          rw [List.length_append]
          exact some_inj.mp hfirst
      obtain ⟨front, kind, n, hskipped, hbytes⟩ := hfound
      refine hfront ?_
      have hpayload : r.front ++ r.kind.header r.count ++ (r.content ++ r.rest) = front ++
          kind.header n ++ left.bytes := by
        rw [append_assoc, append_assoc]
        exact hbytes
      rw [header_unique (append_inj' hpayload hlength.symm).1]
      exact hskipped

end SpecialReport

/-- **Tags of special reports**: what is found is what is stored in the special attribute, and tags
are taken there only, exactly if the search is confined to the special attribute. -/
theorem finds_iff {readFromStream : UInt8 → DataStream → Option (V × DataStream)}
    {r : SpecialReport V} (hr : r.WellFormed readFromStream) (rtag : UInt8) :
    FindsStored r rtag (parseXiaomiZclTag readFromStream rtag r.payload) ↔ Confined r rtag := by
  unfold Confined
  by_cases hfront : Skipped r.front
  · rw [SpecialReport.finds_of_skipped hr hfront]
    refine ⟨fun h => .inl ⟨hfront, h⟩, ?_⟩
    rintro (⟨-, h⟩ | ⟨hstored, hmissed⟩)
    · exact h
    · -- nothing is left behind the header that was reached
      have hnil := hmissed r.front r.kind r.count (r.content ++ r.rest) hfront rfl
      exact .inr (SpecialReport.rest_eq_nil_iff.mp (append_eq_nil_iff.mp hnil).2)
  · rw [SpecialReport.finds_of_not_skipped hfront]
    exact ⟨.inr, fun h => h.resolve_left fun hleft => hfront hleft.1⟩

theorem skipped_strings {records : List AttributeRecord}
    (h : ∀ record ∈ records, record.attrId ≠ 0xff01 ∧ record.dataType = 0x42 ∧
      ∃ length data, record.octets = length :: data ∧ data.length = length.toNat) :
    Skipped (records.flatMap AttributeRecord.bytes) := by
  induction records with
  | nil => exact .nil
  | cons record records ih =>
    obtain ⟨⟨ha, htype, length, data, hoctets, hdata⟩, hrest⟩ := forall_mem_cons.mp h
    have hbytes : (record :: records).flatMap AttributeRecord.bytes =
        writeLE 2 record.attrId.toNat ++ 0x42 :: length ::
          (data ++ records.flatMap AttributeRecord.bytes) := by
      rw [flatMap_cons, AttributeRecord.bytes, htype, hoctets]
      simp only [append_assoc, cons_append]
    rw [hbytes]
    exact (ih hrest).string record.attrId length ha hdata

def readNumbers (dataType : UInt8) (stream : DataStream) : Option (Nat × DataStream) :=
  if dataType = 0x20 then some (stream.read 1)
  else if dataType = 0x21 then some (stream.read 2)
  else none

def voltageReport (before : List AttributeRecord) : SpecialReport Nat where
  before := before
  kind := .string
  elements := [⟨0x01, 0x21, 3000, [0xb8, 0x0b]⟩]
  behind := []

theorem voltageReport_wellFormed (before : List AttributeRecord) :
    (voltageReport before).WellFormed readNumbers := by
  refine ⟨(by decide : 4 < 256), ?_⟩
  intro e he rest pastEnd
  rw [mem_singleton.mp he]
  have hread : DataStream.read 2 ⟨writeLE 2 3000 ++ rest, pastEnd⟩ = (3000, ⟨rest, pastEnd⟩) :=
    DataStream.read_writeLE (by decide)
  exact congrArg some hread

/-- The model id in front of it is skipped. -/
theorem voltage_behind_model : FindsStored (voltageReport [⟨0x0005, 0x42, [2, 0x6c, 0x75]⟩]) 1
    (parseXiaomiZclTag readNumbers 1
      (voltageReport [⟨0x0005, 0x42, [2, 0x6c, 0x75]⟩]).payload) := by
  refine (finds_iff (voltageReport_wellFormed _) 1).mpr (.inl ⟨skipped_strings ?_, .inl rfl⟩)
  intro record hrecord
  rw [mem_singleton.mp hrecord]
  exact ⟨by decide, rfl, 2, [0x6c, 0x75], rfl, rfl⟩

/-- The application version in front of it, a number of one byte, is not. -/
theorem voltage_behind_version_missed :
    (voltageReport [⟨0x0001, 0x20, [0x0a]⟩]).WellFormed readNumbers ∧
      ¬ FindsStored (voltageReport [⟨0x0001, 0x20, [0x0a]⟩]) 1
        (parseXiaomiZclTag readNumbers 1 (voltageReport [⟨0x0001, 0x20, [0x0a]⟩]).payload) := by
  refine ⟨voltageReport_wellFormed _, fun hfinds => ?_⟩
  exact absurd hfinds.result (by decide)

end Xiaomi
end DeconzRest

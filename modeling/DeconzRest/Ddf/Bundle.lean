import Mathlib.Data.List.Nodup
import Mathlib.Logic.Relation
import DeconzRest.Lib.ByteStream

/-!
# The chunks of a bundle file

A bundle is a RIFF file: chunks with a four byte tag and a length.  `readAllBundles` looks for the
`DDFB` chunk and walks over its content to collect the external files, the `EXTF` chunks.  The
reader and the skipper of a chunk share the position of one stream.

A pointer into the file is kept as its offset; `unsigned long` has 64 bits, so that adding a length
to a position does not wrap.
-/

namespace DeconzRest
namespace Ddf

open List

/-- `DDFB_ExtfChunk`; `modificationTime` is `none` for the empty string. -/
structure ExtfChunk where
  fileType : List UInt8
  pathLength : Nat := 0
  path : Nat := 0
  modificationTimeLength : Nat := 0
  modificationTime : Option Nat := none
  fileSize : Nat := 0
  fileData : Nat := 0
deriving DecidableEq, Repr

def tag (s : String) : List UInt8 := s.toList.map fun c => UInt8.ofNat c.toNat

/-! ## Single chunks -/

def readHeader (bs : ByteStream) : (List UInt8 × Nat) × ByteStream :=
  let (fourcc, bs) := bs.getBytes 4
  let (sz, bs) := bs.getU32
  ((fourcc, sz), bs)

/-- The loop of `DDFB_FindChunk`; the result is 0 where the chunk is not found. -/
def findChunkLoop (tag : List UInt8) (origPos : Nat) : Nat → ByteStream → Option Nat × ByteStream
  | 0, bs => (none, { bs with pos := origPos })
  | fuel + 1, bs =>
    if bs.pos < bs.size ∧ bs.ok then
      let ((fourcc, sz), bs) := readHeader bs
      if bs.size < bs.pos + sz then (none, { bs with pos := origPos }) -- invalid size
      else if fourcc = tag then (some sz, bs)
      else findChunkLoop tag origPos fuel { bs with pos := bs.pos + sz }
    else (none, { bs with pos := origPos })

/-- `DDFB_FindChunk`: the length of the chunk, with the stream at its content. -/
def findChunk (bs : ByteStream) (tag : List UInt8) : Option Nat × ByteStream :=
  findChunkLoop tag bs.pos (bs.size + 1) bs

/-- `DDFB_IsChunk` -/
def isChunk (bs : ByteStream) (tag : List UInt8) : Bool :=
  decide (bs.pos + 4 < bs.size ∧ (List.range 4).map (fun i => bs.byteAt (bs.pos + i)) = tag)

/-- `DDFB_SkipChunk` -/
def skipChunk (bs : ByteStream) : ByteStream :=
  let ((_, sz), bs) := readHeader bs
  if bs.ok ∧ bs.pos + sz ≤ bs.size then { bs with pos := bs.pos + sz } else bs

/-- `DDFB_ReadExtfChunk`: the file content, and where the stream stands then -/
def readFileData (extf : ExtfChunk) (bs1 : ByteStream) : Option (ExtfChunk × ByteStream) :=
  let (fileSize, bs1) := bs1.getU32
  if bs1.size < bs1.pos + fileSize then none
  else some ({ extf with fileSize, fileData := bs1.start + bs1.pos }, bs1)

/-- `DDFB_ReadExtfChunk`: the modification time string, which is optional -/
def readTime (extf : ExtfChunk) (bs1 : ByteStream) : Option (ExtfChunk × ByteStream) :=
  let (modificationTimeLength, bs1) := bs1.getU16
  if bs1.size < bs1.pos + modificationTimeLength then none
  else
    readFileData
      { extf with
          modificationTimeLength
          modificationTime :=
            if modificationTimeLength = 0 then none else some (bs1.start + bs1.pos) }
      { bs1 with pos := bs1.pos + modificationTimeLength }

/-- `DDFB_ReadExtfChunk`: the file path string -/
def readPath (extf : ExtfChunk) (bs1 : ByteStream) : Option (ExtfChunk × ByteStream) :=
  let (pathLength, bs1) := bs1.getU16
  if bs1.size < bs1.pos + pathLength then none
  else
    readTime { extf with pathLength, path := bs1.start + bs1.pos }
      { bs1 with pos := bs1.pos + pathLength }

/-- `DDFB_ReadExtfChunk`: the content of the chunk, from the file type on -/
def readFields (bs1 : ByteStream) : Option (ExtfChunk × ByteStream) :=
  let (fileType, bs1) := bs1.getBytes 4
  readPath { fileType } bs1

/-- `DDFB_ReadExtfChunk` -/
def readExtfChunk (bs : ByteStream) : Option ExtfChunk × ByteStream :=
  let ((_, chunkSize), bs) := readHeader bs
  if ¬ bs.ok then (none, bs)
  else if bs.size < bs.pos + chunkSize then (none, bs)
  else -- move bs behind chunk
    ((readFields (bs.sub chunkSize)).map Prod.fst, { bs with pos := bs.pos + chunkSize })

/-- What the loop of `readAllBundles` works on: the number of descriptors that still fit in the
scratch memory, and the stream. -/
structure WalkState where
  room : Nat
  bs : ByteStream
deriving DecidableEq, Repr

/-- The loop reads an `EXTF` chunk. -/
def WalkState.reads (st : WalkState) : Bool := isChunk st.bs (tag "EXTF") && decide (0 < st.room)

def walkStep (st : WalkState) : Option ExtfChunk × WalkState :=
  if st.reads then
    match readExtfChunk st.bs with
    | (some extf, bs) => (some extf, ⟨st.room - 1, bs⟩)
    | (none, bs) => (none, ⟨st.room - 1, skipChunk bs⟩)
  else (none, ⟨st.room, skipChunk st.bs⟩)

/-- The states of the loop before each turn; `none` when it does not end within the fuel. -/
def walkStates : Nat → WalkState → Option (List WalkState)
  | 0, _ => none
  | fuel + 1, st =>
    if st.bs.ok then (walkStates fuel (walkStep st).2).map (st :: ·) else some []

def collected (states : List WalkState) : List (ByteStream × ExtfChunk) :=
  states.filterMap fun st => (walkStep st).1.map fun extf => (st.bs, extf)

/-- The content of the `DDFB` chunk of a bundle file. -/
def ddfbContent (file : List UInt8) : Option ByteStream :=
  match findChunk (.ofBytes file) (tag "RIFF") with
  | (none, _) => none
  | (some _, bs) =>
    match findChunk bs (tag "DDFB") with
    | (none, _) => none
    | (some chunkSize, bs) => some (bs.sub chunkSize)

/-! ## The fields of an `EXTF` chunk -/

/-- The three lengths in the content of a chunk, each where the ones before it place it. -/
def pathLengthOf (c : ByteStream) : Nat := c.u16At 4

def timeLengthOf (c : ByteStream) : Nat := c.u16At (6 + pathLengthOf c)

def fileSizeOf (c : ByteStream) : Nat := c.u32At (8 + pathLengthOf c + timeLengthOf c)

/-- The content has all header fields: the file type, the path and the time with their lengths, and
the length of the file. -/
def FieldsPresent (c : ByteStream) : Prop := 12 + pathLengthOf c + timeLengthOf c ≤ c.size

def WellFormed (c : ByteStream) : Prop :=
  12 + pathLengthOf c + timeLengthOf c + fileSizeOf c ≤ c.size

/-- The content ends in the file type or in one of the three lengths. -/
def EndsInField (c : ByteStream) : Prop :=
  c.size < 6 ∨ (6 + pathLengthOf c ≤ c.size ∧ c.size < 8 + pathLengthOf c) ∨
    (8 + pathLengthOf c + timeLengthOf c ≤ c.size ∧ c.size < 12 + pathLengthOf c + timeLengthOf c)

instance (c : ByteStream) : Decidable (FieldsPresent c) := inferInstanceAs (Decidable (_ ≤ _))

instance (c : ByteStream) : Decidable (WellFormed c) := inferInstanceAs (Decidable (_ ≤ _))

instance (c : ByteStream) : Decidable (EndsInField c) := inferInstanceAs (Decidable (_ ∨ _))

variable {bs : ByteStream} (extf : ExtfChunk)

theorem readFileData_isSome (hok : bs.ok = true) (hpos : bs.pos ≤ bs.size) :
    (readFileData extf bs).isSome = true ↔ bs.size < bs.pos + 4 ∨ bs.pos + 4 + bs.u32At bs.pos ≤
      bs.size := by
  unfold readFileData
  rw [ByteStream.getU32_eq hok]
  by_cases hread : bs.pos + 4 ≤ bs.size
  · rw [if_pos hread]
    simp only
    split
    · simp only [Option.isSome_none, Bool.false_eq_true, false_iff]
      omega
    · simp only [Option.isSome_some, true_iff]
      omega
  · rw [if_neg hread]
    simp only
    rw [if_neg (show ¬ bs.size < bs.pos + 0 by omega)]
    simp only [Option.isSome_some, true_iff]
    omega

theorem readFileData_not_ok (hok : bs.ok = false) (hpos : bs.pos ≤ bs.size) :
    (readFileData extf bs).isSome = true := by
  unfold readFileData
  rw [ByteStream.getU32_not_ok hok]
  simp only
  rw [if_neg (show ¬ bs.size < bs.pos + 0 from Nat.not_lt.mpr hpos)]
  rfl

theorem readTime_isSome (hok : bs.ok = true) (hpos : bs.pos ≤ bs.size) :
    (readTime extf bs).isSome = true ↔ bs.size < bs.pos +
      2 ∨
        (bs.pos + 2 + bs.u16At bs.pos ≤ bs.size ∧
          (bs.size < bs.pos + 2 + bs.u16At bs.pos + 4 ∨ bs.pos + 2 + bs.u16At bs.pos + 4 +
            bs.u32At (bs.pos + 2 + bs.u16At bs.pos) ≤ bs.size)) := by
  unfold readTime
  rw [ByteStream.getU16_eq hok]
  by_cases hread : bs.pos + 2 ≤ bs.size
  · rw [if_pos hread]
    simp only
    split
    · simp only [Option.isSome_none, Bool.false_eq_true, false_iff]
      omega
    · rename_i hfits
      have hok' : ({ bs with pos := bs.pos + 2 + bs.u16At bs.pos } : ByteStream).ok = true := hok
      rw [readFileData_isSome _ hok' (Nat.not_lt.mp hfits)]
      show bs.size < bs.pos + 2 + bs.u16At bs.pos + 4 ∨ bs.pos + 2 + bs.u16At bs.pos + 4 +
        bs.u32At (bs.pos + 2 + bs.u16At bs.pos) ≤ bs.size ↔ _
      omega
  · rw [if_neg hread]
    simp only
    rw [if_neg (show ¬ bs.size < bs.pos + 0 by omega)]
    constructor
    · exact fun _ => .inl (Nat.not_le.mp hread)
    · exact fun _ => readFileData_not_ok _ rfl hpos

theorem readTime_not_ok (hok : bs.ok = false) (hpos : bs.pos ≤ bs.size) :
    (readTime extf bs).isSome = true := by
  unfold readTime
  rw [ByteStream.getU16_not_ok hok]
  simp only
  rw [if_neg (show ¬ bs.size < bs.pos + 0 from Nat.not_lt.mpr hpos)]
  exact readFileData_not_ok _ hok hpos

theorem readPath_isSome (hok : bs.ok = true) (hpos : bs.pos ≤ bs.size) :
    (readPath extf bs).isSome = true ↔ bs.size < bs.pos +
      2 ∨
        (bs.pos + 2 + bs.u16At bs.pos ≤ bs.size ∧
          (readTime { extf with pathLength := bs.u16At bs.pos, path := bs.start + (bs.pos + 2) }
            { bs with pos := bs.pos + 2 + bs.u16At bs.pos }).isSome = true) := by
  unfold readPath
  rw [ByteStream.getU16_eq hok]
  by_cases hread : bs.pos + 2 ≤ bs.size
  · rw [if_pos hread]
    simp only
    split
    · simp only [Option.isSome_none, Bool.false_eq_true, false_iff]
      omega
    · rename_i hfits
      constructor
      · exact fun hsome => .inr ⟨Nat.not_lt.mp hfits, hsome⟩
      · rintro (hshort | ⟨-, hsome⟩)
        · omega
        · exact hsome
  · rw [if_neg hread]
    simp only
    rw [if_neg (show ¬ bs.size < bs.pos + 0 by omega)]
    constructor
    · exact fun _ => .inl (Nat.not_le.mp hread)
    · exact fun _ => readTime_not_ok _ rfl hpos

theorem readPath_not_ok (hok : bs.ok = false) (hpos : bs.pos ≤ bs.size) :
    (readPath extf bs).isSome = true := by
  unfold readPath
  rw [ByteStream.getU16_not_ok hok]
  simp only
  rw [if_neg (show ¬ bs.size < bs.pos + 0 from Nat.not_lt.mpr hpos)]
  exact readTime_not_ok _ hok hpos

variable {c : ByteStream}

/-- **What the reader accepts**: a content with everything in it, and one that ends in a field, as
the status of the stream is not looked at. -/
theorem readFields_isSome (hpos : c.pos = 0) (hok : c.ok = true) :
    (readFields c).isSome = true ↔ WellFormed c ∨ EndsInField c := by
  unfold readFields
  by_cases htype : 4 ≤ c.size
  · have hread : c.readable 4 = true := ByteStream.readable_iff.mpr ⟨hok, by omega⟩
    have hstream := ByteStream.getBytes_of_readable 4 c hread
    rw [hpos, Nat.zero_add] at hstream
    simp only [hstream]
    have hok' (pos : Nat) : ({ c with pos := pos } : ByteStream).ok = true := hok
    rw [readPath_isSome _ (hok' 4) htype]
    show c.size < 6 ∨ (6 + pathLengthOf c ≤ c.size ∧ _) ↔ _
    by_cases hpath : 6 + pathLengthOf c ≤ c.size
    · refine Iff.trans (or_congr Iff.rfl (and_congr Iff.rfl
        (readTime_isSome _ (hok' (6 + pathLengthOf c)) hpath))) ?_
      show c.size < 6 ∨ (6 + pathLengthOf c ≤ c.size ∧ (c.size < 6 + pathLengthOf c + 2 ∨
        (6 + pathLengthOf c + 2 + timeLengthOf c ≤ c.size ∧
          (c.size < 6 + pathLengthOf c + 2 + timeLengthOf c + 4 ∨ 6 + pathLengthOf c + 2 +
            timeLengthOf c + 4 + c.u32At (6 + pathLengthOf c + 2 + timeLengthOf c) ≤ c.size)))) ↔ _
      have hplace : 6 + pathLengthOf c + 2 + timeLengthOf c = 8 + pathLengthOf c +
          timeLengthOf c := by omega
      rw [hplace]
      show c.size < 6 ∨ (6 + pathLengthOf c ≤ c.size ∧ (c.size < 6 + pathLengthOf c + 2 ∨
        (8 + pathLengthOf c + timeLengthOf c ≤ c.size ∧
          (c.size < 8 + pathLengthOf c + timeLengthOf c + 4 ∨ 8 + pathLengthOf c + timeLengthOf c +
            4 + fileSizeOf c ≤ c.size)))) ↔ _
      unfold WellFormed EndsInField
      omega
    · unfold WellFormed EndsInField
      constructor
      · rintro (hshort | ⟨hfits, -⟩)
        · exact .inr (.inl hshort)
        · exact absurd hfits hpath
      · rintro (hwell | hshort | ⟨hfits, -⟩ | ⟨hfits, -⟩)
        · omega
        · exact .inl hshort
        · exact absurd hfits hpath
        · omega
  · have hfail : (c.getBytes 4).2.ok = false := by
      rw [ByteStream.getBytes_ok (by decide)]
      refine Bool.eq_false_iff.mpr fun hread => htype ?_
      have hbound := (ByteStream.readable_iff.mp hread).2
      omega
    have hbound : (c.getBytes 4).2.pos ≤ (c.getBytes 4).2.size :=
      ByteStream.getBytes_pos_le 4 (by omega)
    constructor
    · exact fun _ => .inr (.inl (by omega))
    · exact fun _ => readPath_not_ok _ hfail hbound

structure InContent (c : ByteStream) (e : ExtfChunk) : Prop where
  path : c.start ≤ e.path ∧ e.path + e.pathLength ≤ c.start + c.size
  modificationTime : ∀ t ∈ e.modificationTime, c.start ≤ t ∧ t + e.modificationTimeLength ≤
    c.start + c.size
  fileData : c.start ≤ e.fileData ∧ e.fileData + e.fileSize ≤ c.start + c.size

variable {e e' : ExtfChunk}

theorem readFileData_in {c bs bs' : ByteStream} (h : readFileData e bs = some (e', bs'))
    (hstart : bs.start = c.start) (hsize : bs.size = c.size)
    (hpath : c.start ≤ e.path ∧ e.path + e.pathLength ≤ c.start + c.size)
    (htime : ∀ t ∈ e.modificationTime, c.start ≤ t ∧ t + e.modificationTimeLength ≤ c.start + c.size)
    : InContent c e' := by
  have hsame : (bs.skip 4).start = c.start ∧ (bs.skip 4).size = c.size :=
    ⟨ByteStream.skip_start.trans hstart, ByteStream.skip_size.trans hsize⟩
  unfold readFileData ByteStream.getU32 at h
  generalize (if bs.readable 4 then bs.u32At bs.pos else 0) = fileSize at h
  simp only [hsame.1, hsame.2] at h
  by_cases hfits : c.size < (bs.skip 4).pos + fileSize
  · rw [if_pos hfits] at h
    exact absurd h (by simp)
  · rw [if_neg hfits, Option.some.injEq, Prod.mk.injEq] at h
    obtain ⟨rfl, -⟩ := h
    refine ⟨hpath, htime, ?_⟩
    simp only
    omega

theorem readTime_in {c bs bs' : ByteStream} (h : readTime e bs = some (e', bs'))
    (hstart : bs.start = c.start) (hsize : bs.size = c.size)
    (hpath : c.start ≤ e.path ∧ e.path + e.pathLength ≤ c.start + c.size) : InContent c e' := by
  have hsame : (bs.skip 2).start = c.start ∧ (bs.skip 2).size = c.size :=
    ⟨ByteStream.skip_start.trans hstart, ByteStream.skip_size.trans hsize⟩
  unfold readTime ByteStream.getU16 at h
  generalize (if bs.readable 2 then bs.u16At bs.pos else 0) = timeLength at h
  simp only [hsame.1, hsame.2] at h
  by_cases hfits : c.size < (bs.skip 2).pos + timeLength
  · rw [if_pos hfits] at h
    exact absurd h (by simp)
  · rw [if_neg hfits] at h
    refine readFileData_in h rfl rfl hpath ?_
    intro t ht
    by_cases hempty : timeLength = 0
    · simp only [hempty, if_true] at ht
      exact absurd ht (by simp)
    · simp only [hempty, if_false, Option.mem_some_iff] at ht
      subst ht
      simp only
      omega

theorem readPath_in {c bs bs' : ByteStream} (h : readPath e bs = some (e', bs'))
    (hstart : bs.start = c.start) (hsize : bs.size = c.size) : InContent c e' := by
  have hsame : (bs.skip 2).start = c.start ∧ (bs.skip 2).size = c.size :=
    ⟨ByteStream.skip_start.trans hstart, ByteStream.skip_size.trans hsize⟩
  unfold readPath ByteStream.getU16 at h
  generalize (if bs.readable 2 then bs.u16At bs.pos else 0) = pathLength at h
  simp only [hsame.1, hsame.2] at h
  by_cases hfits : c.size < (bs.skip 2).pos + pathLength
  · rw [if_pos hfits] at h
    exact absurd h (by simp)
  · rw [if_neg hfits] at h
    refine readTime_in h rfl rfl ?_
    simp only
    omega

theorem readFields_in {c bs' : ByteStream} {e : ExtfChunk} (h : readFields c = some (e, bs')) :
    InContent c e := by
  have hsame := ByteStream.getBytes_place 4 c
  exact readPath_in h hsame.1 hsame.2

def content (bs : ByteStream) : ByteStream :=
  { data := bs.data, start := bs.start + (bs.pos + 8), size := bs.u32At (bs.pos + 4) }

/-- The chunk at the position of the stream lies within it. -/
def Fits (bs : ByteStream) : Prop := bs.pos + 8 + (content bs).size ≤ bs.size

instance (bs : ByteStream) : Decidable (Fits bs) := inferInstanceAs (Decidable (_ ≤ _))

def behind (bs : ByteStream) : ByteStream := { bs with pos := bs.pos + 8 + (content bs).size }

theorem readHeader_of_readable (h : bs.readable 8 = true) :
    (readHeader bs).1.2 = (content bs).size ∧ (readHeader bs).2 =
      { bs with pos := bs.pos + 8 } := by
  have hbound := ByteStream.readable_iff.mp h
  have htag : bs.readable 4 = true := ByteStream.readable_iff.mpr ⟨hbound.1, by omega⟩
  have hstream := ByteStream.getBytes_of_readable 4 bs htag
  have hok : ({ bs with pos := bs.pos + 4 } : ByteStream).ok = true := hbound.1
  have hlength := ByteStream.getU32_eq hok
  rw [if_pos (show bs.pos + 4 + 4 ≤ bs.size by omega)] at hlength
  unfold readHeader
  simp only [hstream, hlength]
  exact ⟨rfl, trivial⟩

theorem readHeader_not_ok (h : bs.readable 8 = false) : (readHeader bs).2.ok = false := by
  show ((bs.getBytes 4).2.skip 4).ok = false
  rw [ByteStream.skip_ok, ByteStream.getBytes_readable]
  exact h

theorem skipChunk_not_ok (h : bs.readable 8 = false) : (skipChunk bs).ok = false := by
  have hheader := readHeader_not_ok h
  simp only [skipChunk]
  rw [if_neg (by rw [hheader]; exact fun hok => absurd hok.1 Bool.false_ne_true)]
  exact hheader

theorem skipChunk_eq (h : bs.readable 8 = true) :
    skipChunk bs = if Fits bs then behind bs else { bs with pos := bs.pos + 8 } := by
  obtain ⟨hsize, hstream⟩ := readHeader_of_readable h
  have hok := (ByteStream.readable_iff.mp h).1
  unfold skipChunk
  simp only [hsize, hstream]
  by_cases hfits : Fits bs
  · rw [if_pos hfits, if_pos ⟨hok, hfits⟩]
    rfl
  · rw [if_neg hfits, if_neg (fun hboth => hfits hboth.2)]

theorem readExtfChunk_not_ok (h : bs.readable 8 = false) :
    (readExtfChunk bs).1 = none ∧ (readExtfChunk bs).2.ok = false := by
  have hheader := readHeader_not_ok h
  unfold readExtfChunk
  simp only [hheader, Bool.false_eq_true, not_false_eq_true, if_true, and_self]

theorem readExtfChunk_eq (h : bs.readable 8 = true) :
    readExtfChunk bs =
      if Fits bs then ((readFields (content bs)).map Prod.fst, behind bs)
      else (none, { bs with pos := bs.pos + 8 }) := by
  obtain ⟨hsize, hstream⟩ := readHeader_of_readable h
  have hok := (ByteStream.readable_iff.mp h).1
  unfold readExtfChunk
  simp only [hsize, hstream]
  rw [if_neg (not_not.mpr hok)]
  by_cases hfits : Fits bs
  · rw [if_neg (Nat.not_lt.mpr hfits), if_pos hfits]
    rfl
  · rw [if_pos (Nat.not_le.mp hfits), if_neg hfits]

/-! ## The chain of chunks -/

/-- The stream where the skipper leaves it. -/
def after (bs : ByteStream) : ByteStream :=
  if Fits bs then behind bs else { bs with pos := bs.pos + 8 }

theorem after_ok (bs : ByteStream) : (after bs).ok = bs.ok := by
  unfold after
  split <;> rfl

theorem after_size (bs : ByteStream) : (after bs).size = bs.size := by
  unfold after
  split <;> rfl

theorem lt_after_pos (bs : ByteStream) : bs.pos < (after bs).pos := by
  unfold after
  split
  · show bs.pos < bs.pos + 8 + (content bs).size
    omega
  · show bs.pos < bs.pos + 8
    omega

/-- The chunks from the position of the stream on, one behind the other.  Of a chunk that does not
fit only the header counts. -/
def chunks (bs : ByteStream) : List ByteStream :=
  if bs.readable 8 then bs :: chunks (after bs) else []
termination_by bs.size - bs.pos
decreasing_by
  rename_i hread
  have hbound := (ByteStream.readable_iff.mp hread).2
  have hlt := lt_after_pos bs
  rw [after_size]
  omega

theorem chunks_of_readable (h : bs.readable 8 = true) : chunks bs = bs :: chunks (after bs) := by
  rw [chunks, if_pos h]

theorem chunks_of_not_readable (h : bs.readable 8 = false) : chunks bs = [] := by
  rw [chunks, h, if_neg Bool.false_ne_true]

def descriptor (bs : ByteStream) : Option ExtfChunk :=
  if Fits bs then (readFields (content bs)).map Prod.fst else none

/-- The descriptors that are collected from a chain of chunks.  Where the reader fails, the skipper
takes the next chunk away as well. -/
def collects : Nat → Bool → List ByteStream → List (ByteStream × ExtfChunk)
  | _, _, [] => []
  | room, skip, chunk :: rest =>
    if skip ∨ (WalkState.mk room chunk).reads = false then collects room false rest
    else
      match descriptor chunk with
      | some extf => (chunk, extf) :: collects (room - 1) false rest
      | none => collects (room - 1) true rest

theorem skipChunk_eq_after (h : bs.readable 8 = true) : skipChunk bs = after bs := skipChunk_eq h

theorem readExtfChunk_eq_after (h : bs.readable 8 = true) :
    readExtfChunk bs = (descriptor bs, after bs) := by
  rw [readExtfChunk_eq h]
  unfold descriptor after
  split <;> rfl

theorem collects_skip (room : Nat) (bs : ByteStream) :
    collects room true (chunks bs) = collects room false (chunks (skipChunk bs)) := by
  by_cases hread : bs.readable 8 = true
  · rw [chunks_of_readable hread, skipChunk_eq_after hread]
    simp only [collects, true_or, if_true]
  · have hread := Bool.eq_false_iff.mpr hread
    have hend : (skipChunk bs).readable 8 = false :=
      ByteStream.readable_not_ok (skipChunk_not_ok hread)
    rw [chunks_of_not_readable hread, chunks_of_not_readable hend]
    rfl

variable {st : WalkState}

theorem walkStep_not_readable (h : st.bs.readable 8 = false) :
    (walkStep st).1 = none ∧ (walkStep st).2.bs.ok = false := by
  unfold walkStep
  by_cases hreads : st.reads = true
  · obtain ⟨hnone, hok⟩ := readExtfChunk_not_ok h
    rw [if_pos hreads]
    generalize readExtfChunk st.bs = result at hnone hok
    obtain ⟨extf, bs⟩ := result
    simp only at hnone hok
    subst hnone
    exact ⟨rfl, skipChunk_not_ok (ByteStream.readable_not_ok hok)⟩
  · rw [if_neg hreads]
    exact ⟨rfl, skipChunk_not_ok h⟩

theorem walkStep_readable (h : st.bs.readable 8 = true) :
    walkStep st = if st.reads =
      false then (none, ⟨st.room, after st.bs⟩)
      else
        match descriptor st.bs with
        | some extf => (some extf, ⟨st.room - 1, after st.bs⟩)
        | none => (none, ⟨st.room - 1, skipChunk (after st.bs)⟩) := by
  unfold walkStep
  rw [readExtfChunk_eq_after h, skipChunk_eq_after h]
  cases hreads : st.reads with
  | false => rfl
  | true => cases descriptor st.bs <;> rfl

theorem collects_step (st : WalkState) :
    collects st.room false (chunks st.bs) =
      ((walkStep st).1.map fun extf => (st.bs, extf)).toList ++
        collects (walkStep st).2.room false (chunks (walkStep st).2.bs) := by
  by_cases hread : st.bs.readable 8 = true
  · rw [chunks_of_readable hread, walkStep_readable hread]
    simp only [collects, Bool.false_eq_true, false_or]
    by_cases hreads : st.reads = false
    · simp only [hreads, if_true, Option.map_none, Option.toList_none, nil_append]
    · rw [if_neg hreads, if_neg hreads]
      cases descriptor st.bs with
      | none => exact collects_skip (st.room - 1) (after st.bs)
      | some extf => rfl
  · have hread := Bool.eq_false_iff.mpr hread
    obtain ⟨hnone, hok⟩ := walkStep_not_readable hread
    rw [chunks_of_not_readable hread, hnone,
      chunks_of_not_readable (ByteStream.readable_not_ok hok)]
    rfl

theorem walkStep_progress (h : (walkStep st).2.bs.ok = true) :
    (walkStep st).2.bs.size - (walkStep st).2.bs.pos < st.bs.size - st.bs.pos := by
  by_cases hread : st.bs.readable 8 = true
  · have hbound := (ByteStream.readable_iff.mp hread).2
    have hafter := lt_after_pos st.bs
    have hsize := after_size st.bs
    have hdecreases : (after st.bs).size - (after st.bs).pos < st.bs.size - st.bs.pos := by
      omega
    rw [walkStep_readable hread] at h ⊢
    by_cases hreads : st.reads = false
    · rw [if_pos hreads]
      exact hdecreases
    · rw [if_neg hreads] at h ⊢
      cases hdescriptor : descriptor st.bs with
      | some extf => exact hdecreases
      | none =>
        -- The next chunk is skipped too, and its header must be there.
        rw [hdescriptor] at h
        by_cases hnext : (after st.bs).readable 8 = true
        · have hskip := lt_after_pos (after st.bs)
          have hskipSize := after_size (after st.bs)
          show (skipChunk (after st.bs)).size - (skipChunk (after st.bs)).pos < _
          rw [skipChunk_eq_after hnext]
          omega
        · have hok : (skipChunk (after st.bs)).ok = false :=
            skipChunk_not_ok (Bool.eq_false_iff.mpr hnext)
          exact absurd h (by simp [hok])
  · have hok := (walkStep_not_readable (Bool.eq_false_iff.mpr hread)).2
    exact absurd h (by simp [hok])

/-- **The walk ends**, and collects what its chain of chunks gives. -/
theorem walk_ends (st : WalkState) : ∃ fuel states, walkStates fuel st = some states ∧
    collected states = collects st.room false (chunks st.bs) := by
  -- a turn that leaves the stream in order has moved it on
  induction hmeasure : st.bs.size - st.bs.pos using Nat.strongRecOn generalizing st with
  | ind measure ih =>
    by_cases hok : st.bs.ok = true
    · have hnext : ∃ fuel states, walkStates fuel (walkStep st).2 = some states ∧ collected states =
          collects (walkStep st).2.room false (chunks (walkStep st).2.bs) := by
        by_cases hnextOk : (walkStep st).2.bs.ok = true
        · exact ih _ (hmeasure ▸ walkStep_progress hnextOk) _ rfl
        · have hend := Bool.eq_false_iff.mpr hnextOk
          refine ⟨1, [], ?_, ?_⟩
          · simp only [walkStates, hend, Bool.false_eq_true, if_false]
          · rw [chunks_of_not_readable (ByteStream.readable_not_ok hend)]
            rfl
      obtain ⟨fuel, states, hrun, hcollected⟩ := hnext
      refine ⟨fuel + 1, st :: states, ?_, ?_⟩
      · simp only [walkStates, hok, if_true, hrun, Option.map_some]
      · rw [collects_step, ← hcollected]
        unfold collected
        cases hdescriptor : (walkStep st).1 with
        | none => simp only [filterMap_cons, hdescriptor, Option.map_none,
            Option.toList_none, nil_append]
        | some extf => simp only [filterMap_cons, hdescriptor, Option.map_some,
            Option.toList_some, singleton_append]
    · have hend := Bool.eq_false_iff.mpr hok
      refine ⟨1, [], ?_, ?_⟩
      · simp only [walkStates, hend, Bool.false_eq_true, if_false]
      · rw [chunks_of_not_readable (ByteStream.readable_not_ok hend)]
        rfl

theorem walkStates_unique : ∀ {fuel fuel' : Nat} {st : WalkState} {states states' : List WalkState},
    walkStates fuel st = some states → walkStates fuel' st = some states' → states = states'
  | 0, _, _, _, _, h, _ => absurd h (by simp [walkStates])
  | _ + 1, 0, _, _, _, _, h' => absurd h' (by simp [walkStates])
  | fuel + 1, fuel' + 1, st, states, states', h, h' => by
    unfold walkStates at h h'
    by_cases hok : st.bs.ok = true
    · rw [if_pos hok, Option.map_eq_some_iff] at h h'
      obtain ⟨later, hlater, rfl⟩ := h
      obtain ⟨later', hlater', rfl⟩ := h'
      rw [walkStates_unique hlater hlater']
    · rw [if_neg hok, Option.some.injEq] at h h'
      rw [← h, ← h']

/-! ## What a chain gives -/

/-- An `EXTF` chunk with all header fields and the file in it -/
def Complete (chunk : ByteStream) : Prop :=
  isChunk chunk (tag "EXTF") = true ∧ Fits chunk ∧ WellFormed (content chunk)

instance (chunk : ByteStream) : Decidable (Complete chunk) := inferInstanceAs (Decidable (_ ∧ _))

/-- A chunk that is reached from the start of the stream over chunks that fit. -/
def TopLevel (bs chunk : ByteStream) : Prop :=
  Relation.ReflTransGen (fun first next => Fits first ∧ next = behind first) bs chunk

/-- The chain can be collected from: the loop reads no chunk that ends in one of its fields, and
every complete chunk of the top level finds the loop with room for it and not about to skip the
chunk behind a malformed one. -/
def Passes : Nat → Bool → Bool → List ByteStream → Prop
  | _, _, _, [] => True
  | room, skip, top, chunk :: rest =>
    if skip ∨ (WalkState.mk room chunk).reads = false then
      ¬ (top = true ∧ Complete chunk) ∧ Passes room false (top && decide (Fits chunk)) rest
    else
      ¬ (Fits chunk ∧ EndsInField (content chunk)) ∧
        Passes (room - 1) (decide (¬ Complete chunk)) (top && decide (Fits chunk)) rest

/-- The chunks that are reached over chunks that fit, and fit themselves. -/
def topChunks (chain : List ByteStream) : List ByteStream :=
  chain.takeWhile fun chunk => decide (Fits chunk)

variable {chunk : ByteStream}

theorem topChunks_of_fits {rest : List ByteStream} (h : Fits chunk) :
    topChunks (chunk :: rest) = chunk :: topChunks rest :=
  takeWhile_cons_of_pos (p := fun chunk => decide (Fits chunk)) (decide_eq_true h)

theorem topChunks_of_not_fits {rest : List ByteStream} (h : ¬ Fits chunk) :
    topChunks (chunk :: rest) = [] :=
  takeWhile_cons_of_neg (p := fun chunk => decide (Fits chunk)) (by simpa using h)

/-- The chain is collected from as it should be. -/
def Collected (room : Nat) (skip top : Bool) (chain : List ByteStream) : Prop :=
  (∀ found ∈ collects room skip chain, FieldsPresent (content found.1)) ∧
    (top = true → ∀ chunk ∈ topChunks chain, Complete chunk → chunk ∈
      (collects room skip chain).map Prod.fst)

theorem EndsInField.not_fieldsPresent (h : EndsInField c) : ¬ FieldsPresent c := by
  unfold EndsInField at h
  unfold FieldsPresent
  omega

theorem WellFormed.fieldsPresent (h : WellFormed c) : FieldsPresent c := by
  unfold WellFormed at h
  unfold FieldsPresent
  omega

theorem descriptor_isSome (chunk : ByteStream) : (descriptor chunk).isSome = true ↔ Fits chunk ∧
    (WellFormed (content chunk) ∨ EndsInField (content chunk)) := by
  unfold descriptor
  by_cases hfits : Fits chunk
  · rw [if_pos hfits, Option.isSome_map, readFields_isSome rfl rfl, and_iff_right hfits]
  · rw [if_neg hfits]
    exact ⟨fun h => absurd h Bool.false_ne_true, fun h => absurd h.1 hfits⟩

theorem collects_sublist : ∀ (room : Nat) (skip : Bool) (chain : List ByteStream),
    List.Sublist ((collects room skip chain).map Prod.fst) chain
  | _, _, [] => List.Sublist.refl _
  | room, skip, chunk :: rest => by
    unfold collects
    by_cases hpassed : skip ∨ (WalkState.mk room chunk).reads = false
    · rw [if_pos hpassed]
      exact (collects_sublist room false rest).cons chunk
    · rw [if_neg hpassed]
      cases descriptor chunk with
      | some extf => exact (collects_sublist (room - 1) false rest).cons_cons chunk
      | none => exact (collects_sublist (room - 1) true rest).cons chunk

theorem descriptor_of_mem_collects : ∀ {room : Nat} {skip : Bool} {chain : List ByteStream}
    {found : ByteStream × ExtfChunk}, found ∈ collects room skip chain →
    descriptor found.1 = some found.2
  | _, _, [], _, h => absurd h not_mem_nil
  | room, skip, chunk :: rest, found, h => by
    unfold collects at h
    by_cases hpassed : skip ∨ (WalkState.mk room chunk).reads = false
    · rw [if_pos hpassed] at h
      exact descriptor_of_mem_collects h
    · rw [if_neg hpassed] at h
      cases hdescriptor : descriptor chunk with
      | none =>
        rw [hdescriptor] at h
        exact descriptor_of_mem_collects h
      | some extf =>
        rw [hdescriptor] at h
        rcases mem_cons.mp h with rfl | h
        · exact hdescriptor
        · exact descriptor_of_mem_collects h

theorem forall_complete_cons (top : Bool) (chunk : ByteStream) (rest found : List ByteStream) :
    (top = true → ∀ c ∈ topChunks (chunk :: rest), Complete c → c ∈ found) ↔
      (top = true → Complete chunk → chunk ∈ found) ∧
        ((top && decide (Fits chunk)) = true → ∀ c ∈ topChunks rest, Complete c → c ∈ found) := by
  by_cases hfits : Fits chunk
  · rw [topChunks_of_fits hfits, decide_eq_true hfits, Bool.and_true]
    simp only [forall_mem_cons]
    exact ⟨fun h => ⟨fun htop => (h htop).1, fun htop => (h htop).2⟩,
      fun h htop => ⟨h.1 htop, h.2 htop⟩⟩
  · rw [topChunks_of_not_fits hfits, decide_eq_false hfits, Bool.and_false]
    constructor
    · intro _
      exact ⟨fun _ hcomplete => absurd hcomplete.2.1 hfits,
        fun htop => absurd htop Bool.false_ne_true⟩
    · intro _ _ c hc
      exact absurd hc not_mem_nil

theorem WalkState.isChunk_of_reads {room : Nat} (h : (WalkState.mk room chunk).reads = true) :
    isChunk chunk (tag "EXTF") = true :=
  (Bool.and_eq_true_iff.mp h).1

theorem collected_iff_passes : ∀ (room : Nat) (skip top : Bool) (chain : List ByteStream),
    chain.Nodup → (Collected room skip top chain ↔ Passes room skip top chain)
  | _, _, _, [], _ => by
    unfold Collected Passes collects topChunks
    simp
  | room, skip, top, chunk :: rest, hnodup => by
    obtain ⟨hfirst, hrest⟩ := nodup_cons.mp hnodup
    have hnew : ∀ room skip, chunk ∉ (collects room skip rest).map Prod.fst :=
      fun room skip hmem => hfirst ((collects_sublist room skip rest).subset hmem)
    unfold Collected Passes
    rw [forall_complete_cons]
    by_cases hpassed : skip ∨ (WalkState.mk room chunk).reads = false
    · -- The chunk is passed over.
      have hcollects : collects room skip (chunk :: rest) = collects room false rest := by
        rw [collects, if_pos hpassed]
      rw [if_pos hpassed, hcollects, ← collected_iff_passes room false _ rest hrest]
      unfold Collected
      have hlost : (top = true → Complete chunk → chunk ∈
          (collects room false rest).map Prod.fst) ↔ ¬ (top = true ∧ Complete chunk) :=
        ⟨fun h hboth => hnew room false (h hboth.1 hboth.2),
          fun h htop hcomplete => absurd ⟨htop, hcomplete⟩ h⟩
      rw [hlost]
      exact and_left_comm
    · have htag : isChunk chunk (tag "EXTF") = true :=
        WalkState.isChunk_of_reads ((Bool.not_eq_false _).mp fun h => hpassed (.inr h))
      rw [if_neg hpassed]
      cases hdescriptor : descriptor chunk with
      | some extf =>
        -- The chunk is read.
        have hread := (descriptor_isSome chunk).mp (by rw [hdescriptor]; rfl)
        have hcollects : collects room skip (chunk :: rest) = (chunk, extf) ::
            collects (room - 1) false rest := by
          rw [collects, if_neg hpassed, hdescriptor]
        rw [hcollects, forall_mem_cons, map_cons]
        by_cases hends : EndsInField (content chunk)
        · constructor
          · exact fun h => absurd h.1.1 hends.not_fieldsPresent
          · exact fun h => absurd ⟨hread.1, hends⟩ h.1
        · have hwell : WellFormed (content chunk) := hread.2.resolve_right hends
          have hcomplete : Complete chunk := ⟨htag, hread.1, hwell⟩
          rw [decide_eq_false (not_not.mpr hcomplete),
            ← collected_iff_passes (room - 1) false _ rest hrest]
          unfold Collected
          constructor
          · rintro ⟨⟨-, hfields⟩, -, hfound⟩
            refine ⟨fun h => hends h.2, hfields, fun htop c hc hc' => ?_⟩
            rcases mem_cons.mp (hfound htop c hc hc') with rfl | hmem
            · exact absurd ((takeWhile_sublist _).subset hc) hfirst
            · exact hmem
          · rintro ⟨-, hfields, hfound⟩
            refine ⟨⟨hwell.fieldsPresent, hfields⟩, fun _ _ => mem_cons_self, ?_⟩
            exact fun htop c hc hc' => mem_cons_of_mem _ (hfound htop c hc hc')
      | none =>
        -- The chunk is malformed, and the next one is skipped.
        have hnot : ¬ (Fits chunk ∧
            (WellFormed (content chunk) ∨ EndsInField (content chunk))) := by
          rw [← descriptor_isSome, hdescriptor]
          exact Bool.false_ne_true
        have hcomplete : ¬ Complete chunk := fun h => hnot ⟨h.2.1, .inl h.2.2⟩
        have hcollects : collects room skip (chunk :: rest) = collects (room - 1) true rest := by
          rw [collects, if_neg hpassed, hdescriptor]
        rw [hcollects, decide_eq_true hcomplete,
          ← collected_iff_passes (room - 1) true _ rest hrest]
        unfold Collected
        constructor
        · exact fun h => ⟨fun hboth => hnot ⟨hboth.1, .inr hboth.2⟩, h.1, h.2.2⟩
        · exact fun h => ⟨h.2.1, fun _ hc => absurd hc hcomplete, h.2.2⟩

theorem chunks_pairwise (bs : ByteStream) :
    (∀ chunk ∈ chunks bs, bs.pos ≤ chunk.pos) ∧
      (chunks bs).Pairwise fun first later => first.pos < later.pos := by
  induction bs using chunks.induct with
  | case1 bs hread ih =>
    rw [chunks_of_readable hread]
    have hlt := lt_after_pos bs
    refine ⟨?_, pairwise_cons.mpr ⟨?_, ih.2⟩⟩
    · rw [forall_mem_cons]
      exact ⟨Nat.le_refl _, fun chunk hmem => Nat.le_trans (Nat.le_of_lt hlt) (ih.1 chunk hmem)⟩
    · exact fun chunk hmem => Nat.lt_of_lt_of_le hlt (ih.1 chunk hmem)
  | case2 bs hread =>
    rw [chunks_of_not_readable (Bool.eq_false_iff.mpr hread)]
    exact ⟨fun chunk hmem => absurd hmem not_mem_nil, List.Pairwise.nil⟩

theorem readable_of_fits (hok : bs.ok = true) (h : Fits bs) : bs.readable 8 = true := by
  unfold Fits at h
  exact ByteStream.readable_iff.mpr ⟨hok, by omega⟩

theorem topLevel_iff {bs chunk : ByteStream} (hok : bs.ok = true) (hfits : Fits chunk) :
    TopLevel bs chunk ↔ chunk ∈ topChunks (chunks bs) := by
  constructor
  · intro htop
    -- along the steps that lead to the chunk, each of which leaves one that fits behind
    induction htop using Relation.ReflTransGen.head_induction_on with
    | refl =>
      rw [chunks_of_readable (readable_of_fits hok hfits), topChunks_of_fits hfits]
      exact mem_cons_self
    | head hstep _ ih =>
      obtain ⟨hfirst, rfl⟩ := hstep
      rename_i first _
      have hafter : after first = behind first := if_pos hfirst
      rw [chunks_of_readable (readable_of_fits hok hfirst), topChunks_of_fits hfirst, hafter]
      exact mem_cons_of_mem _ (ih hok)
  · intro hmem
    induction bs using chunks.induct with
    | case1 bs hread ih =>
      rw [chunks_of_readable hread] at hmem
      by_cases hfirst : Fits bs
      · rw [topChunks_of_fits hfirst] at hmem
        rcases mem_cons.mp hmem with rfl | hmem
        · exact Relation.ReflTransGen.refl
        · have hafter : after bs = behind bs := if_pos hfirst
          exact Relation.ReflTransGen.head ⟨hfirst, hafter⟩ (ih (by rw [after_ok, hok]) hmem)
      · rw [topChunks_of_not_fits hfirst] at hmem
        exact absurd hmem not_mem_nil
    | case2 bs hread =>
      rw [chunks_of_not_readable (Bool.eq_false_iff.mpr hread)] at hmem
      exact absurd hmem not_mem_nil

theorem inContent_of_descriptor {extf : ExtfChunk} (h : descriptor chunk = some extf) :
    InContent (content chunk) extf := by
  unfold descriptor at h
  by_cases hfits : Fits chunk
  · rw [if_pos hfits, Option.map_eq_some_iff] at h
    obtain ⟨⟨_, bs'⟩, hfields, rfl⟩ := h
    exact readFields_in hfields
  · rw [if_neg hfits] at h
    exact absurd h (by simp)

theorem ok_of_ddfbContent {file : List UInt8} (h : ddfbContent file = some c) : c.ok = true := by
  unfold ddfbContent at h
  split at h
  · exact absurd h (by simp)
  · split at h
    · exact absurd h (by simp)
    · rw [← Option.some.inj h]
      rfl

theorem findChunkLoop_not_ok (tag : List UInt8) (origPos : Nat) (bs : ByteStream)
    (h : bs.ok = false) : ∀ fuel, findChunkLoop tag origPos fuel bs =
      (none, { bs with pos := origPos })
  | 0 => rfl
  | fuel + 1 => by
    unfold findChunkLoop
    rw [if_neg (fun hboth => absurd hboth.2 (by simp [h]))]

/-- The walk over a bundle file ends, what it collects lies in its own chunk with all header fields
there, and every complete `EXTF` chunk of the top level is collected exactly once. -/
def Robust (room : Nat) (file : List UInt8) : Prop :=
  ∀ c, ddfbContent file = some c → ∃ fuel states, walkStates fuel ⟨room, c⟩ = some states ∧
    (∀ found ∈ collected states, InContent (content found.1) found.2 ∧
      FieldsPresent (content found.1)) ∧
    ∀ chunk, TopLevel c chunk → Complete chunk →
      ((collected states).map fun found => found.1.pos).count chunk.pos = 1

def Regular (room : Nat) (file : List UInt8) : Prop :=
  ∀ c, ddfbContent file = some c → Passes room false true (chunks c)

theorem positions_nodup (c : ByteStream) : ((chunks c).map ByteStream.pos).Nodup :=
  pairwise_map.mpr ((chunks_pairwise c).2.imp Nat.ne_of_lt)

theorem count_collects {room : Nat} {c chunk : ByteStream}
    (hmem : chunk ∈ (collects room false (chunks c)).map Prod.fst) :
    ((collects room false (chunks c)).map fun found => found.1.pos).count chunk.pos = 1 := by
  have hpositions : ((collects room false (chunks c)).map fun found => found.1.pos) =
      ((collects room false (chunks c)).map Prod.fst).map ByteStream.pos := by
    rw [map_map]
    rfl
  have hnodup : (((collects room false (chunks c)).map Prod.fst).map ByteStream.pos).Nodup :=
    (positions_nodup c).sublist ((collects_sublist room false (chunks c)).map _)
  rw [hpositions]
  exact count_eq_one_of_mem hnodup (mem_map_of_mem hmem)

/-- The walk over a bundle file does what it should exactly when its chunks pass the loop: none ends
in one of its own fields where it is read, and no complete one is lost behind a malformed one or
for want of room. -/
theorem robust_iff (room : Nat) (file : List UInt8) : Robust room file ↔ Regular room file := by
  refine forall_congr' fun c => forall_congr' fun hcontent => ?_
  have hok := ok_of_ddfbContent hcontent
  rw [← collected_iff_passes room false true _ (positions_nodup c).of_map]
  obtain ⟨fuel, states, hrun, hcollected⟩ := walk_ends ⟨room, c⟩
  simp only at hcollected
  constructor
  · rintro ⟨fuel', states', hrun', hslices, honce⟩
    rw [walkStates_unique hrun' hrun, hcollected] at hslices honce
    refine ⟨fun found hmem => (hslices found hmem).2, fun _ chunk htop hcomplete => ?_⟩
    have hcount := honce chunk ((topLevel_iff hok hcomplete.2.1).mpr htop) hcomplete
    have hmem := count_pos_iff.mp (by rw [hcount]; exact Nat.one_pos)
    obtain ⟨found, hfound, hpos⟩ := mem_map.mp hmem
    have hfoundChain : found.1 ∈ chunks c :=
      (collects_sublist room false (chunks c)).subset (mem_map_of_mem hfound)
    have hchunkChain : chunk ∈ chunks c := (takeWhile_sublist _).subset htop
    have hsame : found.1 = chunk :=
      inj_on_of_nodup_map (positions_nodup c) hfoundChain hchunkChain hpos
    rw [← hsame]
    exact mem_map_of_mem hfound
  · rintro ⟨hfields, hfound⟩
    refine ⟨fuel, states, hrun, ?_, ?_⟩
    · rw [hcollected]
      intro found hmem
      exact ⟨inContent_of_descriptor (descriptor_of_mem_collects hmem), hfields found hmem⟩
    · intro chunk htop hcomplete
      rw [hcollected]
      exact count_collects
        (hfound rfl chunk ((topLevel_iff hok hcomplete.2.1).mp htop) hcomplete)

/-- A bundle file with a chunk whose path runs over its end, and a complete chunk behind it -/
def lostFile : List UInt8 :=
  [0x52, 0x49, 0x46, 0x46, 42, 0, 0, 0, 0x44, 0x44, 0x46, 0x42, 34, 0, 0, 0, 0x45, 0x58, 0x54, 0x46,
    6, 0, 0, 0, 0x44, 0x44, 0x46, 0x43, 9, 0,
    0x45, 0x58, 0x54, 0x46, 12, 0, 0, 0, 0x44, 0x44, 0x46, 0x43, 0, 0, 0, 0, 0, 0, 0, 0]

/-- The content of its `DDFB` chunk -/
def lostContent : ByteStream := { data := lostFile, start := 16, size := 34 }

/-- The complete chunk is skipped behind the malformed one. -/
theorem complete_chunk_lost : ¬ Robust 2 lostFile := by
  intro h
  obtain ⟨fuel, states, hrun, -, honce⟩ := h lostContent (by rfl)
  have hwalk : walkStates 3 ⟨2, lostContent⟩ =
      some [⟨2, lostContent⟩, ⟨1, { lostContent with pos := 34 }⟩] := by rfl
  rw [walkStates_unique hrun hwalk] at honce
  have htop : TopLevel lostContent { lostContent with pos := 14 } :=
    Relation.ReflTransGen.single ⟨by decide, by rfl⟩
  have hcount := honce _ htop (by decide)
  exact absurd hcount (by decide)

end Ddf
end DeconzRest

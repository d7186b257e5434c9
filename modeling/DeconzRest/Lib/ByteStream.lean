import Mathlib.Data.List.Basic

/-!
# Streams over a piece of memory

A stream reads `size` bytes of a memory from `start` on.  A read takes its bytes when the stream
is in order and they lie within the stream; otherwise it gives 0 and the stream is not in order
any more.  What a read does to the stream is `skip`, so that the place of a stream after several
reads is known from their lengths alone.
-/

namespace DeconzRest

structure ByteStream where
  data : List UInt8
  start : Nat := 0
  size : Nat
  pos : Nat := 0
  ok : Bool := true
deriving DecidableEq, Repr

namespace ByteStream

def ofBytes (data : List UInt8) : ByteStream := { data, size := data.length }

/-- A stream over `size` bytes from the position of another one on. -/
def sub (bs : ByteStream) (size : Nat) : ByteStream :=
  { data := bs.data, start := bs.start + bs.pos, size }

def byteAt (bs : ByteStream) (i : Nat) : UInt8 := bs.data.getD (bs.start + i) 0

/-- The next `n` bytes can be read. -/
def readable (bs : ByteStream) (n : Nat) : Bool := bs.ok && decide (bs.pos + n ≤ bs.size)

/-- What reading `n` bytes does to the stream. -/
def skip (bs : ByteStream) (n : Nat) : ByteStream :=
  if bs.readable n then { bs with pos := bs.pos + n } else { bs with ok := false }

def u16At (bs : ByteStream) (i : Nat) : Nat :=
  (bs.byteAt i).toNat + 256 * (bs.byteAt (i + 1)).toNat

def u32At (bs : ByteStream) (i : Nat) : Nat :=
  (bs.byteAt i).toNat + 256 * (bs.byteAt (i + 1)).toNat + 65536 * (bs.byteAt (i + 2)).toNat +
    16777216 * (bs.byteAt (i + 3)).toNat

def getU8 (bs : ByteStream) : UInt8 × ByteStream :=
  (if bs.readable 1 then bs.byteAt bs.pos else 0, bs.skip 1)

def getU16 (bs : ByteStream) : Nat × ByteStream :=
  (if bs.readable 2 then bs.u16At bs.pos else 0, bs.skip 2)

def getU32 (bs : ByteStream) : Nat × ByteStream :=
  (if bs.readable 4 then bs.u32At bs.pos else 0, bs.skip 4)

/-- `n` bytes, one after the other -/
def getBytes (bs : ByteStream) : Nat → List UInt8 × ByteStream
  | 0 => ([], bs)
  | n + 1 => ((bs.getU8).1 :: ((bs.getU8).2.getBytes n).1, ((bs.getU8).2.getBytes n).2)

/-- A stream that is in order is within its bounds. -/
structure InBounds (bs : ByteStream) : Prop where
  pos_le : bs.pos ≤ bs.size
  size_le : bs.start + bs.size ≤ bs.data.length

variable {bs : ByteStream} {m n : Nat}

theorem readable_iff : bs.readable n = true ↔ bs.ok = true ∧ bs.pos + n ≤ bs.size := by
  unfold readable
  rw [Bool.and_eq_true, decide_eq_true_iff]

@[simp] theorem skip_data : (bs.skip n).data = bs.data := by
  unfold skip
  split <;> rfl

@[simp] theorem skip_start : (bs.skip n).start = bs.start := by
  unfold skip
  split <;> rfl

@[simp] theorem skip_size : (bs.skip n).size = bs.size := by
  unfold skip
  split <;> rfl

@[simp] theorem skip_ok : (bs.skip n).ok = bs.readable n := by
  unfold skip
  split
  · rename_i h
    rw [h]
    exact (readable_iff.mp h).1
  · rename_i h
    exact (Bool.eq_false_iff.mpr h).symm

theorem skip_pos_of_readable (h : bs.readable n = true) : (bs.skip n).pos = bs.pos + n := by
  unfold skip
  rw [if_pos h]

theorem le_skip_pos : bs.pos ≤ (bs.skip n).pos := by
  unfold skip
  split
  · exact Nat.le_add_right _ _
  · exact Nat.le_refl _

theorem skip_pos_le (h : bs.pos ≤ bs.size) : (bs.skip n).pos ≤ bs.size := by
  unfold skip
  split
  · rename_i hread
    exact (readable_iff.mp hread).2
  · exact h

theorem readable_skip : (bs.skip m).readable n = bs.readable (m + n) := by
  rw [Bool.eq_iff_iff, readable_iff, readable_iff, skip_ok, skip_size]
  constructor
  · rintro ⟨hread, hbound⟩
    rw [skip_pos_of_readable hread] at hbound
    exact ⟨(readable_iff.mp hread).1, by omega⟩
  · rintro ⟨hok, hbound⟩
    have hread : bs.readable m = true := readable_iff.mpr ⟨hok, by omega⟩
    rw [skip_pos_of_readable hread]
    exact ⟨hread, by omega⟩

theorem InBounds.skip (h : InBounds bs) : InBounds (bs.skip n) where
  pos_le := by
    rw [skip_size]
    exact skip_pos_le h.pos_le
  size_le := by
    rw [skip_start, skip_size, skip_data]
    exact h.size_le

/-- What every read keeps. -/
structure Reads (bs bs' : ByteStream) : Prop where
  size : bs'.size = bs.size
  pos_le : bs.pos ≤ bs'.pos
  ok : bs'.ok = true → bs.ok = true

theorem Reads.refl (bs : ByteStream) : Reads bs bs := ⟨rfl, Nat.le_refl _, id⟩

theorem Reads.trans {bs bs' bs'' : ByteStream} (h : Reads bs bs') (h' : Reads bs' bs'') :
    Reads bs bs'' :=
  ⟨h'.size.trans h.size, Nat.le_trans h.pos_le h'.pos_le, fun hok => h.ok (h'.ok hok)⟩

theorem reads_skip (bs : ByteStream) (n : Nat) : Reads bs (bs.skip n) := by
  refine ⟨skip_size, le_skip_pos, ?_⟩
  intro hok
  rw [skip_ok] at hok
  exact (readable_iff.mp hok).1

theorem reads_getBytes : ∀ (n : Nat) (bs : ByteStream), Reads bs (bs.getBytes n).2
  | 0, bs => Reads.refl bs
  | n + 1, bs => (reads_skip bs 1).trans (reads_getBytes n (bs.skip 1))

theorem skip_of_readable (h : bs.readable n = true) :
    bs.skip n = { bs with pos := bs.pos + n } := by
  unfold skip
  rw [if_pos h]

theorem skip_not_ok (h : bs.ok = false) : bs.skip n = bs := by
  have hread : bs.readable n = false := by
    unfold readable
    rw [h, Bool.false_and]
  unfold skip
  rw [hread, if_neg Bool.false_ne_true]
  cases bs
  simp only at h
  rw [h]

theorem getBytes_of_readable : ∀ (n : Nat) (bs : ByteStream), bs.readable n = true →
    (bs.getBytes n).2 = { bs with pos := bs.pos + n }
  | 0, bs, _ => rfl
  | n + 1, bs, h => by
    have hbound := readable_iff.mp h
    have hfirst : bs.readable 1 = true := readable_iff.mpr ⟨hbound.1, by omega⟩
    have hrest : (bs.skip 1).readable n = true := by
      rw [readable_skip, Nat.add_comm]
      exact h
    show ((bs.skip 1).getBytes n).2 = _
    rw [getBytes_of_readable n _ hrest, skip_of_readable hfirst]
    simp only [Nat.add_assoc, Nat.add_comm 1 n]

theorem getBytes_ok : ∀ {n : Nat} {bs : ByteStream}, 0 < n → (bs.getBytes n).2.ok = bs.readable n
  | 1, bs, _ => skip_ok
  | n + 2, bs, _ => by
    show ((bs.skip 1).getBytes (n + 1)).2.ok = _
    rw [getBytes_ok (Nat.succ_pos n), readable_skip, Nat.add_comm]

theorem getBytes_readable : ∀ {n m : Nat} {bs : ByteStream}, (bs.getBytes n).2.readable m =
    bs.readable (n + m)
  | 0, m, bs => by rw [Nat.zero_add]; rfl
  | n + 1, m, bs => by
    show ((bs.skip 1).getBytes n).2.readable m = _
    rw [getBytes_readable, readable_skip]
    congr 1
    omega

theorem getBytes_place : ∀ (n : Nat) (bs : ByteStream), (bs.getBytes n).2.start = bs.start ∧
    (bs.getBytes n).2.size = bs.size
  | 0, _ => ⟨rfl, rfl⟩
  | n + 1, bs => by
    obtain ⟨hstart, hsize⟩ := getBytes_place n (bs.skip 1)
    exact ⟨hstart.trans skip_start, hsize.trans skip_size⟩

theorem getBytes_pos_le : ∀ (n : Nat) {bs : ByteStream}, bs.pos ≤ bs.size → (bs.getBytes n).2.pos ≤
    (bs.getBytes n).2.size
  | 0, _, h => h
  | n + 1, bs, h => getBytes_pos_le n (by
      show (bs.skip 1).pos ≤ (bs.skip 1).size
      rw [skip_size]
      exact skip_pos_le h)

theorem getU16_eq (h : bs.ok = true) : bs.getU16 = if bs.pos + 2 ≤
    bs.size then (bs.u16At bs.pos, { bs with pos := bs.pos + 2 })
    else (0, { bs with ok := false }) := by
  unfold getU16 skip readable
  rw [h, Bool.true_and]
  by_cases hread : bs.pos + 2 ≤ bs.size
  · simp only [hread, decide_true, if_true]
  · simp only [hread, decide_false, if_false, Bool.false_eq_true]

theorem getU32_eq (h : bs.ok = true) : bs.getU32 = if bs.pos + 4 ≤
    bs.size then (bs.u32At bs.pos, { bs with pos := bs.pos + 4 })
    else (0, { bs with ok := false }) := by
  unfold getU32 skip readable
  rw [h, Bool.true_and]
  by_cases hread : bs.pos + 4 ≤ bs.size
  · simp only [hread, decide_true, if_true]
  · simp only [hread, decide_false, if_false, Bool.false_eq_true]

theorem readable_not_ok (h : bs.ok = false) : bs.readable n = false := by
  unfold readable
  rw [h, Bool.false_and]

theorem getU16_not_ok (h : bs.ok = false) : bs.getU16 = (0, bs) := by
  unfold getU16
  rw [readable_not_ok h, skip_not_ok h]
  rfl

theorem getU32_not_ok (h : bs.ok = false) : bs.getU32 = (0, bs) := by
  unfold getU32
  rw [readable_not_ok h, skip_not_ok h]
  rfl

theorem skip_pos_lt (hn : 0 < n) (h : (bs.skip n).ok = true) : bs.pos < (bs.skip n).pos := by
  rw [skip_ok] at h
  rw [skip_pos_of_readable h]
  exact Nat.lt_add_of_pos_right hn

end ByteStream
end DeconzRest

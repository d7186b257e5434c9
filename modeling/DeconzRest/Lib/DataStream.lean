import DeconzRest.Lib.LittleEndian

/-!
# Data streams

`QDataStream` over the bytes of an array, in little endian byte order, and with `readBig` in big
endian byte order.  A number that is not whole any more is read as 0, takes the bytes that are left,
and the stream remembers it.
-/

namespace DeconzRest

open List

structure DataStream where
  bytes : List UInt8
  /-- `status() == QDataStream::ReadPastEnd` -/
  readPastEnd : Bool := false
deriving DecidableEq, Repr

namespace DataStream

/-- A number of `size` bytes -/
def read (size : Nat) (s : DataStream) : Nat × DataStream :=
  match readLE size s.bytes with
  | some (n, rest) => (n, { s with bytes := rest })
  | none => (0, { bytes := [], readPastEnd := true })

def read8 (s : DataStream) : UInt8 × DataStream := (.ofNat (s.read 1).1, (s.read 1).2)

def read16 (s : DataStream) : UInt16 × DataStream := (.ofNat (s.read 2).1, (s.read 2).2)

def discard : Nat → DataStream → DataStream
  | 0, s => s
  | n + 1, s => discard n s.read8.2

variable {rest : List UInt8} {pastEnd : Bool}

theorem read_writeLE {size n : Nat} (h : n < 256 ^ size) :
    read size ⟨writeLE size n ++ rest, pastEnd⟩ = (n, ⟨rest, pastEnd⟩) := by
  unfold read
  rw [readLE_writeLE_of_lt h]

@[simp] theorem read8_cons (b : UInt8) : read8 ⟨b :: rest, pastEnd⟩ = (b, ⟨rest, pastEnd⟩) := by
  have hbyte : readLE 1 (b :: rest) = some (b.toNat, rest) := by
    rw [readLE, readLE]
    simp only
    rw [Nat.mul_zero, Nat.add_zero]
  unfold read8 read
  simp only [hbyte, UInt8.ofNat_toNat]

@[simp] theorem read8_nil : read8 ⟨[], pastEnd⟩ = (0, ⟨[], true⟩) := rfl

theorem read16_writeLE (n : UInt16) :
    read16 ⟨writeLE 2 n.toNat ++ rest, pastEnd⟩ = (n, ⟨rest, pastEnd⟩) := by
  unfold read16
  rw [read_writeLE n.toNat_lt, UInt16.ofNat_toNat]

variable (size : Nat)

theorem length_read (s : DataStream) : (s.read size).2.bytes.length ≤ s.bytes.length - size := by
  unfold read
  cases h : readLE size s.bytes with
  | none => exact Nat.zero_le _
  | some r => exact Nat.le_sub_of_add_le (Nat.le_of_eq (length_of_readLE h))

variable {s : DataStream}

theorem readPastEnd_read {size : Nat} (h : s.readPastEnd = true) :
    (s.read size).2.readPastEnd = true := by
  unfold read
  split
  · exact h
  · rfl

theorem read_past_or_length (s : DataStream) :
    (s.read size).2.readPastEnd = true ∨ (s.read size).2.bytes.length + size = s.bytes.length := by
  unfold read
  cases h : readLE size s.bytes with
  | none => exact .inl rfl
  | some r => exact .inr (length_of_readLE h)

/-- What was read lies in front of what is left, if anything is left. -/
theorem bytes_of_read {size : Nat} (h : (s.read size).2.bytes ≠ []) :
    s.bytes = writeLE size (s.read size).1 ++ (s.read size).2.bytes ∧ (s.read size).1 <
      256 ^ size := by
  unfold read at h ⊢
  cases hread : readLE size s.bytes with
  | none =>
    rw [hread] at h
    exact absurd rfl h
  | some r => exact writeLE_of_readLE hread

theorem bytes_of_read8 (h : s.read8.2.bytes ≠ []) : s.bytes = s.read8.1 :: s.read8.2.bytes := by
  obtain ⟨hbytes, hlt⟩ := bytes_of_read (show (s.read 1).2.bytes ≠ [] from h)
  have hoctet : writeLE 1 (s.read 1).1 = [UInt8.ofNat (s.read 1).1] := by
    rw [writeLE, writeLE, Nat.mod_eq_of_lt (show (s.read 1).1 < 256 from hlt)]
  rw [hoctet] at hbytes
  exact hbytes

theorem bytes_of_read16 (h : s.read16.2.bytes ≠ []) :
    s.bytes = writeLE 2 s.read16.1.toNat ++ s.read16.2.bytes := by
  obtain ⟨hbytes, hlt⟩ := bytes_of_read (show (s.read 2).2.bytes ≠ [] from h)
  have hnumber : s.read16.1.toNat = (s.read 2).1 := by
    unfold read16
    rw [UInt16.toNat_ofNat']
    exact Nat.mod_eq_of_lt hlt
  rw [hnumber]
  exact hbytes

theorem read_of_nil {size : Nat} (h : s.bytes = []) : (s.read size).2.bytes = [] := by
  have hlength := length_read size s
  rw [h, length_nil, Nat.zero_sub] at hlength
  exact eq_nil_of_length_eq_zero (Nat.le_zero.mp hlength)

theorem length_read8 (s : DataStream) : s.read8.2.bytes.length ≤ s.bytes.length - 1 :=
  length_read 1 s

theorem length_read16 (s : DataStream) : s.read16.2.bytes.length ≤ s.bytes.length - 2 :=
  length_read 2 s

theorem length_discard (n : Nat) (s : DataStream) :
    (discard n s).bytes.length ≤ s.bytes.length := by
  induction n generalizing s with
  | zero => exact le_rfl
  | succ n ih =>
    have hfirst := length_read8 s
    have hrest := ih s.read8.2
    rw [discard]
    omega

theorem discard_append (data : List UInt8) :
    discard data.length ⟨data ++ rest, pastEnd⟩ = ⟨rest, pastEnd⟩ := by
  induction data with
  | nil => rfl
  | cons b data ih => rw [cons_append, length_cons, discard, read8_cons, ih]

theorem bytes_of_discard {n : Nat} (h : (discard n s).bytes ≠ []) :
    ∃ data, data.length = n ∧ s.bytes = data ++ (discard n s).bytes := by
  induction n generalizing s with
  | zero => exact ⟨[], rfl, rfl⟩
  | succ n ih =>
    obtain ⟨data, hlength, hbytes⟩ := ih h
    have hrest : s.read8.2.bytes ≠ [] := by
      rw [hbytes]
      exact fun hnil => h (append_eq_nil_iff.mp hnil).2
    refine ⟨s.read8.1 :: data, congrArg Nat.succ hlength, ?_⟩
    rw [bytes_of_read8 hrest, hbytes]
    rfl

/-- The number of the bytes, highest byte first -/
def bigNumber (bytes : List UInt8) : Nat := bytes.foldl (fun n b => n * 256 + b.toNat) 0

/-- A number of `size` bytes, highest byte first -/
def readBig (size : Nat) (s : DataStream) : Nat × DataStream :=
  if s.bytes.length < size then (0, { bytes := [], readPastEnd := true })
  else (bigNumber (s.bytes.take size), { s with bytes := s.bytes.drop size })

theorem readBig_append (front : List UInt8) :
    readBig front.length ⟨front ++ rest, pastEnd⟩ = (bigNumber front, ⟨rest, pastEnd⟩) := by
  unfold readBig
  rw [if_neg (by rw [List.length_append]; omega), take_left, drop_left]

@[simp] theorem readBig_byte (b : UInt8) :
    readBig 1 ⟨b :: rest, pastEnd⟩ = (b.toNat, ⟨rest, pastEnd⟩) := by
  have h := @readBig_append rest pastEnd [b]
  rw [length_singleton, singleton_append] at h
  rw [h, bigNumber, foldl_cons, foldl_nil, Nat.zero_mul, Nat.zero_add]

@[simp] theorem readBig_two (a b : UInt8) :
    readBig 2 ⟨a :: b :: rest, pastEnd⟩ = (a.toNat * 256 + b.toNat, ⟨rest, pastEnd⟩) := by
  have h := @readBig_append rest pastEnd [a, b]
  rw [length_cons, length_singleton, cons_append, singleton_append] at h
  rw [h, bigNumber, foldl_cons, foldl_cons, foldl_nil, Nat.zero_mul, Nat.zero_add]

theorem length_readBig (s : DataStream) :
    (s.readBig size).2.bytes.length ≤ s.bytes.length - size := by
  unfold readBig
  split
  · exact Nat.zero_le _
  · exact Nat.le_of_eq length_drop

end DataStream
end DeconzRest

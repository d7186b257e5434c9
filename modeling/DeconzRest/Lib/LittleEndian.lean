import Mathlib.Algebra.Ring.Nat

/-!
# Numbers in little endian byte order

A number is written in a fixed number of bytes, and what is read back is the number
modulo the width (`readLE_writeLE`).
-/

namespace DeconzRest

/-- The number in `size` bytes, lowest byte first. -/
def writeLE : Nat → Nat → List UInt8
  | 0, _ => []
  | size + 1, n => UInt8.ofNat (n % 256) :: writeLE size (n / 256)

/-- The number in the first `size` bytes, and the other bytes; none if there are too few. -/
def readLE : Nat → List UInt8 → Option (Nat × List UInt8)
  | 0, bytes => some (0, bytes)
  | _ + 1, [] => none
  | size + 1, b :: bytes =>
    match readLE size bytes with
    | none => none
    | some (n, rest) => some (b.toNat + 256 * n, rest)

theorem length_writeLE (size n : Nat) : (writeLE size n).length = size := by
  induction size generalizing n with
  | zero => rfl
  | succ size ih => rw [writeLE, List.length_cons, ih]

theorem readLE_writeLE (size n : Nat) (rest : List UInt8) :
    readLE size (writeLE size n ++ rest) = some (n % 256 ^ size, rest) := by
  induction size generalizing n with
  | zero => rw [writeLE, List.nil_append, readLE, Nat.pow_zero, Nat.mod_one]
  | succ size ih =>
    have hbyte : (UInt8.ofNat (n % 256)).toNat = n % 256 := by
      rw [UInt8.toNat_ofNat']
      omega
    have hsplit : n % 256 + 256 * (n / 256 % 256 ^ size) = n % 256 ^ (size + 1) := by
      rw [Nat.pow_succ', Nat.mod_mul]
    rw [writeLE, List.cons_append, readLE, ih]
    simp only
    rw [hbyte, hsplit]

theorem readLE_writeLE_of_lt {size n : Nat} (h : n < 256 ^ size) (rest : List UInt8) :
    readLE size (writeLE size n ++ rest) = some (n, rest) := by
  rw [readLE_writeLE, Nat.mod_eq_of_lt h]

theorem writeLE_of_readLE {size n : Nat} {bytes rest : List UInt8}
    (h : readLE size bytes = some (n, rest)) :
    bytes = writeLE size n ++ rest ∧ n < 256 ^ size := by
  induction size generalizing n bytes rest with
  | zero =>
    rw [readLE] at h
    obtain ⟨rfl, rfl⟩ := Prod.mk.inj (Option.some.inj h)
    exact ⟨rfl, by decide⟩
  | succ size ih =>
    cases bytes with
    | nil => cases h
    | cons b bytes =>
      rw [readLE] at h
      cases hread : readLE size bytes with
      | none =>
        rw [hread] at h
        cases h
      | some r =>
        rw [hread] at h
        obtain ⟨rfl, rfl⟩ := Prod.mk.inj (Option.some.inj h)
        obtain ⟨hbytes, hlt⟩ := ih hread
        have hb := b.toNat_lt
        have hmod : (b.toNat + 256 * r.1) % 256 = b.toNat := by omega
        have hdiv : (b.toNat + 256 * r.1) / 256 = r.1 := by omega
        refine ⟨?_, ?_⟩
        · rw [writeLE, hmod, hdiv, UInt8.ofNat_toNat, List.cons_append, ← hbytes]
        · rw [Nat.pow_succ']
          omega

theorem length_of_readLE {size n : Nat} {bytes rest : List UInt8}
    (h : readLE size bytes = some (n, rest)) : rest.length + size = bytes.length := by
  rw [(writeLE_of_readLE h).1, List.length_append, length_writeLE, Nat.add_comm]

/-- A number as it is read from a stream that gives 0 where it ends within the number. -/
def readNumber (size : Nat) (stream : List UInt8) : Nat × List UInt8 :=
  (readLE size stream).getD (0, [])

def readOctets : Nat → List UInt8 → List UInt8 × List UInt8
  | 0, stream => ([], stream)
  | n + 1, stream =>
    let (octet, stream) := readNumber 1 stream
    let (octets, stream) := readOctets n stream
    (.ofNat octet :: octets, stream)

end DeconzRest

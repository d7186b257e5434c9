import Mathlib.Data.Vector.Zip

/-!
# Matyas–Meyer–Oseas hashes

A hash over blocks of `n` octets: the block cipher with the hash so far as its key encrypts the next
block, and the block is added to what comes out.  A text is padded with a 1 bit, zeros and its
length in bits, which takes two octets; this may take one more block.
-/

namespace DeconzRest
namespace Mmo

open List

/-- A block of `n` octets -/
abbrev Block (n : Nat) := List.Vector UInt8 n

variable {n : Nat}

def xor (a b : Block n) : Block n := List.Vector.zipWith (· ^^^ ·) a b

def zero (n : Nat) : Block n := List.Vector.replicate n 0

def step (cipher : Block n → Block n → Block n) (hash block : Block n) : Block n :=
  xor (cipher hash block) block

/-- The first block of a text, if the text has one -/
def block? (n : Nat) (text : List UInt8) : Option (Block n) :=
  if h : n ≤ text.length then some ⟨text.take n, length_take_of_le h⟩ else none

def blocks (n : Nat) : Nat → List UInt8 → List (Block n)
  | 0, _ => []
  | count + 1, text =>
    match block? n text with
    | none => []
    | some block => block :: blocks n count (text.drop n)

def hashFrom (cipher : Block n → Block n → Block n) (hash : Block n) (text : List UInt8) :
    Block n := (blocks n (text.length / n) text).foldl (step cipher) hash

def fill (n length : Nat) : Nat := (n - (length + 3) % n) % n

def lengthOctets (length : Nat) : List UInt8 :=
  [UInt8.ofNat (8 * length / 256), UInt8.ofNat (8 * length)]

def pad (n : Nat) (text : List UInt8) : List UInt8 :=
  text ++ 0x80 :: (List.replicate (fill n text.length) 0 ++ lengthOctets text.length)

def hash (cipher : Block n → Block n → Block n) (text : List UInt8) : Block n :=
  hashFrom cipher (zero n) (pad n text)

theorem block?_append (block : Block n) (rest : List UInt8) :
    block? n (block.toList ++ rest) = some block := by
  have hlength := block.toList_length
  unfold block?
  rw [dif_pos (by rw [List.length_append]; omega)]
  refine congrArg some (Subtype.ext ?_)
  show (block.toList ++ rest).take n = block.toList
  rw [take_append_of_le_length (by omega), take_of_length_le (by omega)]

theorem drop_append (block : Block n) (rest : List UInt8) :
    (block.toList ++ rest).drop n = rest := by
  have hlength := block.toList_length
  rw [drop_append_of_le_length (by omega), drop_of_length_le (by omega), nil_append]

theorem length_append (block : Block n) (rest : List UInt8) :
    (block.toList ++ rest).length = n + rest.length := by
  rw [List.length_append, block.toList_length]

theorem exists_block {text : List UInt8} (hlength : n ≤ text.length) :
    ∃ (block : Block n) (rest : List UInt8), text = block.toList ++ rest :=
  ⟨⟨text.take n, length_take_of_le hlength⟩, text.drop n, (take_append_drop n text).symm⟩

section

variable (cipher : Block n → Block n → Block n) (hash : Block n)

theorem hashFrom_of_lt {text : List UInt8} (hlength : text.length < n) :
    hashFrom cipher hash text = hash := by
  unfold hashFrom
  rw [Nat.div_eq_of_lt hlength]
  rfl

theorem hashFrom_block (hn : 0 < n) (block : Block n) (rest : List UInt8) :
    hashFrom cipher hash (block.toList ++ rest) =
      hashFrom cipher (step cipher hash block) rest := by
  have hcount : (block.toList ++ rest).length / n = rest.length / n + 1 := by
    rw [length_append, Nat.add_comm, Nat.add_div_right _ hn]
  unfold hashFrom
  rw [hcount, blocks, block?_append, drop_append]
  rfl

theorem hashFrom_append (hn : 0 < n) {front : List UInt8} (hfront : n ∣ front.length)
    (rest : List UInt8) :
    hashFrom cipher hash (front ++ rest) = hashFrom cipher (hashFrom cipher hash front) rest := by
  obtain ⟨count, hcount⟩ := hfront
  induction count generalizing hash front with
  | zero =>
    have hnil : front = [] := length_eq_zero_iff.mp hcount
    rw [hnil, nil_append, hashFrom_of_lt cipher hash (show [].length < n from hn)]
  | succ count ih =>
    rw [Nat.mul_succ] at hcount
    obtain ⟨block, front, rfl⟩ := exists_block (show n ≤ front.length by omega)
    rw [length_append] at hcount
    rw [append_assoc, hashFrom_block cipher hash hn, hashFrom_block cipher hash hn]
    exact ih _ (by omega)

theorem hashFrom_take (hn : 0 < n) (text : List UInt8) :
    hashFrom cipher hash (text.take (n * (text.length / n))) = hashFrom cipher hash text := by
  have hsplit := Nat.div_add_mod text.length n
  have hrest := Nat.mod_lt text.length hn
  have hwhole : n ∣ (text.take (n * (text.length / n))).length := by
    rw [length_take_of_le (by omega)]
    exact Nat.dvd_mul_right ..
  have hdrop : (text.drop (n * (text.length / n))).length < n := by
    rw [length_drop]
    omega
  conv_rhs => rw [← take_append_drop (n * (text.length / n)) text]
  rw [hashFrom_append cipher hash hn hwhole, hashFrom_of_lt cipher _ hdrop]

end

end Mmo
end DeconzRest

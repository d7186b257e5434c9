import Mathlib.Data.List.Basic

/-!
# Names of manufacturers

Manufacturer names and model identifiers are kept as atoms, numbers that stand for strings of
bytes; 0 is no atom.  Manufacturer names are compared by a hash that is meant to be the same for all
spellings of a name.
-/

namespace DeconzRest
namespace Ddf

/-- One turn of the loop of `DDF_StringHash` -/
def hashByte (h : UInt32) (s : UInt8) : UInt32 :=
  let h := 16 * h + s.toUInt32
  h ^^^ (h >>> 24 &&& 0xF0)

/-- `DDF_StringHash` -/
def stringHash (s : List UInt8) : UInt32 := s.foldl hashByte 0 &&& 0xfffffff

def lowerByte (ch : UInt8) : UInt8 := if 65 ≤ ch ∧ ch ≤ 90 then ch + 32 else ch

def lowerBufferSize : Nat := 192

/-- The strings that `DDF_AtomLowerCaseStringHash` turns to lower case: it leaves those alone that
have a byte which is not ASCII or do not fit in its buffer. -/
def IsFolded (s : List UInt8) : Prop := s.length < lowerBufferSize ∧ ∀ ch ∈ s, ch < 128

instance (s : List UInt8) : Decidable (IsFolded s) :=
  @instDecidableAnd _ _ (Nat.decLt _ _) (List.decidableBAll (fun ch => ch < 128) s)

/-- The string that stands for all spellings of a name -/
def nameKey (s : List UInt8) : List UInt8 := if IsFolded s then s.map lowerByte else s

/-- The loop of `DDF_AtomLowerCaseStringHash`; `none` when it meets a byte that is not ASCII. -/
def lowerCase : List UInt8 → Option (List UInt8)
  | [] => some []
  | ch :: s =>
    if ch &&& 0x80 ≠ 0 then none
    else (lowerCase s).map (lowerByte ch :: ·)

/-- `DDF_AtomLowerCaseStringHash`; `atomString` is empty for what is no atom. -/
def atomLowerCaseStringHash (atomString : Nat → List UInt8) (ati : Nat) : UInt32 :=
  let atom := atomString ati
  if atom.length = 0 then 0
  else if lowerBufferSize ≤ atom.length then stringHash atom
  else
    match lowerCase atom with
    | none => stringHash atom
    | some str => stringHash str

theorem and_high_bit (ch : UInt8) : ch &&& 0x80 = 0 ↔ ch < 128 := by
  have hall : ∀ n : Fin 256, UInt8.ofFin n &&& 0x80 = 0 ↔ UInt8.ofFin n < 128 := by
    decide +kernel
  exact hall ch.toFin

theorem lowerCase_of_ascii {s : List UInt8} (h : ∀ ch ∈ s, ch < 128) :
    lowerCase s = some (s.map lowerByte) := by
  induction s with
  | nil => rfl
  | cons ch s ih =>
    obtain ⟨hascii, hrest⟩ := List.forall_mem_cons.mp h
    unfold lowerCase
    rw [if_neg (not_not.mpr ((and_high_bit ch).mpr hascii)), ih hrest]
    rfl

theorem lowerCase_of_not_ascii {s : List UInt8} (h : ¬ ∀ ch ∈ s, ch < 128) :
    lowerCase s = none := by
  induction s with
  | nil => exact absurd (fun ch hmem => absurd hmem List.not_mem_nil) h
  | cons ch s ih =>
    unfold lowerCase
    by_cases hascii : ch < 128
    · rw [if_neg (not_not.mpr ((and_high_bit ch).mpr hascii)),
        ih fun hrest => h (List.forall_mem_cons.mpr ⟨hascii, hrest⟩)]
      rfl
    · rw [if_pos fun hzero => hascii ((and_high_bit ch).mp hzero)]

theorem nameKey_of_folded {s : List UInt8} (h : IsFolded s) : nameKey s = s.map lowerByte :=
  if_pos h

theorem nameKey_of_not_folded {s : List UInt8} (h : ¬ IsFolded s) : nameKey s = s := if_neg h

theorem atomLowerCaseStringHash_eq (atomString : Nat → List UInt8) (ati : Nat) :
    atomLowerCaseStringHash atomString ati = stringHash (nameKey (atomString ati)) := by
  unfold atomLowerCaseStringHash
  generalize atomString ati = s
  simp only
  by_cases hempty : s.length = 0
  · rw [if_pos hempty, List.eq_nil_of_length_eq_zero hempty]
    rfl
  · rw [if_neg hempty]
    by_cases hlong : lowerBufferSize ≤ s.length
    · rw [if_pos hlong, nameKey_of_not_folded fun h => Nat.not_lt.mpr hlong h.1]
    · rw [if_neg hlong]
      by_cases hascii : ∀ ch ∈ s, ch < 128
      · rw [lowerCase_of_ascii hascii, nameKey_of_folded ⟨Nat.not_le.mp hlong, hascii⟩]
      · rw [lowerCase_of_not_ascii hascii, nameKey_of_not_folded fun h => hascii h.2]

/-- No two names that are spelled differently even without regard to case have the same hash. -/
def NoCollision (atomString : Nat → List UInt8) : Prop :=
  ∀ a b, stringHash (nameKey (atomString a)) = stringHash (nameKey (atomString b)) →
    nameKey (atomString a) = nameKey (atomString b)

/-- `DDF_LoadState` -/
inductive LoadState where
  | scheduled
  | loaded
deriving DecidableEq, Repr

/-- `DDF_LoadRecord`: a pair of a manufacturer name and a model identifier that was queried -/
structure LoadRecord where
  modelid : Nat
  mfname : Nat
  mfnameLowerCaseHash : UInt32
  loadState : LoadState := .scheduled
deriving DecidableEq, Repr

end Ddf
end DeconzRest

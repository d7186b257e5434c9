import DeconzRest.Cj.Access
import DeconzRest.Cj.Utf8

/-!
# The UTF-8 codec

`cj_utf8_to_codepoint` reads a character and `cj_unicode_to_utf8` writes one.  The reader accepts
exactly the encodings of the Unicode scalar values (`utf8ToCodepoint_iff`), the writer makes exactly
these, so the two are inverse to each other, and the check of a whole buffer accepts what the writer
makes of a text.
-/

namespace DeconzRest
namespace Cj

open Rfc8259 (ValidUtf8)

theorem continuation_bits (n : Nat) : 0x80 ||| (n &&& 0x3F) = n % 0x40 + 0x80 := by
  have hmask : n &&& 0x3F = n % 2 ^ 6 := Nat.and_two_pow_sub_one_eq_mod n 6
  have hor := Nat.two_pow_add_eq_or_of_lt (Nat.mod_lt n (by decide : 0 < 2 ^ 6)) 2
  rw [hmask]
  exact hor.symm.trans (Nat.add_comm _ _)

theorem first_bits (n : Nat) :
    0xC0 ||| (n &&& 0x1F) = n % 0x20 + 0xC0 ∧ 0xE0 ||| (n &&& 0x0F) = n % 0x10 + 0xE0 ∧
      0xF0 ||| (n &&& 0x07) = n % 0x08 + 0xF0 := by
  have hmask : ∀ i, n &&& (2 ^ i - 1) = n % 2 ^ i := Nat.and_two_pow_sub_one_eq_mod n
  have hor : ∀ i a, 2 ^ i * a ||| n % 2 ^ i = n % 2 ^ i + 2 ^ i * a := fun i a =>
    (Nat.two_pow_add_eq_or_of_lt (Nat.mod_lt n (Nat.two_pow_pos i)) a).symm.trans (Nat.add_comm _ _)
  refine ⟨?_, ?_, ?_⟩
  · exact (congrArg (0xC0 ||| ·) (hmask 5)).trans (hor 5 6)
  · exact (congrArg (0xE0 ||| ·) (hmask 4)).trans (hor 4 14)
  · exact (congrArg (0xF0 ||| ·) (hmask 3)).trans (hor 3 30)

/-- **The writer** makes the encoding of the character, where there is room for it and a NUL. -/
theorem unicodeToUtf8_char (c : Char) (size : Nat) :
    unicodeToUtf8 c.toNat size = if (String.utf8EncodeChar c).length <
      size then some (String.utf8EncodeChar c) else none := by
  have hvalid : c.toNat < 0xD800 ∨ 0xDFFF < c.toNat ∧ c.toNat < 0x110000 := by
    have hc := c.valid
    simpa [UInt32.isValidChar, Nat.isValidChar] using hc
  have hmax : ¬ 0x10FFFF < c.toNat := by omega
  unfold unicodeToUtf8
  rw [if_neg hmax]
  simp only [continuation_bits, first_bits, Nat.shiftRight_eq_div_pow]
  by_cases h1 : c.toNat ≤ 0x7F
  · rw [encode_eq, if_pos h1, List.length_singleton]
    by_cases hsize : 1 < size
    · rw [if_pos ⟨h1, hsize⟩, if_pos hsize]
    · rw [if_neg (fun h => hsize h.2), if_neg (by omega), if_neg (by omega), if_neg (by omega),
        if_neg hsize]
  · rw [if_neg (fun h => h1 h.1), encode_eq, if_neg h1]
    by_cases h2 : c.toNat ≤ 0x7FF
    · rw [if_pos h2]
      by_cases hsize : 2 < size
      · rw [if_pos ⟨by omega, h2, hsize⟩]
        exact (if_pos hsize).symm
      · rw [if_neg (fun h => hsize h.2.2), if_neg (by omega), if_neg (by omega)]
        exact (if_neg hsize).symm
    · rw [if_neg (fun h => h2 h.2.1), if_neg h2]
      by_cases h3 : c.toNat ≤ 0xFFFF
      · rw [if_pos h3]
        by_cases hsize : 3 < size
        · rw [if_pos ⟨by omega, h3, hsize⟩]
          exact (if_pos hsize).symm
        · rw [if_neg (fun h => hsize h.2.2), if_neg (by omega)]
          exact (if_neg hsize).symm
      · rw [if_neg (fun h => h3 h.2.1), if_neg h3]
        by_cases hsize : 4 < size
        · rw [if_pos ⟨by omega, by omega, hsize⟩]
          exact (if_pos hsize).symm
        · rw [if_neg (fun h => hsize h.2.2)]
          exact (if_neg hsize).symm

theorem View.atEnd (front bytes : List UInt8) :
    View (front ++ bytes) (front.length + bytes.length) front.length bytes :=
  ⟨rfl, front, [], rfl, by rw [List.append_nil]⟩

/-- **The reader** accepts a character exactly where its encoding is in front, and reads nothing
behind the octets it is given. -/
theorem utf8ToCodepoint_iff (front bytes : List UInt8) :
    (utf8ToCodepoint (front ++ bytes) front.length bytes.length).isSome = true ∧
      ∀ n cp, (0 < n ∧ utf8ToCodepoint (front ++ bytes) front.length bytes.length = some (n, cp)) ↔
        ∃ c : Char, c.toNat = cp ∧ (String.utf8EncodeChar c).length = n ∧
          String.utf8EncodeChar c <+: bytes := by
  have hencoded : ∀ c : Char, String.utf8EncodeChar c <+: bytes →
      utf8ToCodepoint (front ++ bytes) front.length bytes.length =
        some ((String.utf8EncodeChar c).length, c.toNat) := by
    rintro c ⟨after, rfl⟩
    exact utf8ToCodepoint_encode c (View.atEnd front _)
  cases bytes with
  | nil =>
    have hnone : utf8ToCodepoint (front ++ []) front.length ([] : List UInt8).length =
        some (0, 0) := rfl
    refine ⟨by rw [hnone]; rfl, fun n cp => ⟨?_, ?_⟩⟩
    · rintro ⟨hpos, heq⟩
      rw [hnone, Option.some_inj, Prod.mk.injEq] at heq
      omega
    · rintro ⟨c, -, -, hprefix⟩
      have hlength := congrArg List.length (List.prefix_nil.mp hprefix)
      rw [String.length_utf8EncodeChar] at hlength
      exact absurd hlength (Nat.ne_of_gt c.utf8Size_pos)
  | cons b rest =>
    obtain ⟨m, cp', hcode, hsound⟩ := utf8ToCodepoint_sound (View.atEnd front (b :: rest))
    refine ⟨by rw [hcode]; rfl, fun n cp => ⟨?_, ?_⟩⟩
    · rintro ⟨hpos, heq⟩
      rw [hcode, Option.some_inj, Prod.mk.injEq] at heq
      obtain ⟨rfl, rfl⟩ := heq
      obtain rfl | ⟨-, hle, c, hc⟩ := hsound
      · exact absurd hpos (Nat.lt_irrefl 0)
      · -- the character in front has this encoding, so it is the one that was read
        have hprefix : String.utf8EncodeChar c <+: b :: rest := by
          rw [hc]
          exact List.take_prefix _ _
        have hread := hencoded c hprefix
        rw [hcode, Option.some_inj, Prod.mk.injEq] at hread
        exact ⟨c, hread.2.symm, hread.1.symm, hprefix⟩
    · rintro ⟨c, rfl, rfl, hprefix⟩
      refine ⟨?_, hencoded c hprefix⟩
      rw [String.length_utf8EncodeChar]
      exact c.utf8Size_pos

/-- What `cj_unicode_to_utf8` writes of a character into a buffer of five octets -/
def written (c : Char) : List UInt8 := (unicodeToUtf8 c.toNat 5).getD []

theorem written_eq (c : Char) : written c = String.utf8EncodeChar c := by
  have hlength := String.length_utf8EncodeChar c
  have hle := c.utf8Size_le_four
  unfold written
  rw [unicodeToUtf8_char, if_pos (by omega)]
  rfl

end Cj
end DeconzRest

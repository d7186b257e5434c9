import DeconzRest.Cj.Parser
import DeconzRest.Lib.Buffer
import DeconzRest.Lib.JsonGrammar
import Mathlib.Data.List.Induction

/-!
# The UTF-8 check

`isValidUtf8` takes the octets apart with masks and shifts.  `first_octet` and
`continuation_cons` put that into arithmetic; from there a character and its
encoding are compared by their numbers.
-/

namespace DeconzRest
namespace Cj

open List Option

open Rfc8259 (ValidUtf8)

variable (b : UInt8)

theorem first_octet (h : 0x80 ≤ b.toNat) :
    (b.toNat < 0xC0 ∧ leadingOnes 8 b.toNat 0 = (b.toNat - 0x80, 1)) ∨
      (0xC0 ≤ b.toNat ∧ b.toNat < 0xE0 ∧ leadingOnes 8 b.toNat 0 = (b.toNat - 0xC0, 2)) ∨
      (0xE0 ≤ b.toNat ∧ b.toNat < 0xF0 ∧ leadingOnes 8 b.toNat 0 = (b.toNat - 0xE0, 3)) ∨
      (0xF0 ≤ b.toNat ∧ b.toNat < 0xF8 ∧ leadingOnes 8 b.toNat 0 = (b.toNat - 0xF0, 4)) ∨
      (0xF8 ≤ b.toNat ∧ 4 < (leadingOnes 8 b.toNat 0).2) := by
  have hall : ∀ n : Fin 256, 0x80 ≤ n.val →
      (n.val < 0xC0 ∧ leadingOnes 8 n.val 0 = (n.val - 0x80, 1)) ∨
        (0xC0 ≤ n.val ∧ n.val < 0xE0 ∧ leadingOnes 8 n.val 0 = (n.val - 0xC0, 2)) ∨
        (0xE0 ≤ n.val ∧ n.val < 0xF0 ∧ leadingOnes 8 n.val 0 = (n.val - 0xE0, 3)) ∨
        (0xF0 ≤ n.val ∧ n.val < 0xF8 ∧ leadingOnes 8 n.val 0 = (n.val - 0xF0, 4)) ∨
        (0xF8 ≤ n.val ∧ 4 < (leadingOnes 8 n.val 0).2) := by
    decide +kernel
  exact hall ⟨b.toNat, b.toNat_lt⟩ h

theorem ascii_iff : b.toNat &&& 0x80 = 0 ↔ b.toNat < 0x80 := by
  have hall : ∀ n : Fin 256, n.val &&& 0x80 = 0 ↔ n.val < 0x80 := by decide +kernel
  exact hall ⟨b.toNat, b.toNat_lt⟩

def isContinuation (b : UInt8) : Bool := 0x80 ≤ b.toNat && b.toNat < 0xC0

theorem continuation_octet : b.toNat &&& 0xC0 = 0x80 ↔ isContinuation b = true := by
  have hall : ∀ n : Fin 256, n.val &&& 0xC0 = 0x80 ↔ 0x80 ≤ n.val ∧ n.val < 0xC0 := by
    decide +kernel
  rw [hall ⟨b.toNat, b.toNat_lt⟩]
  simp [isContinuation]

def appendBits (cp : Nat) (b : UInt8) : Nat := cp * 64 + (b.toNat - 0x80)

theorem shift_or (cp : Nat) {b : UInt8} (h : isContinuation b = true) :
    (cp <<< 6) ||| (b.toNat &&& 0x3F) = appendBits cp b := by
  have hmask : b.toNat &&& 0x3F = b.toNat % 2 ^ 6 := Nat.and_two_pow_sub_one_eq_mod b.toNat 6
  have hlt : b.toNat % 2 ^ 6 < 2 ^ 6 := Nat.mod_lt _ (by decide)
  rw [hmask, ← Nat.shiftLeft_add_eq_or_of_lt hlt, Nat.shiftLeft_eq]
  simp only [isContinuation, Bool.and_eq_true, decide_eq_true_eq] at h
  unfold appendBits
  omega

theorem continuation_eq {buf : List UInt8} {stop str : Nat} {rest : List UInt8} (k cp : Nat)
    (h : View buf stop str rest) (hk : k ≤ rest.length) :
    continuation buf k str cp =
      some (if (rest.take k).all isContinuation then
        some ((rest.take k).foldl appendBits cp) else none) := by
  induction k generalizing str rest cp with
  | zero => rfl
  | succ k ih =>
    cases rest with
    | nil => exact absurd hk (Nat.not_succ_le_zero k)
    | cons b rest =>
      have hstep : continuation buf (k + 1) str cp = if b.toNat &&& 0xC0 ≠
          0x80 then some none
          else continuation buf k (str + 1) ((cp <<< 6) ||| (b.toNat &&& 0x3F)) := by
        simp [continuation, h.read]
      rw [hstep, take_succ_cons, all_cons, foldl_cons]
      by_cases hb : isContinuation b = true
      · rw [if_neg (not_not_intro ((continuation_octet b).mpr hb)), shift_or cp hb, hb,
          Bool.true_and]
        exact ih _ h.next (Nat.le_of_succ_le_succ hk)
      · rw [if_pos (fun hmask => hb ((continuation_octet b).mp hmask)), Bool.eq_false_iff.mpr hb,
          Bool.false_and, if_neg Bool.false_ne_true]

/-! ## One character -/

variable {buf : List UInt8} {stop str : Nat} {b : UInt8} {rest : List UInt8}

theorem utf8ToCodepoint_ascii (h : View buf stop str (b :: rest)) (hb : b.toNat < 0x80) :
    utf8ToCodepoint buf str (b :: rest).length = some (1, b.toNat) := by
  simp [utf8ToCodepoint, h.read, (ascii_iff b).mpr hb]

theorem utf8ToCodepoint_multi (h : View buf stop str (b :: rest)) (hb : 0x80 ≤ b.toNat)
    {payload k : Nat} (hfirst : leadingOnes 8 b.toNat 0 = (payload, k + 1)) (hk : 1 ≤ k)
    (hk4 : k ≤ 3) (hlen : k ≤ rest.length) :
    utf8ToCodepoint buf str (b :: rest).length =
      some (if (rest.take k).all isContinuation = true ∧
          validCodepoint (k + 1) ((rest.take k).foldl appendBits payload) = true then
        (k + 1, (rest.take k).foldl appendBits payload)
      else
        (0, 0)) := by
  have hascii : ¬ b.toNat &&& 0x80 = 0 := by
    rw [ascii_iff]
    omega
  have hsize : ¬ (k + 1 < 2 ∨ 4 < k + 1 ∨ (b :: rest).length < k + 1) := by
    rw [length_cons]
    omega
  have hcont := continuation_eq k payload h.next hlen
  have hne : (b :: rest).length ≠ 0 := Nat.succ_ne_zero _
  unfold utf8ToCodepoint
  rw [if_neg hne, h.read]
  simp only [bind_eq_bind, bind_some]
  rw [if_neg hascii, hfirst]
  simp only
  rw [if_neg hsize, Nat.add_sub_cancel, hcont, bind_some]
  by_cases hall : (rest.take k).all isContinuation = true
  · rw [if_pos hall]
    simp only [hall, true_and]
  · rw [if_neg hall, if_neg (fun hboth => hall hboth.1)]

theorem utf8ToCodepoint_bad (h : View buf stop str (b :: rest)) (hb : 0x80 ≤ b.toNat)
    (hsize : (leadingOnes 8 b.toNat 0).2 < 2 ∨ 4 < (leadingOnes 8 b.toNat 0).2 ∨
      (b :: rest).length < (leadingOnes 8 b.toNat 0).2) :
    utf8ToCodepoint buf str (b :: rest).length = some (0, 0) := by
  have hascii : ¬ b.toNat &&& 0x80 = 0 := by
    rw [ascii_iff]
    omega
  have hne : (b :: rest).length ≠ 0 := Nat.succ_ne_zero _
  unfold utf8ToCodepoint
  rw [if_neg hne, h.read]
  simp only [bind_eq_bind, bind_some]
  rw [if_neg hascii, if_pos hsize]

theorem exists_char {v : Nat} (h : v < 0xD800 ∨ 0xDFFF < v ∧ v < 0x110000) :
    ∃ c : Char, c.toNat = v := by
  have hvalid : v.isValidChar := by
    simpa [Nat.isValidChar] using h
  exact ⟨Char.ofNatAux v hvalid, rfl⟩

variable {n : Nat}

theorem octet_eq {b : UInt8} (h : n = b.toNat) : UInt8.ofNat n = b := by
  rw [h, UInt8.ofNat_toNat]

theorem toNat_octet (h : n < 256) : (UInt8.ofNat n).toNat = n :=
  UInt8.toNat_ofNat_of_lt' h

theorem encode_eq (c : Char) :
    String.utf8EncodeChar c = if c.toNat ≤
      0x7F then [UInt8.ofNat c.toNat]
      else if c.toNat ≤ 0x7FF then
        [UInt8.ofNat (c.toNat / 64 % 0x20 + 0xC0), UInt8.ofNat (c.toNat % 0x40 + 0x80)]
      else if c.toNat ≤ 0xFFFF then
        [UInt8.ofNat (c.toNat / 4096 % 0x10 + 0xE0), UInt8.ofNat (c.toNat / 64 % 0x40 + 0x80),
          UInt8.ofNat (c.toNat % 0x40 + 0x80)]
      else
        [UInt8.ofNat (c.toNat / 262144 % 0x08 + 0xF0), UInt8.ofNat (c.toNat / 4096 % 0x40 + 0x80),
          UInt8.ofNat (c.toNat / 64 % 0x40 + 0x80), UInt8.ofNat (c.toNat % 0x40 + 0x80)] := rfl

variable {c : Char}

theorem encode_two {b x : UInt8} (hb : 0xC0 ≤ b.toNat ∧ b.toNat < 0xE0)
    (hx : 0x80 ≤ x.toNat ∧ x.toNat < 0xC0) (hc : c.toNat = (b.toNat - 0xC0) * 64 + (x.toNat - 0x80))
    (hmin : 0x80 ≤ c.toNat) :
    String.utf8EncodeChar c = [b, x] := by
  have h1 : ¬ c.toNat ≤ 0x7F := by omega
  have h2 : c.toNat ≤ 0x7FF := by omega
  rw [encode_eq, if_neg h1, if_pos h2, octet_eq (b := b) (by omega), octet_eq (b := x) (by omega)]

theorem encode_three {b x y : UInt8} (hb : 0xE0 ≤ b.toNat ∧ b.toNat < 0xF0)
    (hx : 0x80 ≤ x.toNat ∧ x.toNat < 0xC0) (hy : 0x80 ≤ y.toNat ∧ y.toNat < 0xC0)
    (hc : c.toNat = ((b.toNat - 0xE0) * 64 + (x.toNat - 0x80)) * 64 + (y.toNat - 0x80))
    (hmin : 0x800 ≤ c.toNat) : String.utf8EncodeChar c = [b, x, y] := by
  have h1 : ¬ c.toNat ≤ 0x7F := by omega
  have h2 : ¬ c.toNat ≤ 0x7FF := by omega
  have h3 : c.toNat ≤ 0xFFFF := by omega
  rw [encode_eq, if_neg h1, if_neg h2, if_pos h3, octet_eq (b := b) (by omega),
    octet_eq (b := x) (by omega), octet_eq (b := y) (by omega)]

theorem encode_four {b x y z : UInt8} (hb : 0xF0 ≤ b.toNat ∧ b.toNat < 0xF8)
    (hx : 0x80 ≤ x.toNat ∧ x.toNat < 0xC0) (hy : 0x80 ≤ y.toNat ∧ y.toNat < 0xC0)
    (hz : 0x80 ≤ z.toNat ∧ z.toNat < 0xC0)
    (hc : c.toNat = (((b.toNat - 0xF0) * 64 + (x.toNat - 0x80)) * 64 + (y.toNat - 0x80)) * 64 +
      (z.toNat - 0x80))
    (hmin : 0x10000 ≤ c.toNat) :
    String.utf8EncodeChar c = [b, x, y, z] := by
  have h1 : ¬ c.toNat ≤ 0x7F := by omega
  have h2 : ¬ c.toNat ≤ 0x7FF := by omega
  have h3 : ¬ c.toNat ≤ 0xFFFF := by omega
  rw [encode_eq, if_neg h1, if_neg h2, if_neg h3, octet_eq (b := b) (by omega),
    octet_eq (b := x) (by omega), octet_eq (b := y) (by omega), octet_eq (b := z) (by omega)]

theorem isContinuation_iff : isContinuation b = true ↔ 0x80 ≤ b.toNat ∧ b.toNat < 0xC0 := by
  simp [isContinuation]

variable {payload : Nat}

theorem first_octet_two (hb : 0x80 ≤ b.toNat) (h : leadingOnes 8 b.toNat 0 = (payload, 2)) :
    (0xC0 ≤ b.toNat ∧ b.toNat < 0xE0) ∧ payload = b.toNat - 0xC0 := by
  have hfirst := first_octet b hb
  rw [h] at hfirst
  simp only [Prod.mk.injEq] at hfirst
  omega

theorem first_octet_three (hb : 0x80 ≤ b.toNat) (h : leadingOnes 8 b.toNat 0 = (payload, 3)) :
    (0xE0 ≤ b.toNat ∧ b.toNat < 0xF0) ∧ payload = b.toNat - 0xE0 := by
  have hfirst := first_octet b hb
  rw [h] at hfirst
  simp only [Prod.mk.injEq] at hfirst
  omega

theorem first_octet_four (hb : 0x80 ≤ b.toNat) (h : leadingOnes 8 b.toNat 0 = (payload, 4)) :
    (0xF0 ≤ b.toNat ∧ b.toNat < 0xF8) ∧ payload = b.toNat - 0xF0 := by
  have hfirst := first_octet b hb
  rw [h] at hfirst
  simp only [Prod.mk.injEq] at hfirst
  omega

theorem validCodepoint_iff (k cp : Nat) :
    validCodepoint k cp = true ↔ (k = 2 → 0x80 ≤ cp) ∧
      (k = 3 → 0x800 ≤ cp) ∧ (k = 4 → 0x10000 ≤ cp ∧ cp ≤ 0x10FFFF) ∧
        (cp < 0xD800 ∨ 0xDFFF < cp) := by
  simp only [validCodepoint, Bool.not_eq_true', Bool.or_eq_false_iff, Bool.and_eq_false_iff,
    decide_eq_false_iff_not, Bool.or_eq_false_iff]
  omega

theorem exists_two {l : List UInt8} (h : 2 ≤ l.length) : ∃ x y after, l = x :: y :: after := by
  match l, h with
  | x :: y :: after, _ => exact ⟨x, y, after, rfl⟩

theorem exists_three {l : List UInt8} (h : 3 ≤ l.length) :
    ∃ x y z after, l = x :: y :: z :: after := by
  match l, h with
  | x :: y :: z :: after, _ => exact ⟨x, y, z, after, rfl⟩

theorem exists_char_of_multi {payload k : Nat} (hb : 0x80 ≤ b.toNat)
    (hfirst : leadingOnes 8 b.toNat 0 = (payload, k + 1)) (hk : 1 ≤ k) (hk4 : k ≤ 3)
    (hlen : k ≤ rest.length) (hall : (rest.take k).all isContinuation = true)
    (hvalid : validCodepoint (k + 1) ((rest.take k).foldl appendBits payload) = true) :
    ∃ c, String.utf8EncodeChar c = b :: rest.take k := by
  rw [validCodepoint_iff] at hvalid
  have hk123 : k = 1 ∨ k = 2 ∨ k = 3 := by omega
  rcases hk123 with rfl | rfl | rfl
  · obtain ⟨x, after, rfl⟩ : ∃ x after, rest = x :: after :=
      exists_cons_of_length_pos hlen
    obtain ⟨hrange, hpayload⟩ := first_octet_two hb hfirst
    have hcp : ((x :: after).take 1).foldl appendBits payload = payload * 64 +
        (x.toNat - 0x80) := rfl
    have hx : 0x80 ≤ x.toNat ∧ x.toNat < 0xC0 := by
      simpa [isContinuation_iff] using hall
    rw [hcp] at hvalid
    obtain ⟨c, hc⟩ := exists_char (v := payload * 64 + (x.toNat - 0x80)) (by omega)
    refine ⟨c, encode_two hrange hx ?_ ?_⟩
    · omega
    · omega
  · obtain ⟨x, y, after, rfl⟩ := exists_two hlen
    obtain ⟨hrange, hpayload⟩ := first_octet_three hb hfirst
    have hcp : ((x :: y :: after).take 2).foldl appendBits payload =
        (payload * 64 + (x.toNat - 0x80)) * 64 + (y.toNat - 0x80) := rfl
    have hxy : (0x80 ≤ x.toNat ∧ x.toNat < 0xC0) ∧ 0x80 ≤ y.toNat ∧ y.toNat < 0xC0 := by
      simpa [isContinuation_iff] using hall
    rw [hcp] at hvalid
    obtain ⟨c, hc⟩ := exists_char
      (v := (payload * 64 + (x.toNat - 0x80)) * 64 + (y.toNat - 0x80)) (by omega)
    refine ⟨c, encode_three hrange hxy.1 hxy.2 ?_ ?_⟩
    · omega
    · omega
  · obtain ⟨x, y, z, after, rfl⟩ := exists_three hlen
    obtain ⟨hrange, hpayload⟩ := first_octet_four hb hfirst
    have hcp : ((x :: y :: z :: after).take 3).foldl appendBits payload =
        ((payload * 64 + (x.toNat - 0x80)) * 64 + (y.toNat - 0x80)) * 64 + (z.toNat - 0x80) := rfl
    have hxyz : (0x80 ≤ x.toNat ∧ x.toNat < 0xC0) ∧ (0x80 ≤ y.toNat ∧ y.toNat < 0xC0) ∧ 0x80 ≤
        z.toNat ∧ z.toNat < 0xC0 := by
      simpa [isContinuation_iff] using hall
    rw [hcp] at hvalid
    obtain ⟨c, hc⟩ := exists_char
      (v := ((payload * 64 + (x.toNat - 0x80)) * 64 + (y.toNat - 0x80)) * 64 + (z.toNat - 0x80))
      (by omega)
    refine ⟨c, encode_four hrange hxyz.1 hxyz.2.1 hxyz.2.2 ?_ ?_⟩
    · omega
    · omega

theorem utf8ToCodepoint_sound (h : View buf stop str (b :: rest)) :
    ∃ n cp, utf8ToCodepoint buf str (b :: rest).length = some (n, cp) ∧
      (n = 0 ∨ 0 < n ∧ n ≤ (b :: rest).length ∧ ∃ c, String.utf8EncodeChar c =
        (b :: rest).take n) := by
  by_cases hascii : b.toNat < 0x80
  · refine ⟨1, b.toNat, utf8ToCodepoint_ascii h hascii, .inr ⟨Nat.one_pos, ?_, ?_⟩⟩
    · rw [length_cons]
      omega
    · obtain ⟨c, hc⟩ := exists_char (v := b.toNat) (by omega)
      refine ⟨c, ?_⟩
      rw [encode_eq, if_pos (by omega), octet_eq hc]
      rfl
  · have hb : 0x80 ≤ b.toNat := by omega
    generalize hfirst : leadingOnes 8 b.toNat 0 = first
    obtain ⟨payload, bytes⟩ := first
    by_cases hsize : bytes < 2 ∨ 4 < bytes ∨ (b :: rest).length < bytes
    · refine ⟨0, 0, utf8ToCodepoint_bad h hb ?_, .inl rfl⟩
      rw [hfirst]
      exact hsize
    · obtain ⟨k, rfl⟩ : ∃ k, bytes = k + 1 := ⟨bytes - 1, by omega⟩
      rw [length_cons] at hsize
      have hlen : k ≤ rest.length := by omega
      have hmulti := utf8ToCodepoint_multi h hb hfirst (by omega) (by omega) hlen
      by_cases haccept : (rest.take k).all isContinuation = true ∧
          validCodepoint (k + 1) ((rest.take k).foldl appendBits payload) = true
      · rw [if_pos haccept] at hmulti
        refine ⟨_, _, hmulti, .inr ⟨Nat.succ_pos k, ?_, ?_⟩⟩
        · rw [length_cons]
          omega
        · exact exists_char_of_multi hb hfirst (by omega) (by omega) hlen haccept.1 haccept.2
      · rw [if_neg haccept] at hmulti
        exact ⟨0, 0, hmulti, .inl rfl⟩

theorem utf8ToCodepoint_octets (conts : List UInt8) {after : List UInt8}
    (h : View buf stop str (b :: (conts ++ after))) (hb : 0x80 ≤ b.toNat)
    (hfirst : leadingOnes 8 b.toNat 0 = (payload, conts.length + 1)) (hk : 1 ≤ conts.length)
    (hk4 : conts.length ≤ 3) (hall : conts.all isContinuation = true)
    (hvalid : validCodepoint (conts.length + 1) (conts.foldl appendBits payload) = true) :
    utf8ToCodepoint buf str (b :: (conts ++ after)).length =
      some (conts.length + 1, conts.foldl appendBits payload) := by
  have hlen : conts.length ≤ (conts ++ after).length := by
    rw [List.length_append]
    omega
  have htake : (conts ++ after).take conts.length = conts := take_left
  have hmulti := utf8ToCodepoint_multi h hb hfirst hk hk4 hlen
  rw [htake, if_pos ⟨hall, hvalid⟩] at hmulti
  exact hmulti

theorem leadingOnes_two (h : n < 0x20) :
    leadingOnes 8 (UInt8.ofNat (n + 0xC0)).toNat 0 = (n, 2) := by
  have hb := toNat_octet (n := n + 0xC0) (by omega)
  have hfirst := first_octet (UInt8.ofNat (n + 0xC0)) (by omega)
  rw [hb] at hfirst ⊢
  rcases hfirst with h1 | ⟨-, -, h1⟩ | h1 | h1 | h1
  · omega
  · rw [h1, Nat.add_sub_cancel]
  · omega
  · omega
  · omega

theorem leadingOnes_three (h : n < 0x10) :
    leadingOnes 8 (UInt8.ofNat (n + 0xE0)).toNat 0 = (n, 3) := by
  have hb := toNat_octet (n := n + 0xE0) (by omega)
  have hfirst := first_octet (UInt8.ofNat (n + 0xE0)) (by omega)
  rw [hb] at hfirst ⊢
  rcases hfirst with h1 | h1 | ⟨-, -, h1⟩ | h1 | h1
  · omega
  · omega
  · rw [h1, Nat.add_sub_cancel]
  · omega
  · omega

theorem leadingOnes_four (h : n < 0x08) :
    leadingOnes 8 (UInt8.ofNat (n + 0xF0)).toNat 0 = (n, 4) := by
  have hb := toNat_octet (n := n + 0xF0) (by omega)
  have hfirst := first_octet (UInt8.ofNat (n + 0xF0)) (by omega)
  rw [hb] at hfirst ⊢
  rcases hfirst with h1 | h1 | h1 | ⟨-, -, h1⟩ | h1
  · omega
  · omega
  · omega
  · rw [h1, Nat.add_sub_cancel]
  · omega

theorem appendBits_octet (cp n : Nat) :
    appendBits cp (UInt8.ofNat (n % 0x40 + 0x80)) = cp * 64 + n % 0x40 := by
  unfold appendBits
  rw [toNat_octet (by omega), Nat.add_sub_cancel]

theorem isContinuation_octet (n : Nat) : isContinuation (UInt8.ofNat (n % 0x40 + 0x80)) = true := by
  rw [isContinuation_iff, toNat_octet (by omega)]
  omega

theorem utf8ToCodepoint_encode (c : Char) {after : List UInt8}
    (h : View buf stop str (String.utf8EncodeChar c ++ after)) :
    utf8ToCodepoint buf str (String.utf8EncodeChar c ++ after).length =
      some ((String.utf8EncodeChar c).length, c.toNat) := by
  have hvalid : c.toNat < 0xD800 ∨ 0xDFFF < c.toNat ∧ c.toNat < 0x110000 := by
    have := c.valid
    simpa [UInt32.isValidChar, Nat.isValidChar] using this
  by_cases h1 : c.toNat ≤ 0x7F
  · have hoctet := toNat_octet (n := c.toNat) (by omega)
    rw [encode_eq, if_pos h1] at h ⊢
    have hcode := utf8ToCodepoint_ascii h (by omega)
    rw [hoctet] at hcode
    exact hcode
  · by_cases h2 : c.toNat ≤ 0x7FF
    · rw [encode_eq, if_neg h1, if_pos h2] at h ⊢
      have hfold : [UInt8.ofNat (c.toNat % 0x40 + 0x80)].foldl appendBits
          (c.toNat / 64 % 0x20) = c.toNat := by
        rw [foldl_cons, appendBits_octet, foldl_nil]
        omega
      have hcode := utf8ToCodepoint_octets [_] h
        (by rw [toNat_octet (by omega)]; omega) (leadingOnes_two (by omega)) (by simp)
        (by simp)
        (by simp only [all_cons, all_nil, isContinuation_octet, Bool.and_true])
        (by rw [hfold, validCodepoint_iff]; simp only [length_singleton]; omega)
      rw [hfold] at hcode
      exact hcode
    · by_cases h3 : c.toNat ≤ 0xFFFF
      · rw [encode_eq, if_neg h1, if_neg h2, if_pos h3] at h ⊢
        have hfold : [UInt8.ofNat (c.toNat / 64 % 0x40 + 0x80),
            UInt8.ofNat (c.toNat % 0x40 + 0x80)].foldl appendBits (c.toNat / 4096 % 0x10) =
              c.toNat := by
          rw [foldl_cons, foldl_cons, appendBits_octet, appendBits_octet, foldl_nil]
          omega
        have hcode := utf8ToCodepoint_octets [_, _] h
          (by rw [toNat_octet (by omega)]; omega) (leadingOnes_three (by omega)) (by simp)
          (by simp)
          (by simp only [all_cons, all_nil, isContinuation_octet, Bool.and_true])
          (by rw [hfold, validCodepoint_iff]; simp only [length_cons, length_nil]; omega)
        rw [hfold] at hcode
        exact hcode
      · rw [encode_eq, if_neg h1, if_neg h2, if_neg h3] at h ⊢
        have hfold : [UInt8.ofNat (c.toNat / 4096 % 0x40 + 0x80),
            UInt8.ofNat (c.toNat / 64 % 0x40 + 0x80),
            UInt8.ofNat (c.toNat % 0x40 + 0x80)].foldl appendBits (c.toNat / 262144 % 0x08) =
              c.toNat := by
          rw [foldl_cons, foldl_cons, foldl_cons, appendBits_octet, appendBits_octet,
            appendBits_octet, foldl_nil]
          omega
        have hcode := utf8ToCodepoint_octets [_, _, _] h
          (by rw [toNat_octet (by omega)]; omega) (leadingOnes_four (by omega)) (by simp)
          (by simp)
          (by simp only [all_cons, all_nil, isContinuation_octet, Bool.and_true])
          (by rw [hfold, validCodepoint_iff]; simp only [length_cons, length_nil]; omega)
        rw [hfold] at hcode
        exact hcode

/-! ## The whole text -/

theorem validUtf8_cons {bytes : List UInt8} (hc : String.utf8EncodeChar c = bytes.take n)
    (hunique : ∀ d after, bytes = String.utf8EncodeChar d ++ after →
      (String.utf8EncodeChar d).length = n)
    :
    ValidUtf8 bytes ↔ ValidUtf8 (bytes.drop n) := by
  constructor
  · rintro ⟨cs, hcs⟩
    cases cs with
    | nil =>
      refine ⟨[], ?_⟩
      rw [hcs]
      simp
    | cons d cs =>
      rw [flatMap_cons] at hcs
      have hn := hunique d _ hcs
      refine ⟨cs, ?_⟩
      rw [hcs, ← hn, drop_left]
  · rintro ⟨cs, hcs⟩
    refine ⟨c :: cs, ?_⟩
    rw [flatMap_cons, hc, ← hcs, take_append_drop]

theorem isValidUtf8Loop_spec (fuel : Nat) {str : Nat} {rest : List UInt8}
    (h : View buf stop str rest) (hne : rest ≠ []) (hfuel : rest.length ≤ fuel) :
    ∃ status, isValidUtf8Loop buf fuel str rest.length = some status ∧
      (status = .ok ↔ ValidUtf8 rest) := by
  induction fuel generalizing str rest with
  | zero => exact absurd (eq_nil_of_length_eq_zero (Nat.le_zero.mp hfuel)) hne
  | succ fuel ih =>
    obtain ⟨b, tail, rfl⟩ := exists_cons_of_ne_nil hne
    obtain ⟨n, cp, hcode, hn⟩ := utf8ToCodepoint_sound h
    have hunique : ∀ d after, b :: tail = String.utf8EncodeChar d ++ after →
        (String.utf8EncodeChar d).length = n := by
      intro d after hd
      rw [hd] at h hcode
      have hd' := utf8ToCodepoint_encode d h
      rw [hcode] at hd'
      exact (Prod.mk.inj (some.inj hd')).1.symm
    have hstep : isValidUtf8Loop buf (fuel + 1) str (b :: tail).length = if 0 <
        n then
          if 0 < (b :: tail).length - n then
            isValidUtf8Loop buf fuel (str + n) ((b :: tail).length - n)
          else
            some .ok
        else
          some .invalidUtf8 := by
      conv_lhs => unfold isValidUtf8Loop
      rw [hcode]
      rfl
    rw [hstep]
    rcases hn with rfl | ⟨hpos, hle, c, hc⟩
    · refine ⟨.invalidUtf8, rfl, ?_⟩
      constructor
      · intro habsurd
        exact absurd habsurd (by decide)
      · rintro ⟨cs, hcs⟩
        cases cs with
        | nil => exact absurd hcs (cons_ne_nil _ _)
        | cons d cs =>
          have hlen := hunique d _ hcs
          rw [String.length_utf8EncodeChar] at hlen
          exact absurd hlen (Nat.ne_of_gt d.utf8Size_pos)
    · rw [validUtf8_cons hc hunique, if_pos hpos]
      by_cases hlast : (b :: tail).length - n = 0
      · rw [if_neg (by omega)]
        refine ⟨.ok, rfl, fun _ => ⟨[], ?_⟩, fun _ => rfl⟩
        exact drop_eq_nil_of_le (by omega)
      · have hview : View buf stop (str + n) ((b :: tail).drop n) := by
          have hsplit : b :: tail = (b :: tail).take n ++ (b :: tail).drop n :=
            (take_append_drop _ _).symm
          rw [hsplit] at h
          have hadvance := h.advance
          rwa [length_take_of_le hle] at hadvance
        have hdrop : ((b :: tail).drop n).length = (b :: tail).length - n := length_drop
        obtain ⟨status, hloop, hstatus⟩ := ih hview
          (ne_nil_of_length_pos (by omega)) (by omega)
        refine ⟨status, ?_, hstatus⟩
        rw [if_pos (by omega), ← hdrop, hloop]

theorem isValidUtf8_spec {json : List UInt8} (hne : json ≠ []) :
    ∃ status, isValidUtf8 json json.length = some status ∧ (status = .ok ↔ ValidUtf8 json) :=
  isValidUtf8Loop_spec json.length (View.whole json) hne (Nat.le_refl _)

theorem encode_concat {front : List UInt8} {b : UInt8} (h : String.utf8EncodeChar c = front ++ [b])
    (hb : b.toNat < 0x80) : front = [] := by
  have hlast : (String.utf8EncodeChar c).getLast? = some b := by
    rw [h, List.getLast?_concat]
  have hhigh : ∀ n, UInt8.ofNat (n % 0x40 + 0x80) ≠ b := by
    intro n heq
    have hn := toNat_octet (n := n % 0x40 + 0x80) (by omega)
    rw [heq] at hn
    omega
  rw [encode_eq] at h hlast
  split_ifs at h hlast
  · have hlen := congrArg List.length h
    rw [List.length_append, length_singleton, length_singleton] at hlen
    exact eq_nil_of_length_eq_zero (by omega)
  · exact absurd (some.inj hlast) (hhigh _)
  · exact absurd (some.inj hlast) (hhigh _)
  · exact absurd (some.inj hlast) (hhigh _)

theorem validUtf8_of_concat {front : List UInt8} {b : UInt8} (h : ValidUtf8 (front ++ [b]))
    (hb : b.toNat < 0x80) : ValidUtf8 front := by
  obtain ⟨cs, hcs⟩ := h
  rcases eq_nil_or_concat cs with rfl | ⟨cs, c, rfl⟩
  · exact absurd hcs (by simp)
  · rw [concat_eq_append, flatMap_append, flatMap_singleton] at hcs
    have hne : String.utf8EncodeChar c ≠ [] := by
      have hpos := c.utf8Size_pos
      rw [← String.length_utf8EncodeChar] at hpos
      exact ne_nil_of_length_pos hpos
    obtain ⟨octets, last, henc⟩ := eq_nil_or_concat _ |>.resolve_left hne
    rw [concat_eq_append] at henc
    rw [henc, ← append_assoc] at hcs
    obtain ⟨hfront, hlast⟩ := append_inj' hcs rfl
    rw [← singleton_inj.mp hlast] at henc
    have hnil := encode_concat henc hb
    refine ⟨cs, ?_⟩
    rw [hfront, hnil, append_nil]

theorem validUtf8_trim {front trailing : List UInt8} (h : ValidUtf8 (front ++ trailing))
    (hascii : ∀ b ∈ trailing, b.toNat < 0x80) : ValidUtf8 front := by
  induction trailing using List.reverseRecOn with
  | nil => rwa [append_nil] at h
  | append_singleton trailing b ih =>
    rw [← append_assoc] at h
    have hb := hascii b (by simp)
    exact ih (validUtf8_of_concat h hb) (fun x hx => hascii x (by simp [hx]))

end Cj
end DeconzRest

import DeconzRest.Qt.Number
import DeconzRest.Qt.Unicode

/-!
# Numbers in the notation of C

`QString::toUInt(&ok, 0)` and `QString::toUShort(&ok, 0)`: the digits in front of a number say
its base.  What `snprintf` prints for `0x%04X` and its like is read back (`toUIntC_hexText`).
-/

namespace DeconzRest
namespace QString

open List

def digitsIn (base : Nat) (s : QString) : Option Nat :=
  if s ≠ [] ∧ s.all (fun c => Qt.hexDigit c < base) then
    some (s.foldl (fun n c => base * n + Qt.hexDigit c) 0)
  else
    none

/-- Digits that say their base: `0x` for sixteen, another `0` for eight. -/
def cDigits : QString → Option Nat
  | zero :: x :: digits =>
    if zero = unit '0' then
      if x = unit 'x' ∨ x = unit 'X' then digitsIn 16 digits else digitsIn 8 (x :: digits)
    else
      digitsIn 10 (zero :: x :: digits)
  | digits => digitsIn 10 digits

/-- A number below a bound, with white space around it and a plus in front of it -/
def toUnsigned (bound : Nat) (s : QString) : Option Nat :=
  let text := s.trimmed
  let digits := if text.head? = some (unit '+') then text.tail else text
  (cDigits digits).filter fun n => n < bound

/-- `QString::toUInt(&ok, 0)`; `none` when `ok` is false. -/
def toUIntC (s : QString) : Option UInt32 := (toUnsigned (2 ^ 32) s).map UInt32.ofNat

/-- `QString::toUShort(&ok, 0)`; `none` when `ok` is false. -/
def toUShortC (s : QString) : Option UInt16 := (toUnsigned (2 ^ 16) s).map UInt16.ofNat

/-! ## Printed numbers -/

/-- A digit of `%X` -/
def hexChar (d : Nat) : Char := Char.ofNat (if d < 10 then 0x30 + d else 0x37 + d)

/-- The last digits of a number in `%X` -/
def hexChars : Nat → Nat → List Char
  | 0, _ => []
  | width + 1, n => hexChars width (n / 16) ++ [hexChar (n % 16)]

/-- What `snprintf` prints for `0x%0{width}X`, of a number that has no more digits. -/
def hexText (width n : Nat) : String := String.ofList ('0' :: 'x' :: hexChars width n)

def ofStd (s : String) : QString := ofChars s.toList

theorem hexChar_spec : ∀ d < 16, Qt.hexDigit (unit (hexChar d)) = d ∧ utf16 (hexChar d) =
    [unit (hexChar d)] ∧ isSpace (unit (hexChar d)) = false := by
  decide

theorem length_hexChars (width n : Nat) : (hexChars width n).length = width := by
  induction width generalizing n with
  | zero => rfl
  | succ width ih => rw [hexChars, List.length_append, ih, length_singleton]

theorem mem_hexChars {width n : Nat} {c : Char} (h : c ∈ hexChars width n) :
    ∃ d < 16, c = hexChar d := by
  induction width generalizing n with
  | zero => cases h
  | succ width ih =>
    rcases mem_append.mp h with hfront | hlast
    · exact ih hfront
    · exact ⟨n % 16, Nat.mod_lt n (by decide), mem_singleton.mp hlast⟩

theorem ofChars_hexChars (width n : Nat) :
    ofChars (hexChars width n) = (hexChars width n).map unit := by
  unfold ofChars
  rw [map_eq_flatMap]
  refine flatMap_congr fun c hc => ?_
  obtain ⟨d, hd, rfl⟩ := mem_hexChars hc
  exact (hexChar_spec d hd).2.1

theorem foldl_hexChars (width n : Nat) :
    ((hexChars width n).map unit).foldl (fun n c => 16 * n + Qt.hexDigit c) 0 = n % 16 ^ width := by
  induction width generalizing n with
  | zero => rw [Nat.pow_zero, Nat.mod_one]; rfl
  | succ width ih =>
    have hdigit := (hexChar_spec (n % 16) (Nat.mod_lt n (by decide))).1
    rw [hexChars, map_append, foldl_append, ih, map_singleton, foldl_cons, foldl_nil, hdigit,
      Nat.pow_succ, Nat.mul_comm (16 ^ width) 16, Nat.mod_mul]
    omega

theorem digitsIn_hexChars {width n : Nat} (hwidth : 0 < width) (hn : n < 16 ^ width) :
    digitsIn 16 ((hexChars width n).map unit) = some n := by
  have hne : (hexChars width n).map unit ≠ [] := by
    intro hnil
    have hlength := congrArg List.length hnil
    rw [length_map, length_hexChars, length_nil] at hlength
    omega
  have hall : ((hexChars width n).map unit).all (fun c => Qt.hexDigit c < 16) = true := by
    rw [all_map, all_eq_true]
    intro c hc
    obtain ⟨d, hd, rfl⟩ := mem_hexChars hc
    show decide (Qt.hexDigit (unit (hexChar d)) < 16) = true
    rw [(hexChar_spec d hd).1]
    exact decide_eq_true hd
  rw [digitsIn, if_pos ⟨hne, hall⟩, foldl_hexChars, Nat.mod_eq_of_lt hn]

theorem toUnsigned_hexText {bound width n : Nat} (hwidth : 0 < width) (hn : n < 16 ^ width)
    (hbound : n < bound) : toUnsigned bound (ofStd (hexText width n)) = some n := by
  have htext : ofStd (hexText width n) = unit '0' :: unit 'x' :: (hexChars width n).map unit := by
    rw [ofStd, hexText, String.toList_ofList, ← ofChars_hexChars]
    rfl
  have hspace : ∀ c ∈ unit '0' :: unit 'x' :: (hexChars width n).map unit, isSpace c = false := by
    intro c hc
    rcases mem_cons.mp hc with rfl | hc
    · decide
    · rcases mem_cons.mp hc with rfl | hc
      · decide
      · obtain ⟨d, hd, rfl⟩ := mem_map.mp hc
        obtain ⟨k, hk, rfl⟩ := mem_hexChars hd
        exact (hexChar_spec k hk).2.2
  have hplus : ¬ (unit '0' :: unit 'x' :: (hexChars width n).map unit).head? = some (unit '+') := by
    rw [List.head?_cons]
    decide
  unfold toUnsigned
  simp only
  rw [htext, trimmed_of_not_space hspace, if_neg hplus, cDigits, if_pos rfl, if_pos (.inl rfl),
    digitsIn_hexChars hwidth hn]
  exact if_pos (decide_eq_true hbound)

theorem toUIntC_hexText {width : Nat} (hwidth : 0 < width) (n : UInt32)
    (hn : n.toNat < 16 ^ width) : toUIntC (ofStd (hexText width n.toNat)) = some n := by
  rw [toUIntC, toUnsigned_hexText hwidth hn n.toNat_lt, Option.map_some, UInt32.ofNat_toNat]

theorem toUShortC_hexText {width : Nat} (hwidth : 0 < width) (n : UInt16)
    (hn : n.toNat < 16 ^ width) : toUShortC (ofStd (hexText width n.toNat)) = some n := by
  rw [toUShortC, toUnsigned_hexText hwidth hn n.toNat_lt, Option.map_some, UInt16.ofNat_toNat]

/-- A decimal number does not begin with the digit that stands for base eight. -/
theorem head_toDigits {n : Nat} (h : 0 < n) : (Nat.toDigits 10 n).head? ≠ some '0' := by
  induction n using Nat.strong_induction_on with
  | _ n ih =>
    by_cases hsmall : n < 10
    · have hdigit : ∀ n < 10, 0 < n → [n.digitChar].head? ≠ some '0' := by
        decide
      rw [Nat.toDigits_of_lt_base hsmall]
      exact hdigit n hsmall h
    · rw [Nat.toDigits_of_base_le (by decide) (by omega), head?_append_of_ne_nil _
        Nat.toDigits_ne_nil]
      exact ih (n / 10) (by omega) (by omega)

theorem digitsIn_number (n : Nat) : digitsIn 10 (number n) = some n := by
  have hdigits : Qt.digits? (number n) = some (n : Int) := Qt.digits?_repr n
  have hdigit : ∀ c ∈ number n, Qt.hexDigit c = c.toNat - 0x30 ∧ Qt.hexDigit c < 10 := by
    intro c hc
    have hrange := mem_number hc
    unfold Qt.hexDigit
    simp only
    rw [if_pos hrange]
    omega
  have hfold : ∀ (s : QString), (∀ c ∈ s, Qt.hexDigit c = c.toNat - 0x30) → ∀ m : Nat,
      s.foldl (fun (n : Int) c => 10 * n + (c.toNat - 0x30 : Nat)) m =
        (s.foldl (fun n c => 10 * n + Qt.hexDigit c) m : Nat) := by
    intro s
    induction s with
    | nil => exact fun _ _ => rfl
    | cons c s ih =>
      intro h m
      rw [foldl_cons, foldl_cons, ← ih fun x hx => h x (mem_cons_of_mem c hx), h c mem_cons_self]
      rfl
  unfold Qt.digits? at hdigits
  split at hdigits
  · have hvalue := hfold _ (fun c hc => (hdigit c hc).1) 0
    rw [digitsIn, if_pos ⟨number_ne_nil n, all_eq_true.mpr fun c hc =>
      decide_eq_true (hdigit c hc).2⟩]
    exact congrArg some (Int.ofNat.inj (hvalue.symm.trans (Option.some.inj hdigits)))
  · cases hdigits

theorem toUIntC_number {n : Nat} (h : n < 2 ^ 32) : toUIntC (number n) = some (UInt32.ofNat n) := by
  have hplus : ¬ (number n).head? = some (unit '+') := head_number_ne (by decide) n
  have hbase : cDigits (number n) = digitsIn 10 (number n) := by
    match hnumber : number n with
    | [] => rfl
    | [c] => rfl
    | zero :: x :: digits =>
      rw [cDigits, if_neg]
      rintro rfl
      have hmap : (Nat.toDigits 10 n).map unit = unit '0' :: x :: digits := by
        rw [← Nat.toList_repr]
        exact hnumber
      obtain ⟨c, cs, hchars, hc, hcs⟩ := map_eq_cons_iff.mp hmap
      have hzero : c = '0' := by
        have hdigit : c.isDigit = true := Nat.isDigit_of_mem_toDigits (by decide) (by decide)
          (show c ∈ Nat.toDigits 10 n by rw [hchars]; exact mem_cons_self)
        have hnat := (Qt.unit_isDigit hdigit).1
        rw [hc] at hnat
        exact Char.toNat_inj.mp hnat.symm
      have hpos : 0 < n := by
        rcases Nat.eq_zero_or_pos n with rfl | hpos
        · have hcsnil : cs = [] := (List.cons.inj hchars).2.symm
          rw [hcsnil] at hcs
          cases hcs
        · exact hpos
      exact head_toDigits hpos (by rw [hchars, hzero]; rfl)
  unfold toUIntC toUnsigned
  simp only
  rw [trimmed_number, if_neg hplus, hbase, digitsIn_number, Option.filter_some,
    if_pos (decide_eq_true h)]
  rfl

end QString
end DeconzRest

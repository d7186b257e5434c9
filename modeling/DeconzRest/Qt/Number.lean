import DeconzRest.Qt.Text
import Mathlib.Algebra.Ring.Int.Defs
import Mathlib.Data.List.DropRight
import Mathlib.Algebra.Ring.Nat

/-!
# Decimal numbers in a text

`QString::arg` and `QString::number` of an integer are its decimal digits, and
`QString::toUInt` reads them back (`toUInt_number`).
-/

namespace DeconzRest

open List

namespace Qt

theorem unit_isDigit {c : Char} (hc : c.isDigit = true) :
    (QString.unit c).toNat = c.toNat ∧ 0x30 ≤ c.toNat ∧ c.toNat ≤ 0x39 := by
  rw [Char.isDigit, Bool.and_eq_true, decide_eq_true_eq, decide_eq_true_eq] at hc
  have hlow : 48 ≤ c.toNat := UInt32.le_iff_toNat_le.mp hc.1
  have hhigh : c.toNat ≤ 57 := UInt32.le_iff_toNat_le.mp hc.2
  exact ⟨UInt16.toNat_ofNat_of_lt' (by show _ < 65536; omega), hlow, hhigh⟩

theorem digits?_repr (m : Nat) : digits? (QString.ofLatin1 m.repr) = some (m : Int) := by
  have hfold : ∀ (cs : List Char), (∀ c ∈ cs, c.isDigit = true) → ∀ n : Nat,
      (cs.map QString.unit).foldl (fun (n : Int) c => 10 * n + (c.toNat - 0x30 : Nat)) n =
        (Nat.ofDigitChars 10 cs n : Nat) := by
    intro cs
    induction cs with
    | nil =>
      intro _ n
      rfl
    | cons c cs ih =>
      intro h n
      have hc := (unit_isDigit (h c mem_cons_self)).1
      have hzero : '0'.toNat = 0x30 := rfl
      rw [Nat.ofDigitChars_cons, ← ih fun x hx => h x (mem_cons_of_mem c hx), hzero, map_cons,
        foldl_cons, hc]
      push_cast
      rfl
  have hdigits : ∀ c ∈ Nat.toDigits 10 m, c.isDigit = true :=
    fun c hc => Nat.isDigit_of_mem_toDigits (by decide) (by decide) hc
  have hall : ((Nat.toDigits 10 m).map QString.unit).all (fun c => 0x30 ≤ c && c ≤ 0x39) = true := by
    rw [all_map, all_eq_true]
    intro c hc
    obtain ⟨hnat, hlow, hhigh⟩ := unit_isDigit (hdigits c hc)
    show (decide _ && decide _) = true
    rw [Bool.and_eq_true, decide_eq_true_eq, decide_eq_true_eq, UInt16.le_iff_toNat_le,
      UInt16.le_iff_toNat_le, hnat]
    exact ⟨hlow, hhigh⟩
  have hne : (Nat.toDigits 10 m).map QString.unit ≠ [] := by
    rw [ne_eq, map_eq_nil_iff]
    exact Nat.toDigits_ne_nil
  unfold digits? QString.ofLatin1
  rw [Nat.toList_repr, if_pos ⟨hne, hall⟩]
  have hvalue := hfold _ hdigits 0
  rw [Nat.ofDigitChars_ten_toDigits] at hvalue
  exact congrArg some hvalue

end Qt

namespace QString

theorem trimmed_of_not_space {s : QString} (h : ∀ c ∈ s, isSpace c = false) : trimmed s = s := by
  have hdrop : ∀ t : QString, (∀ c ∈ t, isSpace c = false) → t.dropWhile isSpace = t := by
    intro t ht
    cases t with
    | nil => rfl
    | cons c t => rw [dropWhile_cons, ht c mem_cons_self]; rfl
  unfold trimmed
  rw [hdrop s h, hdrop s.reverse fun c hc => h c (mem_reverse.mp hc), reverse_reverse]

theorem trimmed_trimmed (s : QString) : trimmed (trimmed s) = trimmed s := by
  have hfront : ∀ t : QString, t.dropWhile isSpace = t → trimmed t = t.rdropWhile isSpace := by
    intro t ht
    rw [trimmed, ht, List.rdropWhile]
  have hkept : (trimmed s).dropWhile isSpace = trimmed s := by
    obtain ⟨back, hback⟩ : trimmed s <+: s.dropWhile isSpace :=
      rdropWhile_prefix isSpace _
    cases htext : trimmed s with
    | nil => rfl
    | cons c t =>
      -- the first character is that behind the white space in front
      have hc : isSpace c = false := by
        have hhead := List.head?_dropWhile_not isSpace s
        rw [← hback, htext, cons_append, List.head?_cons] at hhead
        simpa using hhead
      rw [dropWhile_cons, hc]
      rfl
  rw [hfront _ hkept]
  exact rdropWhile_idempotent isSpace (s.dropWhile isSpace)

/-- `QString::toUInt(&ok)`; `none` when `ok` is false. -/
def toUInt (s : QString) : Option Nat :=
  let text := s.trimmed
  let digits := if text.head? = some (unit '+') then text.tail else text
  match Qt.digits? digits with
  | some n => if n < 2 ^ 32 then some n.toNat else none
  | none => none

/-- `QString::toInt(&ok)`; `none` when `ok` is false. -/
def toInt (s : QString) : Option Int :=
  let text := s.trimmed
  let negative := text.head? = some (unit '-')
  let digits := if negative ∨ text.head? = some (unit '+') then text.tail else text
  match Qt.digits? digits with
  | some n =>
    let value := if negative then -n else n
    if -2 ^ 31 ≤ value ∧ value < 2 ^ 31 then some value else none
  | none => none

/-- `QString::arg` of an integer with a width of two and `'0'` as the fill character -/
def numberTwo (n : Nat) : QString :=
  if n < 10 then unit '0' :: number n else number n

variable {n : Nat} {c : QChar}

theorem mem_number (h : c ∈ number n) : 0x30 ≤ c.toNat ∧ c.toNat ≤ 0x39 := by
  have hmem : c ∈ (Nat.toDigits 10 n).map unit := by
    rw [← Nat.toList_repr]
    exact h
  obtain ⟨d, hd, rfl⟩ := mem_map.mp hmem
  obtain ⟨hunit, hlow, hhigh⟩ :=
    Qt.unit_isDigit (Nat.isDigit_of_mem_toDigits (by decide) (by decide) hd)
  rw [hunit]
  exact ⟨hlow, hhigh⟩

theorem mem_numberTwo (h : c ∈ numberTwo n) : 0x30 ≤ c.toNat ∧ c.toNat ≤ 0x39 := by
  unfold numberTwo at h
  split at h
  · rcases mem_cons.mp h with rfl | h
    · decide
    · exact mem_number h
  · exact mem_number h

theorem mem_number_int {n : Int} (h : c ∈ number n) :
    c = unit '-' ∨ (0x30 ≤ c.toNat ∧ c.toNat ≤ 0x39) := by
  cases n with
  | ofNat m => exact .inr (mem_number h)
  | negSucc m =>
    have hmem : c ∈ ofLatin1 ("-" ++ (m + 1).repr) := h
    unfold ofLatin1 at hmem
    rw [String.toList_append, map_append] at hmem
    rcases mem_append.mp hmem with hmem | hmem
    · exact .inl (mem_singleton.mp hmem)
    · exact .inr (mem_number (n := m + 1) hmem)

theorem isSpace_of_digit (h : 0x30 ≤ c.toNat ∧ c.toNat ≤ 0x39) : isSpace c = false := by
  unfold isSpace
  simp
  omega

theorem number_ne_nil (n : Nat) : number n ≠ [] := by
  intro hnil
  have hmap : (Nat.toDigits 10 n).map unit = [] := by
    rw [← Nat.toList_repr]
    exact hnil
  exact Nat.toDigits_ne_nil (map_eq_nil_iff.mp hmap)

theorem trimmed_number (n : Nat) : trimmed (number n) = number n :=
  trimmed_of_not_space fun _ hc => isSpace_of_digit (mem_number hc)

theorem head_number_ne (hc : ¬ (0x30 ≤ c.toNat ∧ c.toNat ≤ 0x39)) (n : Nat) :
    (number n).head? ≠ some c := fun hhead => hc (mem_number (mem_of_head? hhead))

theorem toUInt_number (h : n < 2 ^ 32) : toUInt (number n) = some n := by
  have hsign : (number n).head? ≠ some (unit '+') := head_number_ne (by decide) n
  have hdigits : Qt.digits? (number n) = some (n : Int) := Qt.digits?_repr n
  unfold toUInt
  rw [trimmed_number]
  simp only [hsign, if_false, hdigits]
  rw [if_pos (by exact_mod_cast h)]
  rfl

theorem toInt_number (h : n < 2 ^ 31) : toInt (number n) = some (n : Int) := by
  have hplus : (number n).head? ≠ some (unit '+') := head_number_ne (by decide) n
  have hminus : (number n).head? ≠ some (unit '-') := head_number_ne (by decide) n
  have hdigits : Qt.digits? (number n) = some (n : Int) := Qt.digits?_repr n
  unfold toInt
  rw [trimmed_number]
  simp only [hplus, hminus, or_self, if_false, hdigits]
  exact if_pos ⟨by omega, by omega⟩

theorem number_negSucc (m : Nat) :
    number (Int.negSucc m) = unit '-' :: number ((m + 1 : Nat) : Int) := by
  show ofLatin1 ("-" ++ (m + 1).repr) = unit '-' :: ofLatin1 (m + 1).repr
  unfold ofLatin1
  rw [String.toList_append]
  rfl

theorem toInt_number_int {n : Int} (hlow : -2 ^ 31 ≤ n) (hhigh : n < 2 ^ 31) :
    toInt (number n) = some n := by
  cases n with
  | ofNat m =>
    have hlt : (m : Int) < 2 ^ 31 := hhigh
    exact toInt_number (by exact_mod_cast hlt)
  | negSucc m =>
    have hdigits : Qt.digits? (number ((m + 1 : Nat) : Int)) = some ((m + 1 : Nat) : Int) :=
      Qt.digits?_repr (m + 1)
    have htrimmed : trimmed (number (Int.negSucc m)) = number (Int.negSucc m) := by
      refine trimmed_of_not_space fun c hc => ?_
      rcases mem_number_int hc with rfl | hdigit
      · decide
      · exact isSpace_of_digit hdigit
    unfold toInt
    rw [htrimmed, number_negSucc]
    simp only [List.head?_cons, tail_cons, true_or, if_true, hdigits]
    rw [Int.negSucc_eq] at hlow ⊢
    exact if_pos ⟨by exact_mod_cast hlow, by omega⟩

end QString
end DeconzRest

import DeconzRest.Lib.Calendar
import DeconzRest.Qt.Repair
import DeconzRest.Qt.Time
import Mathlib.Algebra.Ring.Nat

/-!
# Texts of `QDateTime`

`QDateTime::toString` and `QDateTime::fromString` for the formats in which times are kept.  A text
is about the clock on the wall; which time that is depends on the time spec.
-/

namespace DeconzRest
namespace QDateTime

open Calendar QString List Option

inductive Format where
  /-- `yyyy-MM-ddTHH:mmZ` -/
  | minutesZ
  /-- `yyyy-MM-ddTHH:mm:ss` -/
  | seconds
  /-- `yyyy-MM-ddTHH:mm:ssZ` -/
  | secondsZ
  /-- `yyyy-MM-ddTHH:mm:ss.zzz` -/
  | milliseconds
deriving DecidableEq, Repr

def digits : Nat → Nat → QString
  | 0, _ => []
  | width + 1, n => UInt16.ofNat (0x30 + n / 10 ^ width % 10) :: digits width n

/-- What a format has behind the minutes -/
def fine (format : Format) (time : Nat) : QString :=
  match format with
  | .minutesZ => [unit 'Z']
  | .seconds => unit ':' :: digits 2 (time / 1000 % 60)
  | .secondsZ => unit ':' :: (digits 2 (time / 1000 % 60) ++ [unit 'Z'])
  | .milliseconds => unit ':' :: (digits 2 (time / 1000 % 60) ++ unit '.' :: digits 3 (time % 1000))

/-- `QDateTime::toString` of the clock on the wall -/
def toString (format : Format) (wall : Int) : QString :=
  let date := dateOfDay (wall / msecsPerDay)
  let time := (wall % msecsPerDay).toNat
  digits 4 date.year.toNat ++ unit '-' :: (digits 2 date.month.toNat ++ unit '-' ::
    (digits 2 date.day.toNat ++ unit 'T' :: (digits 2 (time / 3600000) ++ unit ':' ::
      (digits 2 (time / 60000 % 60) ++ fine format time))))

/-- A number of `width` digits in front of a text -/
def readDigits : Nat → Nat → QString → Option (Nat × QString)
  | 0, n, s => some (n, s)
  | _ + 1, _, [] => none
  | width + 1, n, c :: s =>
    match digitValue c with
    | none => none
    | some d => readDigits width (10 * n + d) s

def expect (c : Char) : QString → Option QString
  | [] => none
  | d :: s => if d = unit c then some s else none

def readFine (format : Format) (s : QString) : Option (Nat × Nat) :=
  match format with
  | .minutesZ => if s = [unit 'Z'] then some (0, 0) else none
  | .seconds => do
      let s ← expect ':' s
      let (second, s) ← readDigits 2 0 s
      if s = [] then some (second, 0) else none
  | .secondsZ => do
      let s ← expect ':' s
      let (second, s) ← readDigits 2 0 s
      if s = [unit 'Z'] then some (second, 0) else none
  | .milliseconds => do
      let s ← expect ':' s
      let (second, s) ← readDigits 2 0 s
      let s ← expect '.' s
      let (ms, s) ← readDigits 3 0 s
      if s = [] then some (second, ms) else none

def ofParts (year month day hour minute second ms : Nat) : Option Int :=
  let date : Date := ⟨year, month, day⟩
  if dateOfDay (dayOfDate date) = date ∧ hour < 24 ∧ minute < 60 ∧ second < 60 then
    some (dayOfDate date * msecsPerDay + (((hour * 60 + minute) * 60 + second) * 1000 + ms : Nat))
  else none

/-- `QDateTime::fromString`: the clock on the wall, if it is valid -/
def fromString (format : Format) (s : QString) : Option Int := do
  let (year, s) ← readDigits 4 0 s
  let s ← expect '-' s
  let (month, s) ← readDigits 2 0 s
  let s ← expect '-' s
  let (day, s) ← readDigits 2 0 s
  let s ← expect 'T' s
  let (hour, s) ← readDigits 2 0 s
  let s ← expect ':' s
  let (minute, s) ← readDigits 2 0 s
  let (second, ms) ← readFine format s
  ofParts year month day hour minute second ms

/-! ## Round trip -/

theorem digitValue_ofNat {d : Nat} (h : d < 10) :
    digitValue (UInt16.ofNat (0x30 + d)) = some d := by
  have hvalue : (UInt16.ofNat (0x30 + d)).toNat = 0x30 + d := by
    rw [UInt16.toNat_ofNat']
    omega
  unfold digitValue
  rw [hvalue, if_pos ⟨by omega, by omega⟩, Nat.add_sub_cancel_left]

theorem readDigits_digits (width n front : Nat) (s : QString) :
    readDigits width front (digits width n ++ s) = some (10 ^ width * front + n % 10 ^ width, s) := by
  induction width generalizing front with
  | zero => rw [digits, nil_append, readDigits, Nat.pow_zero, Nat.one_mul, Nat.mod_one,
      Nat.add_zero]
  | succ width ih =>
    have hsplit : 10 ^ width * (10 * front + n / 10 ^ width % 10) + n % 10 ^ width =
        10 ^ (width + 1) * front + n % 10 ^ (width + 1) := by
      rw [Nat.mod_pow_succ, Nat.mul_add, Nat.pow_succ, Nat.mul_assoc]
      omega
    rw [digits, cons_append, readDigits, digitValue_ofNat (Nat.mod_lt _ (by decide))]
    simp only
    rw [ih, hsplit]

variable {width n : Nat}

theorem readDigits_of_lt (h : n < 10 ^ width) (s : QString) :
    readDigits width 0 (digits width n ++ s) = some (n, s) := by
  rw [readDigits_digits, Nat.mul_zero, Nat.zero_add, Nat.mod_eq_of_lt h]

theorem readDigits_last (h : n < 10 ^ width) :
    readDigits width 0 (digits width n) = some (n, []) := by
  have hread := readDigits_of_lt h []
  rwa [append_nil] at hread

theorem expect_cons (c : Char) (s : QString) : expect c (unit c :: s) = some s := if_pos rfl

theorem length_digits (width n : Nat) : (digits width n).length = width := by
  induction width with
  | zero => rfl
  | succ width ih => rw [digits, length_cons, ih]

/-- The milliseconds that a format tells apart -/
def resolution : Format → Int
  | .minutesZ => 60000
  | .seconds | .secondsZ => 1000
  | .milliseconds => 1

def cut (format : Format) (wall : Int) : Int := wall - wall % resolution format

variable (format : Format)

theorem readFine_fine (time : Nat) :
    ∃ second ms, readFine format (fine format time) = some (second, ms) ∧ second < 60 ∧
      ((second * 1000 + ms : Nat) : Int) = cut format (time % 60000 : Nat) := by
  cases format with
  | minutesZ =>
    refine ⟨0, 0, ?_, by omega, ?_⟩
    · unfold readFine fine
      exact if_pos rfl
    · rw [cut, resolution]
      omega
  | seconds =>
    refine ⟨time / 1000 % 60, 0, ?_, by omega, ?_⟩
    · unfold readFine fine
      simp only [bind_eq_bind, expect_cons, bind_some]
      rw [readDigits_last (by omega), bind_some]
      exact if_pos rfl
    · rw [cut, resolution]
      omega
  | secondsZ =>
    refine ⟨time / 1000 % 60, 0, ?_, by omega, ?_⟩
    · unfold readFine fine
      simp only [bind_eq_bind, expect_cons, bind_some]
      rw [readDigits_of_lt (by omega), bind_some]
      exact if_pos rfl
    · rw [cut, resolution]
      omega
  | milliseconds =>
    refine ⟨time / 1000 % 60, time % 1000, ?_, by omega, ?_⟩
    · unfold readFine fine
      simp only [bind_eq_bind, expect_cons, bind_some]
      rw [readDigits_of_lt (by omega), bind_some]
      simp only [expect_cons, bind_some]
      rw [readDigits_last (by omega), bind_some]
      exact if_pos rfl
    · rw [cut, resolution]
      omega

def InRange (wall : Int) : Prop := -719162 ≤ wall / 86400000 ∧ wall / 86400000 < 2932897

variable {wall : Int}

theorem ofParts_wall (h : InRange wall) {second ms : Nat} (hsecond : second < 60) :
    ofParts (dateOfDay (wall / msecsPerDay)).year.toNat (dateOfDay (wall / msecsPerDay)).month.toNat
      (dateOfDay (wall / msecsPerDay)).day.toNat ((wall % msecsPerDay).toNat / 3600000)
      ((wall % msecsPerDay).toNat / 60000 % 60) second ms =
    some (wall - wall % 60000 + (second * 1000 + ms : Nat)) := by
  obtain ⟨⟨hyear, -⟩, ⟨hmonth, -⟩, hday, -⟩ := dateOfDay_range h.1 h.2
  unfold ofParts msecsPerDay
  have hdate : (⟨(dateOfDay (wall / 86400000)).year.toNat,
      (dateOfDay (wall / 86400000)).month.toNat,
      (dateOfDay (wall / 86400000)).day.toNat⟩ : Date) = dateOfDay (wall / 86400000) := by
    rw [Int.toNat_of_nonneg hyear, Int.toNat_of_nonneg (by omega), Int.toNat_of_nonneg (by omega)]
  simp only
  rw [hdate, dayOfDate_dateOfDay, if_pos ⟨rfl, by omega, by omega, hsecond⟩]
  congr 1
  omega

/-- **What is written is read**, as far as it is written. -/
theorem fromString_toString (h : InRange wall) :
    fromString format (toString format wall) = some (cut format wall) := by
  obtain ⟨⟨hyear, hyear'⟩, ⟨hmonth, hmonth'⟩, hday, hday'⟩ := dateOfDay_range h.1 h.2
  obtain ⟨second, ms, hfine, hsecond, hcut⟩ := readFine_fine format (wall % msecsPerDay).toNat
  have hparts := @ofParts_wall wall h second ms hsecond
  have hsum : wall - wall % 60000 + ((second * 1000 + ms : Nat) : Int) = cut format wall := by
    rw [hcut]
    unfold msecsPerDay
    cases format with
    | minutesZ | seconds | secondsZ | milliseconds =>
      rw [cut, cut, resolution]
      omega
  unfold fromString toString
  unfold msecsPerDay at hfine hparts ⊢
  simp only [bind_eq_bind]
  rw [readDigits_of_lt (by omega), bind_some]
  simp only [expect_cons, bind_some]
  rw [readDigits_of_lt (by omega), bind_some]
  simp only [expect_cons, bind_some]
  rw [readDigits_of_lt (by omega), bind_some]
  simp only [expect_cons, bind_some]
  rw [readDigits_of_lt (by omega), bind_some]
  simp only [expect_cons, bind_some]
  rw [readDigits_of_lt (by omega), bind_some]
  simp only
  rw [hfine, bind_some, hparts, hsum]

/-! ## The characters of a text -/

theorem mem_digits {c : QChar} (h : c ∈ digits width n) : 0x30 ≤ c.toNat ∧ c.toNat ≤ 0x39 := by
  induction width with
  | zero => cases h
  | succ width ih =>
    rw [digits, mem_cons] at h
    rcases h with rfl | h
    · rw [UInt16.toNat_ofNat']
      omega
    · exact ih h

def separators : QString := ofLatin1 "-T:."

theorem mem_toString {format : Format} {c : QChar} (h : c ∈ toString format wall) :
    (0x30 ≤ c.toNat ∧ c.toNat ≤ 0x39) ∨ c ∈ separators ∨
      (c = unit 'Z' ∧ (format = .minutesZ ∨ format = .secondsZ)) := by
  have hseparator : ∀ d : Char, unit d ∈ separators → c = unit d → c ∈ separators := by
    rintro d hd rfl
    exact hd
  have hfine : ∀ time, c ∈ fine format time → (0x30 ≤ c.toNat ∧ c.toNat ≤ 0x39) ∨ c ∈ separators ∨
      (c = unit 'Z' ∧ (format = .minutesZ ∨ format = .secondsZ)) := by
    intro time hc
    cases format with
    | minutesZ => exact .inr (.inr ⟨mem_singleton.mp hc, .inl rfl⟩)
    | seconds =>
      rcases mem_cons.mp hc with hc | hc
      · exact .inr (.inl (hseparator ':' (by decide) hc))
      · exact .inl (mem_digits hc)
    | secondsZ =>
      rcases mem_cons.mp hc with hc | hc
      · exact .inr (.inl (hseparator ':' (by decide) hc))
      · rcases mem_append.mp hc with hc | hc
        · exact .inl (mem_digits hc)
        · exact .inr (.inr ⟨mem_singleton.mp hc, .inr rfl⟩)
    | milliseconds =>
      rcases mem_cons.mp hc with hc | hc
      · exact .inr (.inl (hseparator ':' (by decide) hc))
      · rcases mem_append.mp hc with hc | hc
        · exact .inl (mem_digits hc)
        · rcases mem_cons.mp hc with hc | hc
          · exact .inr (.inl (hseparator '.' (by decide) hc))
          · exact .inl (mem_digits hc)
  unfold toString at h
  simp only [mem_append, mem_cons] at h
  rcases h with h | h | h | h | h | h | h | h | h | h
  · exact .inl (mem_digits h)
  · exact .inr (.inl (hseparator '-' (by decide) h))
  · exact .inl (mem_digits h)
  · exact .inr (.inl (hseparator '-' (by decide) h))
  · exact .inl (mem_digits h)
  · exact .inr (.inl (hseparator 'T' (by decide) h))
  · exact .inl (mem_digits h)
  · exact .inr (.inl (hseparator ':' (by decide) h))
  · exact .inl (mem_digits h)
  · exact hfine _ h

theorem wellFormed_toString (wall : Int) : QString.WellFormed (toString format wall) := by
  apply wellFormed_of_ascii
  intro c hc
  have hsmall : separators.all (fun d => d.toNat < 0x80) = true := by decide
  rcases mem_toString hc with hdigit | hseparator | ⟨rfl, -⟩
  · omega
  · exact of_decide_eq_true (all_eq_true.mp hsmall c hseparator)
  · decide

theorem length_toString (wall : Int) :
    (toString format wall).length = 16 + (fine format (wall % msecsPerDay).toNat).length := by
  unfold toString
  simp only [List.length_append, length_cons, length_digits]
  omega

theorem length_seconds (wall : Int) : (toString .seconds wall).length = 19 := by
  rw [length_toString, fine, length_cons, length_digits]

theorem length_milliseconds (wall : Int) : (toString .milliseconds wall).length = 23 := by
  rw [length_toString, fine, length_cons, List.length_append, length_cons, length_digits,
    length_digits]

theorem toString_ne_nil (wall : Int) : toString format wall ≠ [] := by
  intro hnil
  have hlength := length_toString format wall
  rw [hnil, length_nil] at hlength
  omega

theorem endsWith_toString {format : Format} (hz : format = .seconds ∨ format = .milliseconds)
    (wall : Int) : endsWith (toString format wall) [unit 'Z'] = false := by
  rw [Bool.eq_false_iff]
  intro hend
  obtain ⟨front, htext⟩ := endsWith_iff.mp hend
  have hmem : unit 'Z' ∈ toString format wall := by
    rw [← htext]
    exact mem_append_right front mem_cons_self
  rcases mem_toString hmem with hdigit | hseparator | ⟨-, rfl | rfl⟩
  · exact absurd hdigit (by decide)
  · exact absurd hseparator (by decide)
  · rcases hz with h | h <;> cases h
  · rcases hz with h | h <;> cases h

end QDateTime
end DeconzRest

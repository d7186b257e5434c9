import Mathlib.Algebra.Order.Ring.Rat
import Mathlib.Algebra.Ring.Nat

/-!
# Numbers of the binary64 format

A `double` is a rational, one of two infinities or no number at all, and the comparisons with the
last one fail.  An integer is rounded to 53 binary digits, to the even one of two that are equally
near; up to `2 ^ 53` nothing is lost (`ofInt_eq`).
-/

namespace DeconzRest

inductive Binary64 where
  | finite (q : Rat)
  | infinity (negative : Bool)
  | nan
deriving DecidableEq, Repr

namespace Binary64

/-- `a < b` -/
def lt : Binary64 → Binary64 → Bool
  | .finite p, .finite q => decide (p < q)
  | .infinity true, .finite _ => true
  | .infinity true, .infinity false => true
  | .finite _, .infinity false => true
  | _, _ => false

/-- `a == b` -/
def eqv : Binary64 → Binary64 → Bool
  | .finite p, .finite q => decide (p = q)
  | .infinity a, .infinity b => a == b
  | _, _ => false

/-- `a <= b` -/
def le (a b : Binary64) : Bool := a.lt b || a.eqv b

def zero : Binary64 := .finite 0

def roundNat (n : Nat) : Nat :=
  if n < 2 ^ 53 then n
  else
    let place := 2 ^ (n.log2 - 52)
    let digits := n / place
    let rest := n % place
    (if place < 2 * rest ∨ (2 * rest = place ∧ digits % 2 = 1) then digits + 1 else digits) * place

/-- The conversion of an integer to a `double` -/
def ofInt (n : Int) : Binary64 := .finite (n.sign * roundNat n.natAbs : Int)

theorem ofInt_eq {n : Int} (h : n.natAbs < 2 ^ 53) : ofInt n = .finite n := by
  rw [ofInt, roundNat, if_pos h, Int.sign_mul_natAbs]

theorem le_of_not_lt {a b : Binary64} (ha : a ≠ .nan) (hb : b ≠ .nan) (h : b.lt a = false) :
    a.le b = true := by
  cases a with
  | nan => exact absurd rfl ha
  | finite p =>
    cases b with
    | nan => exact absurd rfl hb
    | finite q =>
      have hle : p ≤ q := not_lt.mp (of_decide_eq_false h)
      rw [le, Bool.or_eq_true]
      rcases lt_or_eq_of_le hle with hlt | heq
      · exact .inl (decide_eq_true hlt)
      · exact .inr (decide_eq_true heq)
    | infinity negative =>
      cases negative with
      | true => cases h
      | false => rfl
  | infinity first =>
    cases b with
    | nan => exact absurd rfl hb
    | finite q =>
      cases first with
      | true => rfl
      | false => cases h
    | infinity second =>
      cases first with
      | true => cases second <;> rfl
      | false =>
        cases second with
        | true => cases h
        | false => rfl

theorem le_nan (a : Binary64) : a.le .nan = false := by
  cases a with
  | finite q => rfl
  | infinity negative => cases negative <;> rfl
  | nan => rfl

end Binary64
end DeconzRest

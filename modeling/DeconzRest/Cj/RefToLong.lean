import DeconzRest.Cj.Access
import Mathlib.Data.List.Induction
import Mathlib.Data.Int.ModEq

/-!
# Integers of a parsed text

`cj_parse_long` reads decimal digits with unsigned arithmetic modulo `2 ^ 64`, and takes a partial
result that is below the one before for an overflow.  A partial result can also wrap around to a
number that is not below the one before, so an integer out of range is refused exactly where some
partial result does fall, or the last one is out of range (`ref_to_long_exact_iff`).

`long` has 64 bits, and negating its least value leaves it as it is.
-/

namespace DeconzRest
namespace Cj

open List

/-- The modulus of `unsigned long` -/
def ulong : Nat := 2 ^ 64

/-- `max`: the greatest `long` -/
def maxLong : Nat := 2 ^ 63 - 1

def digit (c : UInt8) : Nat := c.toNat - 0x30

/-- The local variables of `cj_parse_long` -/
structure LongState where
  i : Nat
  e : Nat := 0
  result : Nat := 0
deriving DecidableEq, Repr

/-- One turn of the loop of `cj_parse_long` -/
def longStep (s : LongState) (c : UInt8) : LongState :=
  let next := (s.result * 10 + digit c) % ulong
  { i := s.i + 1
    e := s.e ||| (if next < s.result then 2 else 0)
    result := next }

/-- The loop of `cj_parse_long`, which ends at the first octet that is no digit -/
def longLoop : List UInt8 → LongState → LongState
  | [], s => s
  | c :: rest, s => if isDigit c then longLoop rest (longStep s c) else s

/-- `(long)result` -/
def toLong (result : Nat) : Int := if result ≤ maxLong then result else (result : Int) - ulong

/-- The value, the position of the first octet behind the number, and the error bits -/
structure ParsedLong where
  value : Int
  endp : Nat
  err : Nat
deriving DecidableEq, Repr

/-- `cj_parse_long` behind its loop -/
def finishLong (negative : Bool) (s : LongState) : ParsedLong :=
  let e := s.e ||| (if (s.i = 1 ∧ negative = true) ∨ s.i = 0 then 1 else 0)
  let range :=
    if maxLong < s.result then
      if negative = false then 2 else if maxLong + 1 < s.result then 4 else 0
    else 0
  { value :=
      if negative = false then toLong s.result
      else if toLong s.result = -(maxLong : Int) - 1 then toLong s.result
      else -toLong s.result
    endp := s.i
    err := e ||| range }

/-- `cj_parse_long` -/
def parseLong : List UInt8 → ParsedLong
  | [] => { value := 0, endp := 0, err := 1 }
  | c :: rest =>
    if c = 0x2D then finishLong true (longLoop rest { i := 1 })
    else finishLong false (longLoop (c :: rest) { i := 0 })

/-- `cj_ref_to_long`: the return value, and what is written to `result` -/
def refToLong (ctx : Ctx) (ref : Nat) : Nat × Option Int :=
  match ctx.tokens[ref]? with
  | none => (0, none)
  | some tok =>
    if tok.type ≠ .primitive ∨ tok.len = 0 then (0, none)
    else
      let conv := parseLong (slice ctx tok)
      if conv.err ≠ 0 then (0, some conv.err)
      else if conv.endp = tok.len then (1, some conv.value)
      else (0, none)

def digitsValue (digits : List UInt8) : Nat := digits.foldl (fun n c => n * 10 + digit c) 0

/-- A primitive token that is an optional minus sign and digits -/
structure IsLiteral (ctx : Ctx) (ref : Nat) (negative : Bool) (digits : List UInt8) : Prop where
  token : ∃ tok, ctx.tokens[ref]? = some tok ∧ tok.type = .primitive ∧ slice ctx tok =
    (if negative then [0x2D] else []) ++ digits ∧
    tok.len = (slice ctx tok).length
  nonempty : digits ≠ []
  digits : ∀ c ∈ digits, isDigit c = true

def literalValue (negative : Bool) (digits : List UInt8) : Int :=
  if negative then -(digitsValue digits : Int) else digitsValue digits

/-- The range of `long` -/
def InRange (n : Int) : Prop := -2 ^ 63 ≤ n ∧ n < 2 ^ 63

/-- A literal in range is converted to its integer, any other is refused. -/
def Exact (ctx : Ctx) (ref : Nat) (negative : Bool) (digits : List UInt8) : Prop :=
  (InRange (literalValue negative digits) → refToLong ctx ref =
      (1, some (literalValue negative digits))) ∧
    (¬ InRange (literalValue negative digits) → (refToLong ctx ref).1 = 0)

/-- The value of the first `k` digits modulo `2 ^ 64` -/
def residue (digits : List UInt8) (k : Nat) : Nat := digitsValue (digits.take k) % ulong

/-- The greatest absolute value of a literal in range -/
def bound (negative : Bool) : Nat := if negative then maxLong + 1 else maxLong

/-- Some residue falls below the one before, or the last one is out of range. -/
def Noticed (negative : Bool) (digits : List UInt8) : Prop :=
  (∃ k, k < digits.length ∧ residue digits (k + 1) < residue digits k) ∨ bound negative <
    residue digits digits.length

/-! ## The loop -/

theorem longLoop_eq_foldl {digits : List UInt8} (h : ∀ c ∈ digits, isDigit c = true)
    (s : LongState) : longLoop digits s = digits.foldl longStep s := by
  induction digits generalizing s with
  | nil => rfl
  | cons c digits ih =>
    rw [longLoop, if_pos (h c mem_cons_self), foldl_cons]
    exact ih (fun c hc => h c (mem_cons_of_mem _ hc)) _

theorem digitsValue_append (digits : List UInt8) (c : UInt8) :
    digitsValue (digits ++ [c]) = digitsValue digits * 10 + digit c := by
  unfold digitsValue
  rw [foldl_append]
  rfl

theorem residue_append {digits : List UInt8} {k : Nat} (hk : k ≤ digits.length) (c : UInt8) :
    residue (digits ++ [c]) k = residue digits k := by
  unfold residue
  rw [take_append_of_le_length hk]

theorem residue_length_append (digits : List UInt8) (c : UInt8) :
    residue (digits ++ [c]) (digits.length + 1) =
      (residue digits digits.length * 10 + digit c) % ulong := by
  unfold residue
  rw [take_of_length_le (by simp), take_length, digitsValue_append]
  exact (((Nat.mod_modEq _ _).mul_right 10).add_right _).symm

theorem foldl_longStep (digits : List UInt8) (i : Nat) :
    let s := digits.foldl longStep { i := i }
    s.i = i + digits.length ∧ s.result = residue digits digits.length ∧ (s.e = 0 ∨ s.e = 2) ∧
      (s.e = 2 ↔ ∃ k, k < digits.length ∧ residue digits (k + 1) < residue digits k) := by
  induction digits using List.reverseRecOn with
  | nil => simp [residue, digitsValue]
  | append_singleton digits c ih =>
    obtain ⟨hi, hresult, he, hiff⟩ := ih
    rw [foldl_append, foldl_cons, foldl_nil, List.length_append, length_singleton]
    set s := digits.foldl longStep { i := i }
    have hnext : (s.result * 10 + digit c) % ulong =
        residue (digits ++ [c]) (digits.length + 1) := by
      rw [residue_length_append, hresult]
    have hlast : residue (digits ++ [c]) digits.length = s.result := by
      rw [residue_append (Nat.le_refl _), hresult]
    have hsome : (∃ k, k < digits.length + 1 ∧ residue (digits ++ [c]) (k + 1) <
        residue (digits ++ [c]) k) ↔
        s.e = 2 ∨ residue (digits ++ [c]) (digits.length + 1) < s.result := by
      rw [hiff]
      constructor
      · rintro ⟨k, hk, hfalls⟩
        rcases Nat.lt_succ_iff_lt_or_eq.mp hk with hlt | rfl
        · rw [residue_append hlt, residue_append (Nat.le_of_lt hlt)] at hfalls
          exact .inl ⟨k, hlt, hfalls⟩
        · rw [hlast] at hfalls
          exact .inr hfalls
      · rintro (⟨k, hk, hfalls⟩ | hfalls)
        · refine ⟨k, Nat.lt_succ_of_lt hk, ?_⟩
          rw [residue_append hk, residue_append (Nat.le_of_lt hk)]
          exact hfalls
        · exact ⟨digits.length, Nat.lt_succ_self _, by rw [hlast]; exact hfalls⟩
    rw [hsome]
    unfold longStep
    rw [hnext]
    refine ⟨by simp only; omega, rfl, ?_, ?_⟩
    · simp only
      split <;> rcases he with he | he <;> rw [he] <;> decide
    · simp only
      split
      · rename_i hfalls
        refine ⟨fun _ => .inr hfalls, fun _ => ?_⟩
        rcases he with he | he <;> rw [he] <;> decide
      · rename_i hfalls
        rw [Nat.or_zero]
        exact ⟨.inl, fun h => h.resolve_right hfalls⟩

theorem digitsValue_take_succ {digits : List UInt8} {k : Nat} (hk : k < digits.length) :
    digitsValue (digits.take (k + 1)) = digitsValue (digits.take k) * 10 + digit digits[k] := by
  rw [take_succ_eq_append_getElem hk, digitsValue_append]

theorem digitsValue_take_le (digits : List UInt8) (k : Nat) :
    digitsValue (digits.take k) ≤ digitsValue digits := by
  have hmono : Monotone fun k => digitsValue (digits.take k) := by
    refine monotone_nat_of_le_succ fun k => ?_
    by_cases hk : k < digits.length
    · rw [digitsValue_take_succ hk]
      omega
    · rw [take_of_length_le (Nat.not_lt.mp hk), take_of_length_le (by omega)]
  have hle : k ≤ max k digits.length := Nat.le_max_left _ _
  have hall := hmono hle
  simp only at hall
  rwa [take_of_length_le (Nat.le_max_right _ _)] at hall

theorem residue_of_lt {digits : List UInt8} (h : digitsValue digits < ulong) (k : Nat) :
    residue digits k = digitsValue (digits.take k) :=
  Nat.mod_eq_of_lt (Nat.lt_of_le_of_lt (digitsValue_take_le digits k) h)

theorem bound_lt (negative : Bool) : bound negative < ulong := by
  cases negative <;> decide

theorem inRange_iff (negative : Bool) (digits : List UInt8) :
    InRange (literalValue negative digits) ↔ digitsValue digits ≤ bound negative := by
  unfold InRange literalValue bound maxLong
  cases negative with
  | false =>
    simp only [Bool.false_eq_true, if_false]
    omega
  | true =>
    simp only [if_true]
    omega

theorem not_noticed_of_inRange {negative : Bool} {digits : List UInt8}
    (h : digitsValue digits ≤ bound negative) : ¬ Noticed negative digits := by
  have hlt := Nat.lt_of_le_of_lt h (bound_lt negative)
  have hlast : residue digits digits.length = digitsValue digits := by
    rw [residue_of_lt hlt, take_length]
  rintro (⟨k, hk, hfalls⟩ | hlarge)
  · rw [residue_of_lt hlt, residue_of_lt hlt, digitsValue_take_succ hk] at hfalls
    omega
  · omega

/-! ## The conversion -/

def literalText (negative : Bool) (digits : List UInt8) : List UInt8 :=
  (if negative then [0x2D] else []) ++ digits

theorem parseLong_literal {negative : Bool} {digits : List UInt8} (hne : digits ≠ [])
    (hdigits : ∀ c ∈ digits, isDigit c = true) :
    parseLong (literalText negative digits) =
      finishLong negative (digits.foldl longStep { i := if negative then 1 else 0 }) := by
  cases negative with
  | true =>
    have htext : literalText true digits = 0x2D :: digits := rfl
    rw [htext, parseLong, if_pos rfl, longLoop_eq_foldl hdigits]
    rfl
  | false =>
    obtain ⟨c, rest, rfl⟩ := exists_cons_of_ne_nil hne
    have hc : c ≠ 0x2D := by
      rintro rfl
      exact absurd (hdigits 0x2D mem_cons_self) (by decide)
    have htext : literalText false (c :: rest) = c :: rest := rfl
    rw [htext, parseLong, if_neg hc, longLoop_eq_foldl hdigits]
    rfl

/-- What `cj_parse_long` makes of a literal: its end, whether an error is noticed, and the number
where none is. -/
theorem parseLong_spec {negative : Bool} {digits : List UInt8} (hne : digits ≠ [])
    (hdigits : ∀ c ∈ digits, isDigit c = true) :
    let p := parseLong (literalText negative digits)
    p.endp = (literalText negative digits).length ∧ (p.err ≠ 0 ↔ Noticed negative digits) ∧
      (p.err = 0 → p.value = if negative then -(residue digits digits.length : Int)
        else residue digits digits.length) := by
  have hspec := foldl_longStep digits (if negative then 1 else 0)
  rw [parseLong_literal hne hdigits]
  set s := digits.foldl longStep { i := if negative then 1 else 0 }
  obtain ⟨hi, hresult, he, hiff⟩ := hspec
  have hpos := length_pos_iff.mpr hne
  have hlength : s.i = (literalText negative digits).length := by
    rw [hi, literalText, List.length_append]
    cases negative <;> rfl
  have hempty : ¬ ((s.i = 1 ∧ negative = true) ∨ s.i = 0) := by
    cases negative with
    | false =>
      rintro (⟨-, hfalse⟩ | hzero)
      · cases hfalse
      · omega
    | true =>
      have hone : s.i = 1 + digits.length := hi
      omega
  have hrange : (if maxLong < s.result then
      if negative = false then 2 else if maxLong + 1 < s.result then 4 else 0
      else 0 : Nat) ≠ 0 ↔ bound negative < residue digits digits.length := by
    rw [← hresult]
    cases negative with
    | false =>
      rw [if_pos rfl]
      unfold bound
      simp
    | true =>
      unfold bound
      simp only [Bool.true_eq_false, if_false, if_true]
      split_ifs <;> omega
  have herr : (finishLong negative s).err ≠ 0 ↔ Noticed negative digits := by
    unfold Noticed
    rw [← hiff, ← hrange]
    unfold finishLong
    simp only
    rw [if_neg hempty, Nat.or_zero]
    rw [ne_eq, Nat.or_eq_zero_iff, not_and_or]
    rcases he with he | he <;> rw [he] <;> simp
  refine ⟨hlength, herr, ?_⟩
  intro hzero
  have hle : s.result ≤ bound negative := by
    by_contra hlarge
    refine herr.mpr (.inr ?_) hzero
    rw [← hresult]
    exact Nat.not_le.mp hlarge
  rw [← hresult]
  show (if negative = false then toLong s.result
    else if toLong s.result = -(maxLong : Int) - 1 then toLong s.result
    else -toLong s.result) = _
  unfold toLong
  unfold bound at hle
  unfold maxLong ulong at *
  cases negative with
  | false =>
    simp only [Bool.false_eq_true, if_false, if_true] at hle ⊢
    rw [if_pos hle]
  | true =>
    simp only [Bool.true_eq_false, if_false, if_true] at hle ⊢
    split_ifs <;> omega

theorem refToLong_literal {ctx : Ctx} {ref : Nat} {negative : Bool} {digits : List UInt8}
    (h : IsLiteral ctx ref negative digits) :
    (Noticed negative digits → (refToLong ctx ref).1 = 0) ∧
      (¬ Noticed negative digits → refToLong ctx ref =
        (1, some (if negative then -(residue digits digits.length : Int)
          else residue digits digits.length))) := by
  obtain ⟨tok, htok, htype, htext, hlen⟩ := h.token
  obtain ⟨hend, herr, hvalue⟩ := @parseLong_spec negative digits h.nonempty h.digits
  have hslice : slice ctx tok = literalText negative digits := htext
  have hpos := length_pos_iff.mpr h.nonempty
  have hnonzero : tok.len ≠ 0 := by
    rw [hlen, hslice, literalText, List.length_append]
    omega
  have hproper : ¬ (tok.type ≠ .primitive ∨ tok.len = 0) := by
    rintro (hother | hzero)
    · exact hother htype
    · exact hnonzero hzero
  unfold refToLong
  rw [htok]
  simp only
  rw [if_neg hproper, hslice]
  constructor
  · intro hnoticed
    rw [if_pos (herr.mpr hnoticed)]
  · intro hnot
    have hzero : (parseLong (literalText negative digits)).err = 0 := by
      by_contra hne
      exact hnot (herr.mp hne)
    rw [if_neg (not_not.mpr hzero), if_pos (by rw [hend, hlen, hslice]), hvalue hzero]

/-- **`cj_ref_to_long` is exact** for the literals in range, and for a literal out of range where
some partial result modulo `2 ^ 64` falls below the one before or the last one is out of range. -/
theorem ref_to_long_exact_iff (ctx : Ctx) (ref : Nat) (negative : Bool) (digits : List UInt8)
    (h : IsLiteral ctx ref negative digits) :
    Exact ctx ref negative digits ↔ InRange (literalValue negative digits) ∨
      Noticed negative digits := by
  obtain ⟨hnoticed, hnot⟩ := refToLong_literal h
  constructor
  · rintro ⟨-, hrefused⟩
    by_cases hrange : InRange (literalValue negative digits)
    · exact .inl hrange
    · refine .inr ?_
      by_contra hunnoticed
      have hzero := hrefused hrange
      rw [hnot hunnoticed] at hzero
      exact Nat.one_ne_zero hzero
  · intro hcond
    refine ⟨fun hrange => ?_, fun hout => hnoticed (hcond.resolve_left hout)⟩
    have hle := (inRange_iff negative digits).mp hrange
    rw [hnot (not_noticed_of_inRange hle),
      residue_of_lt (Nat.lt_of_le_of_lt hle (bound_lt negative)), take_length]
    rfl

def numberCtx (text : List UInt8) : Ctx where
  buf := text
  pos := text.length
  size := text.length
  tokens := [{ type := .primitive, len := text.length }]
  tokensSize := 8

theorem ref_to_long_exact_iff_small :
    IsLiteral (numberCtx [0x2D, 0x34, 0x32]) 0 true [0x34, 0x32] ∧
      (Exact (numberCtx [0x2D, 0x34, 0x32]) 0 true [0x34, 0x32] ↔
        InRange (literalValue true [0x34, 0x32]) ∨ Noticed true [0x34, 0x32]) := by
  have hliteral : IsLiteral (numberCtx [0x2D, 0x34, 0x32]) 0 true [0x34, 0x32] :=
    ⟨⟨_, rfl, rfl, by decide, by decide⟩, by decide, by decide +kernel⟩
  exact ⟨hliteral, ref_to_long_exact_iff _ _ _ _ hliteral⟩

def wrapping : List UInt8 := 0x32 :: 0x32 :: List.replicate 18 0x30

/-- A literal that wraps around to a number above a tenth of it is converted to that number. -/
theorem out_of_range_converted :
    Parsed wrapping 8 (numberCtx wrapping) ∧ refToLong (numberCtx wrapping) 0 =
      (1, some 3553255926290448384) ∧
      IsLiteral (numberCtx wrapping) 0 false wrapping ∧
      ¬ Exact (numberCtx wrapping) 0 false wrapping := by
  have hconverted : refToLong (numberCtx wrapping) 0 = (1, some 3553255926290448384) := by decide
  refine ⟨by decide, hconverted,
    ⟨⟨_, rfl, rfl, by decide, by decide⟩, by decide, by decide +kernel⟩, ?_⟩
  rintro ⟨-, hrefused⟩
  have hout : ¬ InRange (literalValue false wrapping) := by
    rw [inRange_iff]
    decide
  rw [hconverted] at hrefused
  exact Nat.one_ne_zero (hrefused hout)

end Cj
end DeconzRest

import Mathlib.Data.List.Infix

/-!
# The first occurrence of a text in another one
-/

namespace DeconzRest

open List

variable {α : Type*} [DecidableEq α] {text pattern : List α} {i : Nat}

/-- Where `pattern` is found first in `text` -/
def findFirst (text pattern : List α) : Option Nat :=
  text.tails.findIdx? fun rest => pattern.isPrefixOf rest

theorem findFirst_eq_some_iff : findFirst text pattern = some i ↔ i ≤ text.length ∧
    pattern <+: text.drop i ∧ ∀ j < i, ¬ pattern <+: text.drop j := by
  unfold findFirst
  rw [List.findIdx?_eq_some_iff_getElem]
  simp only [length_tails, getElem_tails, isPrefixOf_iff_prefix]
  constructor
  · rintro ⟨hi, hfound, hfirst⟩
    exact ⟨Nat.lt_succ_iff.mp hi, hfound, hfirst⟩
  · rintro ⟨hi, hfound, hfirst⟩
    exact ⟨Nat.lt_succ_iff.mpr hi, hfound, hfirst⟩

theorem isSome_findFirst_iff : (findFirst text pattern).isSome ↔ pattern <:+: text := by
  unfold findFirst
  rw [List.findIdx?_isSome, any_eq_true]
  simp only [mem_tails, isPrefixOf_iff_prefix]
  constructor
  · rintro ⟨rest, hsuffix, hfound⟩
    exact hfound.isInfix.trans hsuffix.isInfix
  · rintro ⟨front, back, rfl⟩
    exact ⟨pattern ++ back, ⟨front, by rw [append_assoc]⟩, prefix_append _ _⟩

theorem findFirst_cons_of_not {a : α} (h : ¬ pattern <+: a :: text) :
    findFirst (a :: text) pattern = (findFirst text pattern).map (· + 1) := by
  unfold findFirst
  rw [tails_cons, List.findIdx?_cons, if_neg (by rwa [List.isPrefixOf_iff_prefix])]

theorem findFirst_of_prefix (h : pattern <+: text) : findFirst text pattern = some 0 :=
  findFirst_eq_some_iff.mpr ⟨Nat.zero_le _, h, fun _ hj => absurd hj (Nat.not_lt_zero _)⟩

theorem findFirst_skip {a : α} {front : List α} (h : a ∉ front) (text pattern : List α) :
    findFirst (front ++ text) (a :: pattern) =
      (findFirst text (a :: pattern)).map (· + front.length) := by
  induction front with
  | nil =>
    rw [nil_append, length_nil]
    exact Option.map_id'.symm
  | cons b front ih =>
    obtain ⟨hb, hfront⟩ := not_or.mp (mt mem_cons.mpr h)
    have hno : ¬ a :: pattern <+: b :: (front ++ text) :=
      fun hprefix => hb (cons_prefix_cons.mp hprefix).1
    rw [cons_append, findFirst_cons_of_not hno, ih hfront, Option.map_map]
    congr 1

theorem findFirst_append_right (more : List α) (h : findFirst text pattern = some i) :
    findFirst (text ++ more) pattern = some i := by
  obtain ⟨hi, hfound, hfirst⟩ := findFirst_eq_some_iff.mp h
  refine findFirst_eq_some_iff.mpr ⟨?_, ?_, ?_⟩
  · rw [List.length_append]
    omega
  · rw [drop_append_of_le_length hi]
    exact hfound.trans (prefix_append _ _)
  · intro j hj hprefix
    have hlong := hfound.length_le
    rw [length_drop] at hlong
    rw [drop_append_of_le_length (by omega)] at hprefix
    refine hfirst j hj (prefix_of_prefix_length_le hprefix (prefix_append _ _) ?_)
    rw [length_drop]
    omega

end DeconzRest

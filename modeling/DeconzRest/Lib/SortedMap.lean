import Mathlib.Data.List.Basic

/-!
# Maps as lists in the order of their keys

Insertion puts an entry in place of the one with its key, or where its key belongs, so the
keys are strictly increasing (`sorted_insert`) and the entries of a map are determined by what
is in it (`mem_insert`, `mem_erase`).
-/

namespace DeconzRest
namespace SortedMap

open List

variable {κ ν : Type*}

/-- `map[k] = v` -/
def insert [LT κ] [DecidableLT κ] [DecidableEq κ] (k : κ) (v : ν) : List (κ × ν) → List (κ × ν)
  | [] => [(k, v)]
  | (k', v') :: rest =>
    if k < k' then (k, v) :: (k', v') :: rest
    else if k = k' then (k, v) :: rest
    else (k', v') :: insert k v rest

def erase [DecidableEq κ] (k : κ) (m : List (κ × ν)) : List (κ × ν) := m.filter fun e => e.1 ≠ k

def Sorted [LT κ] (m : List (κ × ν)) : Prop := m.Pairwise fun e e' => e.1 < e'.1

theorem sorted_nil [LT κ] : Sorted ([] : List (κ × ν)) := List.Pairwise.nil

variable {k : κ} {m : List (κ × ν)} {e : κ × ν}

theorem mem_erase [DecidableEq κ] : e ∈ erase k m ↔ e ∈ m ∧ e.1 ≠ k := by
  simp [erase]

theorem sorted_erase [LT κ] [DecidableEq κ] (h : Sorted m) (k : κ) : Sorted (erase k m) :=
  List.Pairwise.sublist filter_sublist h

theorem sorted_cons [LT κ] : Sorted (e :: m) ↔ (∀ e' ∈ m, e.1 < e'.1) ∧ Sorted m := pairwise_cons

theorem mem_of_mem_insert [LT κ] [DecidableLT κ] [DecidableEq κ] {v : ν} (h : e ∈ insert k v m) :
    e = (k, v) ∨ e ∈ m := by
  induction m with
  | nil => exact .inl (mem_singleton.mp h)
  | cons e' rest ih =>
    rw [insert] at h
    split at h
    · exact mem_cons.mp h
    · split at h
      · exact (mem_cons.mp h).imp id (mem_cons_of_mem e')
      · rcases mem_cons.mp h with rfl | h
        · exact .inr mem_cons_self
        · exact (ih h).imp id (mem_cons_of_mem e')

variable [LT κ] [LE κ] [DecidableLT κ] [DecidableEq κ] [Std.IsLinearOrder κ] [Std.LawfulOrderLT κ]

/-- **Insertion keeps the order.** -/
theorem sorted_insert (h : Sorted m) (k : κ) (v : ν) : Sorted (insert k v m) := by
  induction m with
  | nil => exact pairwise_singleton _ _
  | cons e rest ih =>
    obtain ⟨k', v'⟩ := e
    obtain ⟨hfirst, hrest⟩ := sorted_cons.mp h
    rw [insert]
    split
    · rename_i hlt
      refine sorted_cons.mpr ⟨?_, h⟩
      intro e he
      rcases mem_cons.mp he with rfl | he
      · exact hlt
      · exact Std.lt_trans hlt (hfirst e he)
    · split
      · rename_i heq
        subst heq
        exact sorted_cons.mpr ⟨hfirst, hrest⟩
      · rename_i hnot hne
        have hlt : k' < k := Std.lt_of_le_of_ne (Std.not_lt.mp hnot) (Ne.symm hne)
        refine sorted_cons.mpr ⟨?_, ih hrest⟩
        intro e he
        rcases mem_of_mem_insert he with rfl | he
        · exact hlt
        · exact hfirst e he

theorem mem_insert (h : Sorted m) {v : ν} : e ∈ insert k v m ↔ e = (k, v) ∨ (e ∈ m ∧ e.1 ≠ k) := by
  induction m with
  | nil => simp [insert]
  | cons e' rest ih =>
    obtain ⟨k', v'⟩ := e'
    obtain ⟨hfirst, hrest⟩ := sorted_cons.mp h
    rw [insert]
    split
    · rename_i hlt
      -- every key that was there is greater
      have hgreater : ∀ e ∈ (k', v') :: rest, e.1 ≠ k := by
        intro e he heq
        rcases mem_cons.mp he with rfl | he
        · exact Std.lt_irrefl (heq ▸ hlt)
        · exact Std.lt_irrefl (heq ▸ Std.lt_trans hlt (hfirst e he))
      rw [mem_cons (l := (k', v') :: rest)]
      exact or_congr Iff.rfl ⟨fun he => ⟨he, hgreater e he⟩, And.left⟩
    · split
      · rename_i heq
        subst heq
        have hgreater : ∀ e ∈ rest, e.1 ≠ k :=
          fun e he heq => Std.lt_irrefl (heq ▸ hfirst e he)
        rw [mem_cons]
        refine or_congr Iff.rfl ⟨fun he => ⟨mem_cons_of_mem _ he, hgreater e he⟩, ?_⟩
        rintro ⟨he, hne⟩
        rcases mem_cons.mp he with rfl | he
        · exact absurd rfl hne
        · exact he
      · rename_i hnot hne
        rw [mem_cons, ih hrest, mem_cons]
        constructor
        · rintro (rfl | rfl | ⟨he, hk⟩)
          · exact .inr ⟨.inl rfl, Ne.symm hne⟩
          · exact .inl rfl
          · exact .inr ⟨.inr he, hk⟩
        · rintro (rfl | ⟨rfl | he, hk⟩)
          · exact .inr (.inl rfl)
          · exact .inl rfl
          · exact .inr (.inr ⟨he, hk⟩)

end SortedMap
end DeconzRest

import Mathlib.Data.List.Perm.Basic
import Mathlib.Data.List.Nodup

/-!
# Lists with one entry for each key

A table whose entries carry a key: an entry with the same key is replaced, entries are removed by
key, or by position with the last entry moved into the gap.  Up to the order of the entries each
of these is what it is on `a :: rest`, the entry in question in front.
-/

namespace DeconzRest
namespace KeyedList

open List

variable {α κ : Type*} [DecidableEq κ] (key : α → κ)

/-- Replace the entry with the key of `a`, or add it. -/
def replace (l : List α) (a : α) : List α := l.filter (fun b => key b ≠ key a) ++ [a]

def remove (l : List α) (k : κ) : List α := l.filter fun b => key b ≠ k

/-- Remove an entry by moving the last one into its place. -/
def swapErase (l : List α) (i : Nat) : List α :=
  match l.getLast? with
  | none => []
  | some last => (l.set i last).dropLast

variable {key} {l rest : List α} {a b : α}

theorem remove_perm (hl : l.Perm (a :: rest)) (hnodup : ((a :: rest).map key).Nodup) :
    (remove key l (key a)).Perm rest := by
  have hother : ∀ b ∈ rest, key b ≠ key a := by
    intro b hb hsame
    rw [map_cons, nodup_cons] at hnodup
    exact hnodup.1 (hsame ▸ mem_map_of_mem hb)
  have hfilter : (a :: rest).filter (fun b => key b ≠ key a) = rest := by
    rw [filter_cons_of_neg (by simp)]
    exact filter_eq_self.mpr fun b hb => by simpa using hother b hb
  have hperm := hl.filter fun b => decide (key b ≠ key a)
  rwa [hfilter] at hperm

theorem replace_perm (hl : l.Perm (a :: rest)) (hnodup : ((a :: rest).map key).Nodup)
    (hkey : key b = key a) : (replace key l b).Perm (b :: rest) := by
  have hremove := remove_perm hl hnodup
  unfold remove at hremove
  unfold replace
  rw [hkey]
  exact (hremove.append_right [b]).trans (perm_append_singleton b rest)

theorem replace_new (h : ∀ b ∈ l, key b ≠ key a) : (replace key l a).Perm (a :: l) := by
  unfold replace
  rw [filter_eq_self.mpr fun b hb => by simpa using h b hb]
  exact perm_append_singleton a l

theorem swapErase_perm {i : Nat} (hi : i < l.length) : (swapErase l i).Perm (l.eraseIdx i) := by
  have hne : l ≠ [] := ne_nil_of_length_pos (Nat.zero_lt_of_lt hi)
  obtain ⟨front, last, rfl⟩ := (eq_nil_or_concat l).resolve_left hne
  rw [concat_eq_append] at hi ⊢
  unfold swapErase
  rw [List.getLast?_concat]
  simp only
  by_cases hfront : i < front.length
  · rw [set_append_left _ _ hfront, dropLast_concat, eraseIdx_append_of_lt_length hfront]
    exact (set_perm_cons_eraseIdx hfront last).trans
      (perm_append_singleton last _).symm
  · have hlast : i = front.length := by
      rw [List.length_append, length_singleton] at hi
      omega
    rw [hlast, set_append_right _ _ (Nat.le_refl _), Nat.sub_self,
      eraseIdx_append_of_length_le (Nat.le_refl _), Nat.sub_self]
    simp

theorem perm_cons_eraseIdx {i : Nat} (h : l[i]? = some a) : l.Perm (a :: l.eraseIdx i) := by
  obtain ⟨hi, rfl⟩ := List.getElem?_eq_some_iff.mp h
  exact (getElem_cons_eraseIdx_perm hi).symm

theorem find?_eq_some_iff (hnodup : (l.map key).Nodup) (k : κ) :
    (l.find? fun b => key b = k) = some a ↔ a ∈ l ∧ key a = k := by
  constructor
  · intro h
    exact ⟨mem_of_find?_eq_some h, by simpa using find?_some h⟩
  · rintro ⟨ha, rfl⟩
    obtain ⟨b, hb⟩ := Option.isSome_iff_exists.mp
      (find?_isSome.mpr ⟨a, ha, decide_eq_true rfl⟩ : (l.find? fun b => key b = key a).isSome)
    have hkey : key b = key a := by simpa using find?_some hb
    rw [hb, inj_on_of_nodup_map hnodup (mem_of_find?_eq_some hb) ha hkey]

/-- A look-up does not depend on the order of the entries. -/
theorem find?_perm {l' : List α} (hl : l.Perm l') (hnodup : (l.map key).Nodup) (k : κ) :
    (l.find? fun b => key b = k) = l'.find? fun b => key b = k := by
  refine Option.ext fun a => ?_
  rw [find?_eq_some_iff hnodup, find?_eq_some_iff ((hl.map key).nodup_iff.mp hnodup), hl.mem_iff]

end KeyedList
end DeconzRest

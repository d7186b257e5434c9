import Mathlib.Data.List.Basic

/-!
# Results for all members of a list

`List.mapM` over `Option` gives a list exactly if every member has a result, and then the results
in their places.  `List.filterMap` leaves a list as it is exactly if every member is its own result.
-/

namespace DeconzRest

open List Option

variable {α β : Type}

variable {f : α → Option β} {l : List α}

theorem isSome_mapM_iff : (l.mapM f).isSome = true ↔ ∀ a ∈ l, (f a).isSome = true := by
  induction l with
  | nil => exact ⟨fun _ a h => absurd h not_mem_nil, fun _ => rfl⟩
  | cons a l ih =>
    rw [mapM_cons, forall_mem_cons, ← ih]
    cases f a with
    | none => exact ⟨fun h => absurd h Bool.false_ne_true, fun h => h.1⟩
    | some b =>
      cases l.mapM f with
      | none => exact ⟨fun h => absurd h Bool.false_ne_true, fun h => h.2⟩
      | some bs => exact ⟨fun _ => ⟨rfl, rfl⟩, fun _ => rfl⟩

variable {results : List β}

theorem getElem?_of_mapM (h : l.mapM f = some results) (i : Nat) : results[i]? = l[i]?.bind f := by
  induction l generalizing results i with
  | nil =>
    rw [← some_inj.mp h]
    rfl
  | cons a l ih =>
    rw [mapM_cons] at h
    cases ha : f a with
    | none =>
      rw [ha] at h
      cases h
    | some b =>
      cases hl : l.mapM f with
      | none =>
        rw [ha, hl] at h
        cases h
      | some bs =>
        rw [ha, hl] at h
        rw [← some_inj.mp h]
        cases i with
        | zero => exact ha.symm
        | succ i => exact ih hl i

theorem forall₂_of_mapM (h : l.mapM f = some results) :
    List.Forall₂ (fun a b => f a = some b) l results := by
  induction l generalizing results with
  | nil =>
    rw [← some_inj.mp h]
    exact .nil
  | cons a l ih =>
    rw [mapM_cons] at h
    obtain ⟨b, ha, h⟩ := bind_eq_some_iff.mp h
    obtain ⟨bs, hl, h⟩ := bind_eq_some_iff.mp h
    rw [← some_inj.mp h]
    exact .cons ha (ih hl)

theorem map_of_mapM {γ : Type} (g : α → γ) (g' : β → γ) (hf : ∀ a b, f a = some b → g' b = g a)
    (h : l.mapM f = some results) : results.map g' = l.map g := by
  refine ext_getElem? fun i => ?_
  rw [List.getElem?_map, List.getElem?_map, getElem?_of_mapM h]
  cases ha : l[i]? with
  | none => rfl
  | some a =>
    have hsome := isSome_mapM_iff.mp (isSome_of_eq_some h) a (mem_of_getElem? ha)
    obtain ⟨b, hb⟩ := isSome_iff_exists.mp hsome
    rw [bind_some, hb, map_some, map_some, hf a b hb]

theorem mapM_eq_self {f : α → Option α} (h : ∀ a ∈ l, f a = some a) : l.mapM f = some l := by
  induction l with
  | nil => rfl
  | cons a l ih =>
    obtain ⟨ha, hl⟩ := forall_mem_cons.mp h
    rw [mapM_cons, ha, ih hl]
    rfl

theorem filterMap_eq_self_iff {f : α → Option α} : l.filterMap f = l ↔ ∀ a ∈ l, f a = some a := by
  constructor
  · intro h
    induction l with
    | nil => exact fun a ha => nomatch ha
    | cons a l ih =>
      cases ha : f a with
      | none =>
        -- too few are left
        rw [filterMap_cons_none ha] at h
        have hle := length_filterMap_le f l
        rw [h, length_cons] at hle
        omega
      | some b =>
        rw [filterMap_cons_some ha] at h
        obtain ⟨rfl, hrest⟩ := List.cons.inj h
        exact forall_mem_cons.mpr ⟨ha, ih hrest⟩
  · intro h
    induction l with
    | nil => rfl
    | cons a l ih =>
      obtain ⟨ha, hl⟩ := forall_mem_cons.mp h
      rw [filterMap_cons_some ha, ih hl]

theorem map_eq_self_iff {f : α → α} : l.map f = l ↔ ∀ a ∈ l, f a = a := by
  rw [← filterMap_eq_map, filterMap_eq_self_iff]
  exact forall₂_congr fun a _ => some_inj

end DeconzRest

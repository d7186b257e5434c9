import Mathlib.Data.List.Basic

/-!
# A pass over a list that ends with the first item served

Each item of a list is visited in turn: the visit changes the item and either passes on, or
serves the item and ends the pass, so the items behind are not visited.
-/

namespace DeconzRest
namespace FirstServed

variable {α β : Type*}

/-- The end of the visit of an item -/
inductive Visit (α β : Type*) where
  | pass (a : α)
  | serve (a : α) (b : β)

def Visit.item : Visit α β → α
  | .pass a => a
  | .serve a _ => a

def Visit.IsServed : Visit α β → Prop
  | .pass _ => False
  | .serve _ _ => True

variable (visit : α → Visit α β)

/-- The items behind the pass, and which of them was served with what -/
def serveFirst : List α → List α × Option (Nat × β)
  | [] => ([], none)
  | a :: rest =>
    match visit a with
    | .serve a' b => (a' :: rest, some (0, b))
    | .pass a' =>
      let r := serveFirst rest
      (a' :: r.1, r.2.map fun served => (served.1 + 1, served.2))

variable {visit} {xs : List α} {j : Nat} {a : α}

theorem serveFirst_pass {a' : α} (rest : List α) (h : visit a = .pass a') :
    serveFirst visit (a :: rest) = (a' :: (serveFirst visit rest).1,
      (serveFirst visit rest).2.map fun served => (served.1 + 1, served.2)) := by
  simp [serveFirst, h]

theorem serveFirst_serve {a' : α} {b : β} (rest : List α) (h : visit a = .serve a' b) :
    serveFirst visit (a :: rest) = (a' :: rest, some (0, b)) := by
  simp [serveFirst, h]

@[simp] theorem serveFirst_length : (serveFirst visit xs).1.length = xs.length := by
  induction xs with
  | nil => rfl
  | cons a rest ih =>
    cases h : visit a with
    | pass a' => simp [serveFirst_pass rest h, ih]
    | serve a' b => simp [serveFirst_serve rest h]

theorem serveFirst_behind (hfront : ∃ i < j, ∃ a, xs[i]? = some a ∧ (visit a).IsServed) :
    (serveFirst visit xs).1[j]? = xs[j]? ∧ ∀ b, (serveFirst visit xs).2 ≠ some (j, b) := by
  induction xs generalizing j with
  | nil =>
    obtain ⟨i, -, a, ha, -⟩ := hfront
    simp at ha
  | cons a rest ih =>
    obtain ⟨i, hij, a₀, ha₀, hserved⟩ := hfront
    obtain ⟨j, rfl⟩ : ∃ k, j = k + 1 := ⟨j - 1, by omega⟩
    cases h : visit a with
    | serve a' b =>
      rw [serveFirst_serve rest h]
      simp
    | pass a' =>
      -- the one served is in the rest, as the first item is passed
      have hrest : ∃ i < j, ∃ a, rest[i]? = some a ∧ (visit a).IsServed := by
        cases i with
        | zero =>
          simp only [List.getElem?_cons_zero, Option.some.injEq] at ha₀
          subst ha₀
          rw [h] at hserved
          exact hserved.elim
        | succ i => exact ⟨i, by omega, a₀, by simpa using ha₀, hserved⟩
      obtain ⟨hkept, hother⟩ := ih hrest
      rw [serveFirst_pass rest h]
      refine ⟨by simpa using hkept, ?_⟩
      intro b
      cases hr : (serveFirst visit rest).2 with
      | none => simp
      | some served =>
        have hne := hother served.2
        rw [hr] at hne
        intro heq
        simp only [Option.map_some, Option.some.injEq, Prod.mk.injEq,
          Nat.add_right_cancel_iff] at heq
        exact hne (by rw [← heq.1])

theorem serveFirst_reached (ha : xs[j]? = some a)
    (hfront : ∀ i < j, ∀ a, xs[i]? = some a → ¬ (visit a).IsServed) :
    (serveFirst visit xs).1[j]? = some (visit a).item ∧ ∀ b, (serveFirst visit xs).2 = some (j, b) ↔
      ∃ a', visit a = .serve a' b := by
  induction xs generalizing j with
  | nil => simp at ha
  | cons a₀ rest ih =>
    cases j with
    | zero =>
      simp only [List.getElem?_cons_zero, Option.some.injEq] at ha
      subst ha
      cases h : visit a₀ with
      | serve a' b => simp [serveFirst_serve rest h, Visit.item]
      | pass a' =>
        rw [serveFirst_pass rest h]
        refine ⟨by simp [Visit.item], ?_⟩
        intro b
        cases (serveFirst visit rest).2 <;> simp
    | succ j =>
      have hfirst := hfront 0 (by omega) a₀ (by simp)
      cases h : visit a₀ with
      | serve a' b =>
        rw [h] at hfirst
        exact (hfirst trivial).elim
      | pass a' =>
        obtain ⟨hget, hserved⟩ := ih (j := j) (by simpa using ha)
          fun i hi a hget => hfront (i + 1) (by omega) a (by simpa using hget)
        rw [serveFirst_pass rest h]
        refine ⟨by simpa using hget, ?_⟩
        intro b
        rw [← hserved b]
        cases (serveFirst visit rest).2 with
        | none => simp
        | some served => simp [Prod.ext_iff]

theorem serveFirst_passed {a' : α} (ha : xs[j]? = some a)
    (hfront : ∀ i < j, ∀ a, xs[i]? = some a → ¬ (visit a).IsServed) (h : visit a = .pass a') :
    (serveFirst visit xs).1[j]? = some a' ∧ ∀ b, (serveFirst visit xs).2 ≠ some (j, b) := by
  obtain ⟨hget, hserved⟩ := serveFirst_reached ha hfront
  rw [h] at hget hserved
  refine ⟨hget, ?_⟩
  intro b heq
  obtain ⟨_, hserve⟩ := (hserved b).mp heq
  cases hserve

theorem serveFirst_served {a' : α} {b : β} (ha : xs[j]? = some a)
    (hfront : ∀ i < j, ∀ a, xs[i]? = some a → ¬ (visit a).IsServed) (h : visit a = .serve a' b) :
    (serveFirst visit xs).1[j]? = some a' ∧ (serveFirst visit xs).2 = some (j, b) := by
  obtain ⟨hget, hserved⟩ := serveFirst_reached ha hfront
  rw [h] at hget hserved
  exact ⟨hget, (hserved b).mpr ⟨a', rfl⟩⟩

end FirstServed
end DeconzRest

import Mathlib.Data.List.Induction
import Mathlib.Data.List.Basic

/-!
# Runs of a deterministic labelled machine

A machine is a step function `σ → α → σ`: a state, an action, the next state.
A run is the fold of the step over a list of actions, so that every
interleaving of the actions is one list.  This module holds what every machine
of the development uses:

* `run` and `stateAt`: the state after all actions, and after the first `k`;
* `run_invariant`: what one step preserves, a run preserves; the others after it also see the
  condition on the steps taken, the actions of the run, or the moment;
* `run_establishes`: what each action brings about for itself and the others keep;
* `lastWhere`: the last step of a run at which an observation was made, with
  the state just before it.
-/

namespace DeconzRest
namespace Transition

variable {σ α β : Type*}

/-- The state after the actions `acts`, taken from the left. -/
def run (step : σ → α → σ) (s : σ) (acts : List α) : σ :=
  acts.foldl step s

@[simp] theorem run_nil (step : σ → α → σ) (s : σ) : run step s [] = s := rfl

@[simp] theorem run_cons (step : σ → α → σ) (s : σ) (a : α) (acts : List α) :
    run step s (a :: acts) = run step (step s a) acts := rfl

theorem run_append (step : σ → α → σ) (s : σ) (xs ys : List α) :
    run step s (xs ++ ys) = run step (run step s xs) ys := by
  simp [run, List.foldl_append]

@[simp] theorem run_concat (step : σ → α → σ) (s : σ) (xs : List α) (a : α) :
    run step s (xs ++ [a]) = step (run step s xs) a := by
  simp [run, List.foldl_append]

/-- The state after the first `k` actions of a run. -/
def stateAt (step : σ → α → σ) (s : σ) (acts : List α) (k : Nat) : σ :=
  run step s (acts.take k)

@[simp] theorem stateAt_zero (step : σ → α → σ) (s : σ) (acts : List α) :
    stateAt step s acts 0 = s := rfl

@[simp] theorem stateAt_length (step : σ → α → σ) (s : σ) (acts : List α) :
    stateAt step s acts acts.length = run step s acts := by
  simp [stateAt]

theorem stateAt_succ (step : σ → α → σ) (s : σ) (acts : List α) {k : Nat}
    (h : k < acts.length) :
    stateAt step s acts (k + 1) = step (stateAt step s acts k) acts[k] := by
  unfold stateAt
  rw [List.take_succ_eq_append_getElem h, run_concat]

/-- Every step of the run, in the state it is taken in, satisfies `ok`. -/
def AllSteps (step : σ → α → σ) (ok : σ → α → Prop) (s : σ) (acts : List α) : Prop :=
  ∀ k (h : k < acts.length), ok (stateAt step s acts k) acts[k]

theorem allSteps_cons {step : σ → α → σ} {ok : σ → α → Prop} {s : σ} {a : α}
    {acts : List α} (h : AllSteps step ok s (a :: acts)) :
    ok s a ∧ AllSteps step ok (step s a) acts := by
  refine ⟨h 0 (by simp), ?_⟩
  intro k hk
  have hnext := h (k + 1) (by simpa using hk)
  simpa [stateAt] using hnext

theorem allSteps_nil (step : σ → α → σ) (ok : σ → α → Prop) (s : σ) : AllSteps step ok s [] :=
  fun _ hk => absurd hk (Nat.not_lt_zero _)

theorem allSteps_of_cons {step : σ → α → σ} {ok : σ → α → Prop} {s : σ} {a : α} {acts : List α}
    (h : ok s a) (hrest : AllSteps step ok (step s a) acts) : AllSteps step ok s (a :: acts) := by
  intro k hk
  cases k with
  | zero => exact h
  | succ k =>
    have hnext := hrest k (by simpa using hk)
    simpa [stateAt] using hnext

theorem allSteps_append {step : σ → α → σ} {ok : σ → α → Prop} {s : σ} {xs ys : List α}
    (h : AllSteps step ok s (xs ++ ys)) :
    AllSteps step ok s xs ∧ AllSteps step ok (run step s xs) ys := by
  constructor
  · intro k hk
    have hok := h k (by rw [List.length_append]; omega)
    unfold stateAt at hok ⊢
    rwa [List.take_append_of_le_length (by omega), List.getElem_append_left hk] at hok
  · induction xs generalizing s with
    | nil => exact h
    | cons a xs ih => exact ih (allSteps_cons h).2

/-- What every step preserves holds after every run. -/
theorem run_invariant {step : σ → α → σ} {P : σ → Prop}
    (hstep : ∀ s a, P s → P (step s a)) {s : σ} (h0 : P s) (acts : List α) :
    P (run step s acts) := by
  induction acts generalizing s with
  | nil => exact h0
  | cons a acts ih => exact ih (hstep s a h0)

/-- What the steps with the actions of a run preserve holds after the run. -/
theorem run_invariant_mem {step : σ → α → σ} {P : σ → Prop} {acts : List α}
    (hstep : ∀ a ∈ acts, ∀ s, P s → P (step s a)) {s : σ} (h0 : P s) : P (run step s acts) := by
  induction acts generalizing s with
  | nil => exact h0
  | cons a acts ih =>
    obtain ⟨hfirst, hrest⟩ := List.forall_mem_cons.mp hstep
    exact ih hrest (hfirst s h0)

/-- What every step preserves of the state and of the actions before it holds after every
run, of all of its actions. -/
theorem run_history {step : σ → α → σ} {P : List α → σ → Prop}
    (hstep : ∀ seen s a, P seen s → P (seen ++ [a]) (step s a)) {s : σ} (h0 : P [] s)
    (acts : List α) : P acts (run step s acts) := by
  -- the induction takes the last action away, so that what was seen before is a run
  induction acts using List.reverseRecOn with
  | nil => exact h0
  | append_singleton acts a ih =>
    rw [run_concat]
    exact hstep acts _ a ih

/-- What each action brings about for itself, and the other actions keep, holds for
every action of a run at its end. -/
theorem run_establishes {step : σ → α → σ} {P : α → σ → Prop}
    (hself : ∀ s a, P a (step s a)) (hkeep : ∀ s a b, P a s → P a (step s b)) (s : σ)
    (acts : List α) : ∀ a ∈ acts, P a (run step s acts) := by
  induction acts generalizing s with
  | nil => exact fun a ha => absurd ha List.not_mem_nil
  | cons b acts ih =>
    intro a ha
    rcases List.mem_cons.mp ha with rfl | ha
    · exact run_invariant (fun s b => hkeep s a b) (hself s a) acts
    · exact ih (step s b) a ha

/-- What every step that satisfies `ok` preserves holds after every run all of
whose steps satisfy `ok`. -/
theorem run_invariant_of {step : σ → α → σ} {ok : σ → α → Prop} {P : σ → Prop}
    (hstep : ∀ s a, ok s a → P s → P (step s a)) {s : σ} (h0 : P s) {acts : List α}
    (hall : AllSteps step ok s acts) : P (run step s acts) := by
  induction acts generalizing s with
  | nil => exact h0
  | cons a acts ih =>
    obtain ⟨hok, hrest⟩ := allSteps_cons hall
    exact ih (hstep s a hok h0) hrest

/-- What every step preserves holds from the moment on at which it held. -/
theorem stateAt_invariant {step : σ → α → σ} {P : σ → Prop}
    (hstep : ∀ s a, P s → P (step s a)) {s : σ} {acts : List α} {k n : Nat}
    (h : P (stateAt step s acts k)) (hkn : k ≤ n) : P (stateAt step s acts n) := by
  have htake : acts.take n = acts.take k ++ (acts.take n).drop k := by
    have hfront := List.take_append_drop k (acts.take n)
    rw [List.take_take, Nat.min_eq_left hkn] at hfront
    exact hfront.symm
  unfold stateAt at h ⊢
  rw [htake, run_append]
  exact run_invariant hstep h _

/-- What holds at the start, and after each step if it held before it, holds at
every moment of a run; the predicate also sees how many steps were taken. -/
theorem stateAt_induction {step : σ → α → σ} {s : σ} {acts : List α} {P : Nat → σ → Prop}
    (h0 : P 0 s)
    (hstep : ∀ k (h : k < acts.length), P k (stateAt step s acts k) →
      P (k + 1) (step (stateAt step s acts k) acts[k])) :
    ∀ n, n ≤ acts.length → P n (stateAt step s acts n) := by
  intro n
  induction n with
  | zero => exact fun _ => h0
  | succ n ih =>
    intro hn
    rw [stateAt_succ step s acts hn]
    exact hstep n hn (ih (by omega))

/-- The last step of a run at which `obs` sees something: what it sees, and the
state in which that step was taken. -/
def lastWhere (step : σ → α → σ) (obs : σ → α → Option β) :
    σ → List α → Option (β × σ) → Option (β × σ)
  | _, [], found => found
  | s, a :: acts, found =>
    lastWhere step obs (step s a) acts
      (match obs s a with
        | some b => some (b, s)
        | none => found)

theorem lastWhere_concat (step : σ → α → σ) (obs : σ → α → Option β) (s : σ)
    (acts : List α) (a : α) (found : Option (β × σ)) :
    lastWhere step obs s (acts ++ [a]) found =
      match obs (run step s acts) a with
      | some b => some (b, run step s acts)
      | none => lastWhere step obs s acts found := by
  induction acts generalizing s found with
  | nil => rfl
  | cons b acts ih => exact ih (step s b) _

end Transition
end DeconzRest

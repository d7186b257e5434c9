import DeconzRest.Device.StateChange

/-!
# Removing the state changes of an item

`removeStateChangesForItem` erases from the vector inside a loop over it.  The end of the loop is
taken once, before it, so that after an erase the loop runs past the new end of the vector, unless
the element that was erased was the last one (`pass_eq`).
-/

namespace DeconzRest
namespace StateChange

open List

variable {D : Type}

/-- Some item of the state change has the suffix. -/
def concerns (suffix : String) (sc : StateChange D) : Bool :=
  sc.items.any fun item => item.suffix == suffix

/-- The inner loop: `steps` positions up to the end that was taken before it, the position, the
vector, and whether something was erased.  `none` is an access past the end of the vector. -/
def pass (suffix : String) :
    Nat → Nat → List (StateChange D) → Bool → Option (List (StateChange D) × Bool)
  | 0, _, stateChanges, again => some (stateChanges, again)
  | steps + 1, it, stateChanges, again =>
    match stateChanges[it]? with
    | none => none
    | some sc =>
      if sc.concerns suffix then pass suffix steps (it + 1) (stateChanges.eraseIdx it) true
      else pass suffix steps (it + 1) stateChanges again

/-- What comes of the function: an access past the end, a loop that is still running, or the
vector it leaves. -/
inductive Removal (D : Type) where
  | outOfBounds
  | running
  | done (stateChanges : List (StateChange D))

/-- `Resource::removeStateChangesForItem`, with the number of turns of its outer loop -/
def removeStateChangesForItem (suffix : String) : Nat → List (StateChange D) → Removal D
  | 0, _ => .running
  | turns + 1, stateChanges =>
    match pass suffix stateChanges.length 0 stateChanges false with
    | none => .outOfBounds
    | some (stateChanges, true) => removeStateChangesForItem suffix turns stateChanges
    | some (stateChanges, false) => .done stateChanges

def others (suffix : String) (stateChanges : List (StateChange D)) : List (StateChange D) :=
  stateChanges.filter fun sc => !sc.concerns suffix

/-- The function terminates inside of the vector and leaves exactly the other state changes, in
their order. -/
def Removes (suffix : String) (stateChanges : List (StateChange D)) : Prop :=
  ∃ turns, removeStateChangesForItem suffix turns stateChanges = .done (others suffix stateChanges)

variable {suffix : String}

variable {stateChanges : List (StateChange D)}

theorem pass_past_end {steps it : Nat} {again : Bool} (hsteps : 0 < steps)
    (hend : stateChanges.length < it + steps) :
    pass suffix steps it stateChanges again = none := by
  induction steps generalizing it stateChanges again with
  | zero => omega
  | succ steps ih =>
    rw [pass]
    by_cases hit : it < stateChanges.length
    · have hpos : 0 < steps := by omega
      rw [List.getElem?_eq_getElem hit]
      simp only
      split
      · refine ih hpos ?_
        rw [length_eraseIdx_of_lt hit]
        omega
      · exact ih hpos (by omega)
    · rw [List.getElem?_eq_none (Nat.not_lt.mp hit)]

/-- **One pass.**  The loop stays inside of the vector where no state change but the last concerns
the item. -/
theorem pass_eq (front back : List (StateChange D)) (again : Bool) :
    pass suffix back.length front.length (front ++ back) again =
      if back.dropLast.any (concerns suffix) = true then none
      else some (front ++ others suffix back, again || back.any (concerns suffix)) := by
  induction back generalizing front again with
  | nil => simp [pass, others]
  | cons sc back ih =>
    have hget : (front ++ sc :: back)[front.length]? = some sc := by
      rw [List.getElem?_append_right (Nat.le_refl _), Nat.sub_self]
      rfl
    rw [length_cons, pass, hget]
    simp only
    by_cases hsc : sc.concerns suffix = true
    · have herase : (front ++ sc :: back).eraseIdx front.length = front ++ back := by
        rw [eraseIdx_append_of_length_le (Nat.le_refl _), Nat.sub_self]
        rfl
      rw [if_pos hsc, herase]
      cases back with
      | nil => simp [pass, others, hsc]
      | cons sc' back =>
        -- the erased state change was not the last one
        rw [pass_past_end (by simp) (by simp)]
        simp [hsc]
    · have hfront := ih (front ++ [sc]) again
      rw [List.length_append, length_singleton, append_assoc, singleton_append] at hfront
      rw [if_neg hsc, hfront]
      have hsc' : sc.concerns suffix = false := Bool.eq_false_iff.mpr hsc
      cases back with
      | nil => simp [others, hsc']
      | cons sc' back =>
        have hany : (sc :: sc' :: back).dropLast.any (concerns suffix) =
            (sc' :: back).dropLast.any (concerns suffix) := by
          rw [dropLast_cons_of_ne_nil (cons_ne_nil sc' back)]
          exact (any_cons).trans (by rw [hsc', Bool.false_or])
        rw [hany]
        split
        · rfl
        · simp [others, hsc']

theorem any_others (stateChanges : List (StateChange D)) :
    (others suffix stateChanges).any (concerns suffix) = false := by
  simp [others]

theorem others_eq_self (h : stateChanges.any (concerns suffix) = false) :
    others suffix stateChanges = stateChanges := by
  refine filter_eq_self.mpr fun sc hmem => ?_
  have hno := any_eq_false.mp h sc hmem
  simpa using hno

theorem pass_whole (stateChanges : List (StateChange D)) :
    pass suffix stateChanges.length 0 stateChanges false =
      if stateChanges.dropLast.any (concerns suffix) = true then none
      else some (others suffix stateChanges, stateChanges.any (concerns suffix)) := by
  have hwhole := @pass_eq D suffix [] stateChanges false
  rwa [nil_append, nil_append, Bool.false_or] at hwhole

theorem removeStateChangesForItem_of_none (h : stateChanges.any (concerns suffix) = false)
    (turns : Nat) :
    removeStateChangesForItem suffix (turns + 1) stateChanges = .done stateChanges := by
  have hdrop : ¬ stateChanges.dropLast.any (concerns suffix) = true := by
    intro hany
    obtain ⟨sc, hmem, hsc⟩ := any_eq_true.mp hany
    have hwhole := any_eq_true.mpr ⟨sc, dropLast_subset _ hmem, hsc⟩
    rw [h] at hwhole
    exact Bool.noConfusion hwhole
  rw [removeStateChangesForItem, pass_whole, if_neg hdrop, h, others_eq_self h]

/-- **Removing is right** exactly where no state change but the last has an item with the
suffix. -/
theorem removes_iff (suffix : String) (stateChanges : List (StateChange D)) :
    Removes suffix stateChanges ↔ ∀ sc ∈ stateChanges.dropLast, sc.concerns suffix = false := by
  have hany : stateChanges.dropLast.any (concerns suffix) = false ↔ ∀ sc ∈
      stateChanges.dropLast, sc.concerns suffix = false := by
    simp
  rw [← hany]
  constructor
  · rintro ⟨turns, hturns⟩
    by_contra hconcerns
    cases turns with
    | zero => cases hturns
    | succ turns =>
      rw [removeStateChangesForItem, pass_whole, if_pos ((Bool.not_eq_false _).mp hconcerns)]
        at hturns
      cases hturns
  · intro hno
    refine ⟨2, ?_⟩
    cases hlast : stateChanges.any (concerns suffix) with
    | false =>
      rw [removeStateChangesForItem_of_none hlast, others_eq_self hlast]
    | true =>
      rw [removeStateChangesForItem, pass_whole, if_neg (by rw [hno]; exact Bool.false_ne_true),
        hlast]
      exact removeStateChangesForItem_of_none (any_others stateChanges) 0

/-- The first of two state changes for the same item: the loop reads past the end. -/
theorem removal_reads_past_end :
    let sc : StateChange Int :=
      { stateTimer := 0, changeTimer := 0, items := [⟨"state/on", .bool true, .unknown⟩] }
    removeStateChangesForItem "state/on" 1 [sc, sc] = .outOfBounds ∧
      ¬ Removes "state/on" [sc, sc] := by
  intro sc
  have hpass : pass "state/on" 2 0 [sc, sc] false = none := by
    refine (pass_whole [sc, sc]).trans (if_pos ?_)
    decide
  refine ⟨by rw [removeStateChangesForItem]; simp only [length_cons, length_nil, hpass], ?_⟩
  rintro ⟨turns, hturns⟩
  cases turns with
  | zero => cases hturns
  | succ turns =>
    rw [removeStateChangesForItem] at hturns
    simp only [length_cons, length_nil, hpass] at hturns
    cases hturns

end StateChange
end DeconzRest

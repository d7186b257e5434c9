import DeconzRest.Lib.JsonGrammar

/-!
# A recognizer for derived token sequences

A pushdown machine that reads token kinds from the left: `stack` has a frame for
each bracket that is open, innermost first, and `phase` says what may come next.
-/

namespace DeconzRest
namespace Rfc8259

open List Option

inductive Frame where
  | array | object
deriving DecidableEq, Repr

/-- What the machine waits for: a value; an element or `]` behind `[`; a member or
`}` behind `{`; a member behind a comma; a colon behind a member's name; and
behind a value a comma or the closing bracket. -/
inductive Phase where
  | value | firstElement | firstMember | member | colon | next
deriving DecidableEq, Repr

structure Config where
  stack : List Frame
  phase : Phase
deriving DecidableEq, Repr

namespace Config

def start : Config := ⟨[], .value⟩

/-- After a whole value with nothing open. -/
def done : Config := ⟨[], .next⟩

/-- The step at the first token of a value. -/
def startValue (stack : List Frame) : Kind → Option Config
  | .string | .primitive => some ⟨stack, .next⟩
  | .beginArray => some ⟨.array :: stack, .firstElement⟩
  | .beginObject => some ⟨.object :: stack, .firstMember⟩
  | _ => none

def step : Config → Kind → Option Config
  | ⟨stack, .value⟩, k => startValue stack k
  | ⟨.array :: stack, .firstElement⟩, .endArray => some ⟨stack, .next⟩
  | ⟨stack, .firstElement⟩, k => startValue stack k
  | ⟨.object :: stack, .firstMember⟩, .endObject => some ⟨stack, .next⟩
  | ⟨stack, .firstMember⟩, .string => some ⟨stack, .colon⟩
  | ⟨stack, .member⟩, .string => some ⟨stack, .colon⟩
  | ⟨stack, .colon⟩, .nameSeparator => some ⟨stack, .value⟩
  | ⟨.array :: stack, .next⟩, .endArray => some ⟨stack, .next⟩
  | ⟨.array :: stack, .next⟩, .valueSeparator => some ⟨.array :: stack, .value⟩
  | ⟨.object :: stack, .next⟩, .endObject => some ⟨stack, .next⟩
  | ⟨.object :: stack, .next⟩, .valueSeparator => some ⟨.object :: stack, .member⟩
  | _, _ => none

def run : Config → List Kind → Option Config
  | c, [] => some c
  | c, k :: ks =>
    match step c k with
    | some c' => run c' ks
    | none => none

@[simp] theorem run_nil (c : Config) : run c [] = some c := rfl

variable {k : Kind}

theorem run_cons {c d : Config} (h : step c k = some d) (ks : List Kind) :
    run c (k :: ks) = run d ks := by
  simp [run, h]

variable {c c' : Config}

theorem run_append {xs : List Kind} (h : run c xs = some c') (ys : List Kind) :
    run c (xs ++ ys) = run c' ys := by
  induction xs generalizing c with
  | nil =>
    rw [← some.inj h]
    rfl
  | cons k xs ih =>
    cases hstep : step c k with
    | none => simp [run, hstep] at h
    | some c₁ =>
      rw [cons_append, run_cons hstep]
      rw [run_cons hstep] at h
      exact ih h

theorem run_append_eq_some {xs ys : List Kind} (h : run c (xs ++ ys) = some c') :
    ∃ c₁, run c xs = some c₁ ∧ run c₁ ys = some c' := by
  induction xs generalizing c with
  | nil => exact ⟨c, rfl, h⟩
  | cons k xs ih =>
    cases hstep : step c k with
    | none => simp [run, hstep] at h
    | some c₁ =>
      rw [cons_append, run_cons hstep] at h
      rw [run_cons hstep]
      exact ih h

theorem run_concat {xs : List Kind} :
    run c (xs ++ [k]) = some c' ↔ ∃ c₁, run c xs = some c₁ ∧ step c₁ k = some c' := by
  constructor
  · intro h
    obtain ⟨c₁, hxs, hk⟩ := run_append_eq_some h
    refine ⟨c₁, hxs, ?_⟩
    cases hstep : step c₁ k with
    | none => simp [run, hstep] at hk
    | some c₂ =>
      rw [run_cons hstep] at hk
      exact hk
  · rintro ⟨c₁, hxs, hk⟩
    rw [run_append hxs, run_cons hk, run_nil]

/-- The configurations that take a value and go on behind it. -/
def TakesValue (stack : List Frame) (phase : Phase) : Prop :=
  phase = .value ∨ (phase = .firstElement ∧ ∃ rest, stack = .array :: rest)

variable {stack : List Frame}

theorem step_of_takesValue {phase : Phase} (h : TakesValue stack phase) {c : Config}
    (hk : startValue stack k = some c) :
    step ⟨stack, phase⟩ k = some c := by
  rcases h with rfl | ⟨rfl, rest, rfl⟩
  · exact hk
  · cases k with
    | endArray => simp [startValue] at hk
    | _ => exact hk

/-- Over a derived sequence the machine comes back to its stack: behind a value,
behind the elements of an array, behind the members of an object. -/
theorem run_of_derives {category : Category} {ks : List Kind} (h : Derives category ks) :
    match category with
    | .value => ∀ stack phase, TakesValue stack phase → run ⟨stack, phase⟩ ks = some ⟨stack, .next⟩
    | .elements => ∀ stack phase, TakesValue (.array :: stack) phase →
        run ⟨.array :: stack, phase⟩ ks = some ⟨.array :: stack, .next⟩
    | .members => ∀ stack phase, phase = .firstMember ∨ phase = .member →
        run ⟨.object :: stack, phase⟩ ks = some ⟨.object :: stack, .next⟩ := by
  induction h with
  | string | primitive =>
    intro stack phase hphase
    exact run_cons (step_of_takesValue hphase rfl) []
  | emptyArray =>
    intro stack phase hphase
    rw [run_cons (step_of_takesValue hphase rfl), run_cons (d := ⟨stack, .next⟩) rfl, run_nil]
  | array _ ih =>
    intro stack phase hphase
    have helements := ih stack .firstElement (.inr ⟨rfl, stack, rfl⟩)
    rw [run_cons (step_of_takesValue hphase rfl), run_append helements,
      run_cons (d := ⟨stack, .next⟩) rfl, run_nil]
  | emptyObject =>
    intro stack phase hphase
    rw [run_cons (step_of_takesValue hphase rfl), run_cons (d := ⟨stack, .next⟩) rfl, run_nil]
  | object _ ih =>
    intro stack phase hphase
    have hmembers := ih stack .firstMember (.inl rfl)
    rw [run_cons (step_of_takesValue hphase rfl), run_append hmembers,
      run_cons (d := ⟨stack, .next⟩) rfl, run_nil]
  | element _ ih =>
    intro stack phase hphase
    exact ih (.array :: stack) phase hphase
  | elements _ _ ihes ihv =>
    intro stack phase hphase
    rw [run_append (ihes stack phase hphase), run_cons (d := ⟨.array :: stack, .value⟩) rfl]
    exact ihv (.array :: stack) .value (.inl rfl)
  | member _ ih =>
    intro stack phase hphase
    have hname : step ⟨.object :: stack, phase⟩ .string = some ⟨.object :: stack, .colon⟩ := by
      rcases hphase with rfl | rfl <;> rfl
    rw [run_cons hname, run_cons (d := ⟨.object :: stack, .value⟩) rfl]
    exact ih (.object :: stack) .value (.inl rfl)
  | members _ _ ihms ihv =>
    intro stack phase hphase
    rw [run_append (ihms stack phase hphase), run_cons (d := ⟨.object :: stack, .member⟩) rfl,
      run_cons (d := ⟨.object :: stack, .colon⟩) rfl,
      run_cons (d := ⟨.object :: stack, .value⟩) rfl]
    exact ihv (.object :: stack) .value (.inl rfl)

/-! ## Recognized sequences are derived -/

/-- The tokens of one open bracket up to a place where a value starts. -/
def Awaits : Frame → List Kind → Prop
  | .array, ks =>
    ks = [.beginArray] ∨ ∃ es, Derives .elements es ∧ ks = .beginArray :: (es ++ [.valueSeparator])
  | .object, ks =>
    ks = [.beginObject, .string, .nameSeparator] ∨
      ∃ ms, Derives .members ms ∧ ks = .beginObject ::
        (ms ++ [.valueSeparator, .string, .nameSeparator])

/-- The tokens of all open brackets up to a place where a value starts. -/
def AwaitsAll : List Frame → List Kind → Prop
  | [], ks => ks = []
  | frame :: stack, ks => ∃ front top, ks = front ++ top ∧ AwaitsAll stack front ∧ Awaits frame top

/-- The tokens of the innermost bracket: nothing is open in `next` alone. -/
def PendingTop : Config → List Kind → Prop
  | ⟨stack, .value⟩, ks => AwaitsAll stack ks
  | ⟨.array :: stack, .firstElement⟩, ks =>
    ∃ front, ks = front ++ [.beginArray] ∧ AwaitsAll stack front
  | ⟨.object :: stack, .firstMember⟩, ks =>
    ∃ front, ks = front ++ [.beginObject] ∧ AwaitsAll stack front
  | ⟨.object :: stack, .member⟩, ks =>
    ∃ front ms, ks = front ++ .beginObject :: (ms ++ [.valueSeparator]) ∧ AwaitsAll stack front ∧
      Derives .members ms
  | ⟨.object :: stack, .colon⟩, ks =>
    ∃ front top, ks = front ++ top ∧ AwaitsAll stack front ∧
      Awaits .object (top ++ [.nameSeparator])
  | ⟨[], .next⟩, ks => Derives .value ks
  | ⟨.array :: stack, .next⟩, ks =>
    ∃ front es, ks = front ++ .beginArray :: es ∧ AwaitsAll stack front ∧ Derives .elements es
  | ⟨.object :: stack, .next⟩, ks =>
    ∃ front ms, ks = front ++ .beginObject :: ms ∧ AwaitsAll stack front ∧ Derives .members ms
  | _, _ => False

theorem pending_value {front v : List Kind} (hfront : AwaitsAll stack front) (hv : Derives .value v)
    : PendingTop ⟨stack, .next⟩ (front ++ v) := by
  cases stack with
  | nil =>
    have hnil : front = [] := hfront
    rw [hnil]
    exact hv
  | cons frame stack =>
    obtain ⟨outer, top, rfl, houter, htop⟩ := hfront
    cases frame with
    | array =>
      rcases htop with rfl | ⟨es, hes, rfl⟩
      · exact ⟨outer, v, by simp, houter, .element hv⟩
      · exact ⟨outer, es ++ .valueSeparator :: v, by simp, houter, .elements hes hv⟩
    | object =>
      rcases htop with rfl | ⟨ms, hms, rfl⟩
      · exact ⟨outer, .string :: .nameSeparator :: v, by simp, houter, .member hv⟩
      · exact ⟨outer, ms ++ .valueSeparator :: .string :: .nameSeparator :: v, by simp, houter,
          .members hms hv⟩

theorem pending_startValue {front : List Kind} {c : Config} (hfront : AwaitsAll stack front)
    (h : startValue stack k = some c) :
    PendingTop c (front ++ [k]) := by
  cases k with
  | string =>
    rw [← some.inj h]
    exact pending_value hfront .string
  | primitive =>
    rw [← some.inj h]
    exact pending_value hfront .primitive
  | beginArray =>
    rw [← some.inj h]
    exact ⟨front, rfl, hfront⟩
  | beginObject =>
    rw [← some.inj h]
    exact ⟨front, rfl, hfront⟩
  | _ => simp [startValue] at h

/-- One step carries the pending tokens along; the cases are those of `step`. -/
theorem pending_step {ks : List Kind} (hc : PendingTop c ks) (h : step c k = some c') :
    PendingTop c' (ks ++ [k]) := by
  obtain ⟨stack, phase⟩ := c
  cases phase with
  | value => exact pending_startValue hc h
  | firstElement =>
    cases stack with
    | nil => exact hc.elim
    | cons frame stack =>
      cases frame with
      | object => exact hc.elim
      | array =>
        obtain ⟨front, rfl, hfront⟩ := hc
        cases k with
        | endArray =>
          -- the array ends before its first element
          rw [← some.inj h, append_assoc]
          exact pending_value hfront .emptyArray
        | _ =>
          -- otherwise the token starts an element
          have hawaits : AwaitsAll (.array :: stack) (front ++ [.beginArray]) :=
            ⟨front, [.beginArray], rfl, hfront, .inl rfl⟩
          exact pending_startValue hawaits h
  | firstMember =>
    cases stack with
    | nil => exact hc.elim
    | cons frame stack =>
      cases frame with
      | array => exact hc.elim
      | object =>
        obtain ⟨front, rfl, hfront⟩ := hc
        cases k with
        | endObject =>
          rw [← some.inj h, append_assoc]
          exact pending_value hfront .emptyObject
        | string =>
          rw [← some.inj h, append_assoc]
          exact ⟨front, [.beginObject, .string], rfl, hfront, .inl rfl⟩
        | _ => simp [step] at h
  | member =>
    cases stack with
    | nil => exact hc.elim
    | cons frame stack =>
      cases frame with
      | array => exact hc.elim
      | object =>
        obtain ⟨front, ms, rfl, hfront, hms⟩ := hc
        cases k with
        | string =>
          rw [← some.inj h, append_assoc]
          refine ⟨front, _, rfl, hfront, .inr ⟨ms, hms, ?_⟩⟩
          simp
        | _ => simp [step] at h
  | colon =>
    cases stack with
    | nil => exact hc.elim
    | cons frame stack =>
      cases frame with
      | array => exact hc.elim
      | object =>
        obtain ⟨front, top, rfl, hfront, htop⟩ := hc
        cases k with
        | nameSeparator =>
          rw [← some.inj h, append_assoc]
          exact ⟨front, _, rfl, hfront, htop⟩
        | _ => simp [step] at h
  | next =>
    cases stack with
    | nil => simp [step] at h
    | cons frame stack =>
      cases frame with
      | array =>
        obtain ⟨front, es, rfl, hfront, hes⟩ := hc
        cases k with
        | endArray =>
          rw [← some.inj h, append_assoc]
          -- the elements so far make an array
          exact pending_value hfront (.array hes)
        | valueSeparator =>
          rw [← some.inj h, append_assoc]
          exact ⟨front, _, rfl, hfront, .inr ⟨es, hes, rfl⟩⟩
        | _ => simp [step] at h
      | object =>
        obtain ⟨front, ms, rfl, hfront, hms⟩ := hc
        cases k with
        | endObject =>
          rw [← some.inj h, append_assoc]
          -- the members so far make an object
          exact pending_value hfront (.object hms)
        | valueSeparator =>
          rw [← some.inj h, append_assoc]
          exact ⟨front, ms, rfl, hfront, hms⟩
        | _ => simp [step] at h

theorem pending_run {front ks : List Kind} (hc : PendingTop c front) (h : run c ks = some c') :
    PendingTop c' (front ++ ks) := by
  induction ks generalizing c front with
  | nil =>
    rw [← some.inj h, append_nil]
    exact hc
  | cons k ks ih =>
    cases hstep : step c k with
    | none => simp [run, hstep] at h
    | some c₁ =>
      rw [run_cons hstep] at h
      rw [append_cons]
      exact ih (pending_step hc hstep) h

/-- The machine accepts exactly the token sequences of values. -/
theorem recognizes_iff (ks : List Kind) : run start ks = some done ↔ Derives .value ks := by
  constructor
  · intro h
    have hstart : PendingTop start [] := rfl
    exact pending_run hstart h
  · intro h
    exact run_of_derives h [] .value (.inl rfl)

end Config
end Rfc8259
end DeconzRest

import DeconzRest.Cj.Lenient

/-!
# Lenient token sequences and the grammar

The checks of the parser against the recognizer of the grammar.  Where the
recognizer reads a sequence, its stack is the chain of open brackets
(`run_stack`), and every token follows the ones before it (`follows_of_run`).
The other way round, a lenient sequence without a defect keeps the recognizer
going: `PhaseAt` is what its phase says about the last tokens.
-/

namespace DeconzRest
namespace Cj

open Rfc8259 Option
open Rfc8259.Config (startValue step run start done PendingTop AwaitsAll)

/-! ## One step of the recognizer -/

variable {stack : List Frame} {k : Kind} {c : Config}

theorem startValue_eq (h : startValue stack k = some c) :
    isStart k = true ∧ c.stack = pushPop stack k ∧
      (k = .beginArray ∧ c.phase = .firstElement ∨ k = .beginObject ∧ c.phase = .firstMember ∨
        (k = .string ∨ k = .primitive) ∧ c.phase = .next) := by
  cases k with
  | string | primitive | beginArray | beginObject =>
    rw [← some.inj h]
    simp [isStart, pushPop]
  | _ => simp [startValue] at h

/-- The phases and the tokens that they let through. -/
def Allows : Phase → Kind → Prop
  | .value, k => isStart k = true
  | .firstElement, k => isStart k = true ∨ k = .endArray
  | .firstMember, k => k = .string ∨ k = .endObject
  | .member, k => k = .string
  | .colon, k => k = .nameSeparator
  | .next, k => k = .valueSeparator ∨ isClose k = true

def PhaseBehind : Kind → Phase → Prop
  | .beginArray, p => p = .firstElement
  | .beginObject, p => p = .firstMember
  | .endArray, p | .endObject, p | .primitive, p => p = .next
  | .string, p => p = .next ∨ p = .colon
  | .nameSeparator, p => p = .value
  | .valueSeparator, p => p = .value ∨ p = .member

theorem phaseBehind_of_startValue (h : startValue stack k = some c) : PhaseBehind k c.phase := by
  obtain ⟨-, -, ⟨rfl, hp⟩ | ⟨rfl, hp⟩ | ⟨rfl | rfl, hp⟩⟩ := startValue_eq h
  · exact hp
  · exact hp
  · exact .inl hp
  · exact hp

theorem step_eq {c c' : Config} (h : step c k = some c') :
    Allows c.phase k ∧ c'.stack = pushPop c.stack k ∧ PhaseBehind k c'.phase := by
  revert h
  fun_cases step c k with
  | case1 stack k =>
    intro h
    have hstart := startValue_eq h
    exact ⟨hstart.1, hstart.2.1, phaseBehind_of_startValue h⟩
  | case3 stack k hne =>
    intro h
    have hstart := startValue_eq h
    exact ⟨.inl hstart.1, hstart.2.1, phaseBehind_of_startValue h⟩
  | case12 => exact fun h => absurd h.symm (some_ne_none c')
  | _ =>
    intro h
    rw [← some.inj h]
    simp [Allows, pushPop, PhaseBehind, isClose]

theorem step_frames {c c' : Config} (h : step c k = some c') :
    c.stack.count .array + [k].count .beginArray = c'.stack.count .array + [k].count .endArray ∧
      c.stack.count .object + [k].count .beginObject = c'.stack.count .object +
        [k].count .endObject := by
  have hstart : ∀ {stack : List Frame}, startValue stack k = some c' → stack.count .array +
      [k].count .beginArray = c'.stack.count .array + [k].count .endArray ∧ stack.count .object +
        [k].count .beginObject = c'.stack.count .object + [k].count .endObject := by
    intro stack hvalue
    obtain ⟨-, hstack, ⟨rfl, -⟩ | ⟨rfl, -⟩ | ⟨rfl | rfl, -⟩⟩ := startValue_eq hvalue <;>
      rw [hstack] <;> simp [pushPop]
  revert h
  fun_cases step c k with
  | case1 | case3 => exact hstart
  | case12 => exact fun h => absurd h.symm (some_ne_none c')
  | _ =>
    intro h
    rw [← some.inj h]
    simp

theorem mayFollow_of_phase {a k : Kind} {p : Phase} (ha : PhaseBehind a p) (hk : Allows p k) :
    mayFollow a k = true := by
  cases a with
  | string =>
    rcases ha with rfl | rfl
    · rcases hk with rfl | hk
      · rfl
      · simp [mayFollow, hk]
    · have hcolon : k = .nameSeparator := hk
      rw [hcolon]
      rfl
  | valueSeparator =>
    rcases ha with rfl | rfl
    · exact hk
    · have hname : k = .string := hk
      rw [hname]
      rfl
  | nameSeparator =>
    have hp : p = .value := ha
    rw [hp] at hk
    exact hk
  | primitive =>
    have hp : p = .next := ha
    rw [hp] at hk
    rcases hk with rfl | hk
    · rfl
    · simp [mayFollow, hk]
  | beginArray =>
    have hp : p = .firstElement := ha
    rw [hp] at hk
    rcases hk with hk | rfl
    · cases k <;> first | rfl | exact absurd hk (by decide)
    · rfl
  | beginObject =>
    have hp : p = .firstMember := ha
    rw [hp] at hk
    rcases hk with rfl | rfl
    · rfl
    · rfl
  | endArray | endObject =>
    have hp : p = .next := ha
    rw [hp] at hk
    rcases hk with rfl | hk
    · rfl
    · cases k <;> first | rfl | exact absurd hk (by decide)

variable {ks : List Kind}

theorem pending_nil {phase : Phase} (h : PendingTop ⟨[], phase⟩ ks) :
    phase = .next ∨ phase = .value ∧ ks = [] := by
  cases phase with
  | value => exact .inr ⟨rfl, h⟩
  | next => exact .inl rfl
  | _ => exact h.elim

theorem pending_colon (h : PendingTop ⟨stack, .colon⟩ ks) : stack.head? = some .object := by
  cases stack with
  | nil => exact h.elim
  | cons frame stack =>
    cases frame with
    | array => exact h.elim
    | object => rfl

/-! ## A whole run -/

theorem run_stack (h : run start ks = some c) : c.stack = openStack ks := by
  induction ks using List.reverseRecOn generalizing c with
  | nil =>
    rw [← some.inj h]
    rfl
  | append_singleton ks k ih =>
    obtain ⟨c₁, hks, hk⟩ := Config.run_concat.mp h
    rw [openStack_concat, ← ih hks]
    exact (step_eq hk).2.1

theorem run_frames (h : run start ks = some c) :
    ks.count .beginArray = c.stack.count .array + ks.count .endArray ∧ ks.count .beginObject =
      c.stack.count .object + ks.count .endObject := by
  induction ks using List.reverseRecOn generalizing c with
  | nil =>
    rw [← some.inj h]
    exact ⟨rfl, rfl⟩
  | append_singleton ks k ih =>
    obtain ⟨c₁, hks, hk⟩ := Config.run_concat.mp h
    have hstep := step_frames hk
    have hrun := ih hks
    simp only [List.count_append]
    omega

theorem run_pending (h : run start ks = some c) : PendingTop c ks := by
  have hstart : PendingTop start [] := rfl
  exact Config.pending_run hstart h

variable {front : List Kind}

theorem follows_of_run {c c' : Config} (h : run start front = some c) (hk : step c k = some c') :
    Follows front k := by
  have hpending := run_pending h
  have hframes := run_frames h
  have hstep := step_frames hk
  have hstack := run_stack h
  obtain ⟨hallows, -, -⟩ := step_eq hk
  refine ⟨?_, ?_, ?_, ?_, ?_, ?_⟩
  · intro hopen
    rw [← hstack]
    by_cases hnil : c.stack = []
    · obtain ⟨stack, phase⟩ := c
      have hstacknil : stack = [] := hnil
      rw [hstacknil] at hpending
      rcases pending_nil hpending with rfl | ⟨-, hfront⟩
      · rcases hopen with rfl | rfl
        · exact absurd hallows (by simp [Allows, isClose])
        · exact absurd hallows (by simp [Allows, isClose])
      · exact .inl hfront
    · exact .inr hnil
  · rintro rfl
    simp at hstep
    omega
  · rintro rfl
    simp at hstep
    omega
  · rintro rfl
    obtain ⟨stack, phase⟩ := c
    have hcolon : phase = .colon := by
      cases phase with
      | colon => rfl
      | _ => exact absurd hallows (by simp [Allows, isStart, isClose])
    rw [hcolon] at hpending
    rw [← hstack]
    exact pending_colon hpending
  · rintro rfl
    rw [← hstack]
    intro hnil
    obtain ⟨stack, phase⟩ := c
    have hstacknil : stack = [] := hnil
    rw [hstacknil] at hk
    cases phase <;> simp [step, startValue] at hk
  · intro a ha
    obtain ⟨rest, rfl⟩ := List.getLast?_eq_some_iff.mp ha
    obtain ⟨c₀, -, hprev⟩ := Config.run_concat.mp h
    exact mayFollow_of_phase (step_eq hprev).2.2 hallows

theorem admissible_of_run (h : run start ks = some c) : Admissible ks := by
  induction ks using List.reverseRecOn generalizing c with
  | nil => exact admissible_nil
  | append_singleton ks k ih =>
    obtain ⟨c₁, hks, hk⟩ := Config.run_concat.mp h
    rw [admissible_concat]
    exact ⟨ih hks, follows_of_run hks hk⟩

theorem lenient_of_derives (h : Derives .value ks) : Lenient ks := by
  have hrun := (Config.recognizes_iff ks).mpr h
  obtain ⟨harrays, hobjects⟩ := run_frames hrun
  obtain ⟨-, hcommas⟩ := counts_of_derives h []
  refine ⟨h.ne_nil, admissible_of_run hrun, ?_, ?_, ?_, hcommas⟩
  · simpa [done] using harrays.symm
  · simpa [done] using hobjects.symm
  · intro hopen
    obtain ⟨rest, k, rfl⟩ := List.eq_nil_or_concat ks |>.resolve_left h.ne_nil
    rw [List.concat_eq_append] at hrun hopen ⊢
    refine ⟨k, List.getLast?_concat, ?_⟩
    obtain ⟨⟨stack, phase⟩, hrest, hk⟩ := Config.run_concat.mp hrun
    obtain ⟨hallows, hstack, hphase⟩ := step_eq hk
    have hpending := run_pending hrest
    have hsingle : isClose k = true ∨ k = .string ∨ k = .primitive := by
      cases k with
      | endArray | endObject => exact .inl rfl
      | string => exact .inr (.inl rfl)
      | primitive => exact .inr (.inr rfl)
      | _ => exact absurd hphase (by simp [PhaseBehind, done])
    rcases hsingle with hclose | hsingle
    · exact hclose
    · -- a string or a primitive that ends a run is the whole run
      have hnil : stack = [] := by
        rcases hsingle with rfl | rfl
        · exact hstack.symm
        · exact hstack.symm
      rw [hnil] at hpending
      rcases pending_nil hpending with rfl | ⟨-, rfl⟩
      · rcases hsingle with rfl | rfl
        · exact absurd hallows (by simp [Allows, isClose])
        · exact absurd hallows (by simp [Allows, isClose])
      · rcases hsingle with rfl | rfl
        · exact absurd hopen (by decide)
        · exact absurd hopen (by decide)

/-! ## A value has no defect -/

theorem run_split {front back : List Kind} (h : run start (front ++ k :: back) = some c) :
    ∃ c₁ c₂, run start front = some c₁ ∧ step c₁ k = some c₂ ∧ run c₂ back = some c := by
  obtain ⟨c₁, hfront, hrest⟩ := Config.run_append_eq_some h
  cases hk : step c₁ k with
  | none => simp [run, hk] at hrest
  | some c₂ =>
    rw [Config.run_cons hk] at hrest
    exact ⟨c₁, c₂, hfront, hk, hrest⟩

theorem run_cons_split {back : List Kind} {c c' : Config} (h : run c (k :: back) = some c') :
    ∃ c₁, step c k = some c₁ ∧ run c₁ back = some c' := by
  cases hk : step c k with
  | none => simp [run, hk] at h
  | some c₁ =>
    rw [Config.run_cons hk] at h
    exact ⟨c₁, rfl, h⟩

theorem phase_of_startsMember {a : Kind} {c c' : Config} (h : run start front = some c)
    (hstep : step c a = some c') (ha : StartsMember front a) :
    (a = .beginObject ∧ c'.phase = .firstMember) ∨ (a = .valueSeparator ∧ c'.phase = .member) := by
  rcases ha with rfl | ⟨rfl, hopen⟩
  · exact .inl ⟨rfl, (step_eq hstep).2.2⟩
  · refine .inr ⟨rfl, ?_⟩
    rw [← run_stack h] at hopen
    obtain ⟨stack, phase⟩ := c
    obtain ⟨rest, hobject⟩ := List.head?_eq_some_iff.mp hopen
    have hframe : stack = .object :: rest := hobject
    rw [hframe] at hstep
    cases phase <;> simp [step, startValue] at hstep
    rw [← hstep]

theorem not_defect_of_run (h : run start ks = some c) : ¬ Defect ks := by
  intro hdefect
  cases hdefect with
  | closedAsArray front back heq hopen =>
    rw [heq] at h
    obtain ⟨c₁, c₂, hfront, hk, -⟩ := run_split h
    rw [← run_stack hfront] at hopen
    obtain ⟨stack, phase⟩ := c₁
    obtain ⟨rest, hhead⟩ := List.head?_eq_some_iff.mp hopen
    have hframe : stack = .object :: rest := hhead
    rw [hframe] at hk
    cases phase <;> simp [step, startValue] at hk
  | closedAsObject front back heq hopen =>
    rw [heq] at h
    obtain ⟨c₁, c₂, hfront, hk, -⟩ := run_split h
    rw [← run_stack hfront] at hopen
    obtain ⟨stack, phase⟩ := c₁
    obtain ⟨rest, hhead⟩ := List.head?_eq_some_iff.mp hopen
    have hframe : stack = .array :: rest := hhead
    rw [hframe] at hk
    cases phase <;> simp [step, startValue] at hk
  | noComma front back a b heq ha hb =>
    rw [heq] at h
    obtain ⟨c₁, c₂, -, hk, hrest⟩ := run_split h
    obtain ⟨c₃, hk₂, -⟩ := run_cons_split hrest
    obtain ⟨-, -, hphase⟩ := step_eq hk
    have hnext : c₂.phase = .next := by
      cases a with
      | endArray | endObject => exact hphase
      | _ => exact absurd ha (by decide)
    have hallows := (step_eq hk₂).1
    rw [hnext] at hallows
    rcases hallows with rfl | hclose
    · exact absurd hb (by decide)
    · cases b <;> simp [isStart, isClose] at hb hclose
  | noName front back a b heq ha hb hempty =>
    rw [heq] at h
    obtain ⟨c₁, c₂, hfront, hk, hrest⟩ := run_split h
    obtain ⟨c₃, hk₂, -⟩ := run_cons_split hrest
    have hallows := (step_eq hk₂).1
    rcases phase_of_startsMember hfront hk ha with ⟨hobject, hphase⟩ | ⟨-, hphase⟩
    · rw [hphase] at hallows
      rcases hallows with hname | hend
      · exact hb hname
      · exact hempty hobject hend
    · rw [hphase] at hallows
      exact hb hallows
  | noColon front back a b heq ha hb =>
    rw [heq] at h
    obtain ⟨c₁, c₂, hfront, hk, hrest⟩ := run_split h
    obtain ⟨c₃, hk₂, hrest₂⟩ := run_cons_split hrest
    obtain ⟨c₄, hk₃, -⟩ := run_cons_split hrest₂
    have hcolon : c₃.phase = .colon := by
      obtain ⟨stack, phase⟩ := c₂
      rcases phase_of_startsMember hfront hk ha with ⟨-, rfl⟩ | ⟨-, rfl⟩
      · cases stack with
        | nil => simp [step] at hk₂; rw [← hk₂]
        | cons frame stack => cases frame <;> (simp [step] at hk₂; rw [← hk₂])
      · simp [step] at hk₂
        rw [← hk₂]
    have hallows := (step_eq hk₃).1
    rw [hcolon] at hallows
    exact hb hallows
  | secondColon front back heq =>
    rw [heq] at h
    obtain ⟨c₁, c₂, -, hk, hrest⟩ := run_split h
    obtain ⟨c₃, hk₂, hrest₂⟩ := run_cons_split hrest
    obtain ⟨c₄, hk₃, -⟩ := run_cons_split hrest₂
    obtain ⟨-, -, hphase⟩ := step_eq hk
    have hvalue : c₂.phase = .value := hphase
    obtain ⟨stack, phase⟩ := c₂
    have hp : phase = .value := hvalue
    rw [hp] at hk₂
    have hnext : c₃.phase = .next := by
      rw [← some.inj hk₂]
    have hallows := (step_eq hk₃).1
    rw [hnext] at hallows
    exact absurd hallows (by simp [Allows, isClose])

/-! ## Without a defect a lenient sequence is a value -/

theorem Defect.append (h : Defect ks) (more : List Kind) : Defect (ks ++ more) := by
  cases h with
  | closedAsArray front back heq hopen =>
    exact .closedAsArray front (back ++ more) (by rw [heq]; simp) hopen
  | closedAsObject front back heq hopen =>
    exact .closedAsObject front (back ++ more) (by rw [heq]; simp) hopen
  | noComma front back a b heq ha hb =>
    exact .noComma front (back ++ more) a b (by rw [heq]; simp) ha hb
  | noName front back a b heq ha hb hempty =>
    exact .noName front (back ++ more) a b (by rw [heq]; simp) ha hb hempty
  | noColon front back a b heq ha hb =>
    exact .noColon front (back ++ more) a b (by rw [heq]; simp) ha hb
  | secondColon front back heq => exact .secondColon front (back ++ more) (by rw [heq]; simp)

/-- What the last tokens are when the recognizer is in a phase. -/
def PhaseAt (ks : List Kind) : Phase → Prop
  | .value => ks = [] ∨ (∃ front, ks = front ++ [.nameSeparator]) ∨
      (∃ front, ks = front ++ [.valueSeparator]) ∧ (openStack ks).head? = some .array
  | .firstElement => ∃ front, ks = front ++ [.beginArray]
  | .firstMember => ∃ front, ks = front ++ [.beginObject]
  | .member => (∃ front, ks = front ++ [.valueSeparator]) ∧ (openStack ks).head? = some .object
  | .colon => ∃ front a, ks = front ++ [a, .string] ∧ StartsMember front a
  | .next => ∃ front a, ks = front ++ [a] ∧
      (isClose a = true ∨ a = .primitive ∨ a = .string ∧
        ((∃ outer, front = outer ++ [.nameSeparator]) ∨ (openStack front).head? ≠ some .object))

theorem phaseAt_startValue (hk : isStart k = true)
    (hplace : (∃ front, ks = front ++ [.nameSeparator]) ∨ (openStack ks).head? ≠ some .object) :
    ∃ c, startValue (openStack ks) k = some c ∧ c.stack = openStack (ks ++ [k]) ∧
      PhaseAt (ks ++ [k]) c.phase := by
  rw [openStack_concat]
  cases k with
  | string => exact ⟨_, rfl, rfl, ks, _, rfl, .inr (.inr ⟨rfl, hplace⟩)⟩
  | primitive => exact ⟨_, rfl, rfl, ks, _, rfl, .inr (.inl rfl)⟩
  | beginArray => exact ⟨_, rfl, rfl, ks, rfl⟩
  | beginObject => exact ⟨_, rfl, rfl, ks, rfl⟩
  | _ => exact absurd hk (by decide)

theorem exists_open (hadmissible : Admissible ks) (hk : Follows ks k) (hclose : isClose k = true) :
    ∃ frame rest, openStack ks = frame :: rest := by
  obtain ⟨harray, hobject, hlength⟩ := length_openStack hadmissible
  refine List.exists_cons_of_length_pos ?_
  cases k with
  | endArray =>
    have hlt := hk.endsArray rfl
    omega
  | endObject =>
    have hlt := hk.endsObject rfl
    omega
  | _ => exact absurd hclose (by decide)

theorem step_of_follows_next {a k : Kind} (hadmissible : Admissible (front ++ [a]))
    (hk : Follows (front ++ [a]) k)
    (ha : isClose a = true ∨ a = .primitive ∨ a = .string ∧
      ((∃ outer, front = outer ++ [.nameSeparator]) ∨ (openStack front).head? ≠ some .object))
    (hno : ¬ Defect (front ++ [a] ++ [k])) :
    ∃ c, step ⟨openStack (front ++ [a]), .next⟩ k = some c ∧ c.stack =
      openStack (front ++ [a] ++ [k]) ∧ PhaseAt (front ++ [a] ++ [k]) c.phase := by
  have hadjacent := hk.adjacent a List.getLast?_concat
  have hstart : isStart k = false := by
    cases hstart : isStart k with
    | false => rfl
    | true =>
      rcases ha with hclose | rfl | ⟨rfl, -⟩
      · refine absurd (.noComma front [] a k ?_ hclose hstart) hno
        simp
      · cases k <;> simp [mayFollow, isClose, isStart] at hadjacent hstart
      · cases k <;> simp [mayFollow, isClose, isStart] at hadjacent hstart
  cases k with
  | endArray =>
    obtain ⟨frame, rest, hopen⟩ := exists_open hadmissible hk rfl
    cases frame with
    | object =>
      exact absurd (.closedAsArray (front ++ [a]) [] rfl (by rw [hopen]; rfl)) hno
    | array =>
      have hstack : openStack (front ++ [a] ++ [.endArray]) = rest := by
        rw [openStack_concat, hopen]
        rfl
      rw [hopen, hstack]
      exact ⟨_, rfl, rfl, front ++ [a], _, rfl, .inl rfl⟩
  | endObject =>
    obtain ⟨frame, rest, hopen⟩ := exists_open hadmissible hk rfl
    cases frame with
    | array =>
      exact absurd (.closedAsObject (front ++ [a]) [] rfl (by rw [hopen]; rfl)) hno
    | object =>
      have hstack : openStack (front ++ [a] ++ [.endObject]) = rest := by
        rw [openStack_concat, hopen]
        rfl
      rw [hopen, hstack]
      exact ⟨_, rfl, rfl, front ++ [a], _, rfl, .inl rfl⟩
  | valueSeparator =>
    obtain ⟨frame, rest, hopen⟩ := List.exists_cons_of_ne_nil (hk.comma rfl)
    have hstack : openStack (front ++ [a] ++ [.valueSeparator]) = frame :: rest := by
      rw [openStack_concat, hopen]
      rfl
    rw [hopen, hstack]
    cases frame with
    | array => exact ⟨_, rfl, rfl, .inr (.inr ⟨⟨_, rfl⟩, by rw [hstack]; rfl⟩)⟩
    | object => exact ⟨_, rfl, rfl, ⟨_, rfl⟩, by rw [hstack]; rfl⟩
  | nameSeparator =>
    have hobject := hk.colon rfl
    rcases ha with hclose | rfl | ⟨rfl, ⟨outer, rfl⟩ | hplace⟩
    · cases a <;> simp [mayFollow, isClose] at hadjacent hclose
    · exact absurd hadjacent (by decide)
    · refine absurd (.secondColon outer [] ?_) hno
      simp
    · rw [openStack_concat] at hobject
      exact absurd hobject hplace
  | _ => exact absurd hstart (by decide)

theorem step_of_follows {phase : Phase} (hadmissible : Admissible ks) (hphase : PhaseAt ks phase)
    (hk : Follows ks k) (hno : ¬ Defect (ks ++ [k])) :
    ∃ c, step ⟨openStack ks, phase⟩ k = some c ∧ c.stack = openStack (ks ++ [k]) ∧
      PhaseAt (ks ++ [k]) c.phase := by
  cases phase with
  | value =>
    -- at the start, behind a colon, or behind a comma of an array
    rcases hphase with rfl | ⟨front, rfl⟩ | ⟨⟨front, rfl⟩, harray⟩
    · have hstart : isStart k = true := by
        cases k with
        | endArray => exact absurd (hk.endsArray rfl) (by decide)
        | endObject => exact absurd (hk.endsObject rfl) (by decide)
        | nameSeparator => exact absurd (hk.colon rfl) (by decide)
        | valueSeparator => exact absurd rfl (hk.comma rfl)
        | _ => rfl
      exact phaseAt_startValue hstart (.inr (by simp [openStack]))
    · have hstart := hk.adjacent _ List.getLast?_concat
      exact phaseAt_startValue hstart (.inl ⟨front, rfl⟩)
    · have hstart := hk.adjacent _ List.getLast?_concat
      refine phaseAt_startValue hstart (.inr ?_)
      rw [harray]
      decide
  | firstElement =>
    obtain ⟨front, rfl⟩ := hphase
    have hopen : openStack (front ++ [.beginArray]) = .array :: openStack front := by
      rw [openStack_concat]
      rfl
    have hadjacent := hk.adjacent _ List.getLast?_concat
    by_cases hstart : isStart k = true
    · obtain ⟨c, hc, hstack, hphase⟩ := phaseAt_startValue hstart
        (.inr (by rw [hopen]; simp))
      refine ⟨c, ?_, hstack, hphase⟩
      rw [hopen] at hc ⊢
      cases k with
      | endArray => exact absurd hstart (by decide)
      | _ => exact hc
    · cases k with
      | endArray =>
        have hstack : openStack (front ++ [.beginArray] ++ [.endArray]) = openStack front := by
          rw [openStack_concat, hopen]
          rfl
        rw [hopen, hstack]
        exact ⟨_, rfl, rfl, _, _, rfl, .inl rfl⟩
      -- the array would be closed as an object
      | endObject =>
        exact absurd (.closedAsObject _ [] rfl (by rw [hopen]; rfl)) hno
      | nameSeparator | valueSeparator => exact absurd hadjacent (by decide)
      | _ => exact absurd rfl hstart
  | firstMember =>
    obtain ⟨front, rfl⟩ := hphase
    have hopen : openStack (front ++ [.beginObject]) = .object :: openStack front := by
      rw [openStack_concat]
      rfl
    by_cases hend : k = .endObject
    · have hstack : openStack (front ++ [.beginObject] ++ [.endObject]) = openStack front := by
        rw [openStack_concat, hopen]
        rfl
      rw [hend, hopen, hstack]
      exact ⟨_, rfl, rfl, _, _, rfl, .inl rfl⟩
    · by_cases hname : k = .string
      · have hstack : openStack (front ++ [.beginObject] ++ [.string]) = .object ::
            openStack front := by
          rw [openStack_concat, hopen]
          rfl
        rw [hname, hopen, hstack]
        exact ⟨_, rfl, rfl, front, _, by simp, .inl rfl⟩
      · -- a member without a name
        refine absurd (.noName front [] .beginObject k ?_ (.inl rfl) hname fun _ => hend) hno
        simp
  | member =>
    obtain ⟨⟨front, rfl⟩, hobject⟩ := hphase
    rw [openStack_concat] at hobject
    have hstarts : StartsMember front .valueSeparator := .inr ⟨rfl, hobject⟩
    by_cases hname : k = .string
    · rw [hname]
      refine ⟨_, rfl, ?_, front, _, by simp, hstarts⟩
      rw [openStack_concat (k := .string)]
      rfl
    · refine absurd (.noName front [] .valueSeparator k ?_ hstarts hname ?_) hno
      · simp
      · intro habsurd
        exact absurd habsurd (by decide)
  | colon =>
    obtain ⟨front, a, rfl, hstarts⟩ := hphase
    by_cases hcolon : k = .nameSeparator
    · rw [hcolon]
      refine ⟨_, rfl, ?_, .inr (.inl ⟨_, rfl⟩)⟩
      rw [openStack_concat]
      rfl
    · -- a name without a colon
      refine absurd (.noColon front [] a k ?_ hstarts hcolon) hno
      simp
  | next =>
    obtain ⟨front, a, rfl, ha⟩ := hphase
    exact step_of_follows_next hadmissible hk ha hno

theorem run_of_admissible (h : Admissible ks) (hno : ¬ Defect ks) :
    ∃ c, run start ks = some c ∧ c.stack = openStack ks ∧ PhaseAt ks c.phase := by
  induction ks using List.reverseRecOn with
  | nil => exact ⟨start, rfl, rfl, .inl rfl⟩
  | append_singleton ks k ih =>
    rw [admissible_concat] at h
    obtain ⟨⟨stack, phase⟩, hrun, hstack, hphase⟩ := ih h.1 fun hdefect => hno (hdefect.append [k])
    obtain ⟨c, hstep, hc⟩ := step_of_follows h.1 hphase h.2 hno
    have hsame : stack = openStack ks := hstack
    rw [← hsame] at hstep
    exact ⟨c, Config.run_concat.mpr ⟨_, hrun, hstep⟩, hc⟩

theorem derives_iff (ks : List Kind) : Derives .value ks ↔ Lenient ks ∧ ¬ Defect ks := by
  constructor
  · intro h
    exact ⟨lenient_of_derives h, not_defect_of_run ((Config.recognizes_iff ks).mpr h)⟩
  · rintro ⟨hlenient, hno⟩
    obtain ⟨⟨stack, phase⟩, hrun, hstack, hphase⟩ := run_of_admissible hlenient.admissible hno
    have hnil : openStack ks = [] :=
      (openStack_eq_nil_iff hlenient.admissible).mpr ⟨hlenient.arrays, hlenient.objects⟩
    have hsame : stack = [] := hstack.trans hnil
    rw [hsame] at hrun
    have hpending := run_pending hrun
    rcases pending_nil hpending with rfl | ⟨-, hempty⟩
    · exact hpending
    · exact absurd hempty hlenient.nonempty

end Cj
end DeconzRest

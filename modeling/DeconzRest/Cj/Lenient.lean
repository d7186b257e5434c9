import DeconzRest.Lib.JsonRecognizer
import Mathlib.Data.List.Induction

/-!
# What the parser asks of a token sequence

`cj_parse` has no stack of brackets.  It counts opening and closing brackets of
each kind, looks at the token before, and follows the parent chain, which closing
brackets of either kind walk up.  `Follows` says what it asks of one token behind
the tokens so far, and `Lenient` what it asks of all of them.

That is less than the grammar asks.  `Defect` lists what the checks cannot see:
a bracket closed by one of the other kind, a value right behind a closing
bracket, a member without a name, without a colon or with two of them.
`derives_iff` says that nothing else is missing.
-/

namespace DeconzRest
namespace Cj

open Rfc8259 List

/-- The chain of open brackets behind a token, innermost first.  A closing bracket
takes one away, whatever its kind. -/
def pushPop (stack : List Frame) : Kind → List Frame
  | .beginArray => .array :: stack
  | .beginObject => .object :: stack
  | .endArray | .endObject => stack.tail
  | _ => stack

def openStack (ks : List Kind) : List Frame := ks.foldl pushPop []

/-- One for a comma whose innermost open bracket is a brace. -/
def objectComma : List Frame → Kind → Nat
  | .object :: _, .valueSeparator => 1
  | _, _ => 0

/-- The commas between the members of objects. -/
def objectCommasFrom : List Frame → List Kind → Nat
  | _, [] => 0
  | stack, k :: ks => objectComma stack k + objectCommasFrom (pushPop stack k) ks

def objectCommas (ks : List Kind) : Nat := objectCommasFrom [] ks

def isStart : Kind → Bool
  | .string | .primitive | .beginArray | .beginObject => true
  | _ => false

def isClose : Kind → Bool
  | .endArray | .endObject => true
  | _ => false

/-- The neighbours that the parser lets through. -/
def mayFollow (a b : Kind) : Bool :=
  match a with
  | .nameSeparator | .valueSeparator => isStart b
  | .primitive => isClose b || b = .valueSeparator
  | .string => isClose b || b = .valueSeparator || b = .nameSeparator
  | .beginArray | .beginObject => !(b = .valueSeparator || b = .nameSeparator)
  | .endArray | .endObject => !(b = .nameSeparator)

/-- What the parser asks of the token `k` behind the tokens `front`. -/
structure Follows (front : List Kind) (k : Kind) : Prop where
  opens : k = .beginArray ∨ k = .beginObject → front = [] ∨ openStack front ≠ []
  endsArray : k = .endArray → front.count .endArray < front.count .beginArray
  endsObject : k = .endObject → front.count .endObject < front.count .beginObject
  colon : k = .nameSeparator → (openStack front).head? = some .object
  comma : k = .valueSeparator → openStack front ≠ []
  adjacent : ∀ a, front.getLast? = some a → mayFollow a k = true

/-- Every token follows the ones before it. -/
def Admissible (ks : List Kind) : Prop :=
  ∀ front k back, ks = front ++ k :: back → Follows front k

/-- What the parser asks of a whole token sequence. -/
structure Lenient (ks : List Kind) : Prop where
  nonempty : ks ≠ []
  admissible : Admissible ks
  arrays : ks.count .endArray = ks.count .beginArray
  objects : ks.count .endObject = ks.count .beginObject
  last : .beginArray ∈ ks ∨ .beginObject ∈ ks → ∃ k, ks.getLast? = some k ∧ isClose k = true
  commas : objectCommas ks = 0 ∨ objectCommas ks < ks.count .nameSeparator

/-- The token `a` behind `front` is one behind which a member of an object starts. -/
def StartsMember (front : List Kind) (a : Kind) : Prop :=
  a = .beginObject ∨ a = .valueSeparator ∧ (openStack front).head? = some .object

/-- What is wrong with a token sequence although the parser lets it through. -/
inductive Defect (ks : List Kind) : Prop where
  /-- `{ ]` -/
  | closedAsArray (front back : List Kind) (heq : ks = front ++ .endArray :: back)
      (hopen : (openStack front).head? = some .object)
  /-- `[ }` -/
  | closedAsObject (front back : List Kind) (heq : ks = front ++ .endObject :: back)
      (hopen : (openStack front).head? = some .array)
  /-- `] 1` -/
  | noComma (front back : List Kind) (a b : Kind) (heq : ks = front ++ a :: b :: back)
      (ha : isClose a = true) (hb : isStart b = true)
  /-- `{ 1` -/
  | noName (front back : List Kind) (a b : Kind) (heq : ks = front ++ a :: b :: back)
      (ha : StartsMember front a) (hb : b ≠ .string) (hempty : a = .beginObject → b ≠ .endObject)
  /-- `{ "a" }` -/
  | noColon (front back : List Kind) (a b : Kind) (heq : ks = front ++ a :: .string :: b :: back)
      (ha : StartsMember front a) (hb : b ≠ .nameSeparator)
  /-- `: "b" :` -/
  | secondColon (front back : List Kind)
      (heq : ks = front ++ .nameSeparator :: .string :: .nameSeparator :: back)

@[simp] theorem openStack_nil : openStack [] = [] := rfl

@[simp] theorem openStack_concat (ks : List Kind) (k : Kind) :
    openStack (ks ++ [k]) = pushPop (openStack ks) k := by
  simp [openStack]

theorem objectCommasFrom_append (stack : List Frame) (xs ys : List Kind) :
    objectCommasFrom stack (xs ++ ys) = objectCommasFrom stack xs +
      objectCommasFrom (xs.foldl pushPop stack) ys := by
  induction xs generalizing stack with
  | nil => simp [objectCommasFrom]
  | cons k xs ih =>
    rw [cons_append, foldl_cons]
    simp only [objectCommasFrom]
    rw [ih, Nat.add_assoc]

theorem objectCommas_concat (ks : List Kind) (k : Kind) :
    objectCommas (ks ++ [k]) = objectCommas ks + objectComma (openStack ks) k :=
  objectCommasFrom_append [] ks [k]

theorem admissible_nil : Admissible [] := by
  intro front k back heq
  exact absurd heq (by simp)

theorem admissible_concat (ks : List Kind) (k : Kind) :
    Admissible (ks ++ [k]) ↔ Admissible ks ∧ Follows ks k := by
  constructor
  · intro h
    refine ⟨fun front a back heq => ?_, h ks k [] rfl⟩
    exact h front a (back ++ [k]) (by rw [heq]; simp)
  · rintro ⟨hks, hk⟩ front a back heq
    rcases eq_nil_or_concat back with rfl | ⟨back, b, rfl⟩
    · obtain ⟨rfl, hak⟩ := append_inj' heq rfl
      rw [← singleton_inj.mp hak]
      exact hk
    · rw [concat_eq_append, ← cons_append, ← append_assoc] at heq
      obtain ⟨rfl, -⟩ := append_inj' heq rfl
      exact hks front a back rfl

theorem length_openStack {ks : List Kind} (h : Admissible ks) :
    ks.count .endArray ≤ ks.count .beginArray ∧ ks.count .endObject ≤ ks.count .beginObject ∧
      (openStack ks).length + ks.count .endArray + ks.count .endObject = ks.count .beginArray +
        ks.count .beginObject := by
  induction ks using List.reverseRecOn with
  | nil => simp
  | append_singleton ks k ih =>
    rw [admissible_concat] at h
    obtain ⟨harray, hobject, hlength⟩ := ih h.1
    rw [openStack_concat]
    simp only [count_append]
    cases k with
    | endArray =>
      have hlt := h.2.endsArray rfl
      have htail : (openStack ks).tail.length = (openStack ks).length - 1 := length_tail
      simp [pushPop]
      omega
    | endObject =>
      have hlt := h.2.endsObject rfl
      have htail : (openStack ks).tail.length = (openStack ks).length - 1 := length_tail
      simp [pushPop]
      omega
    | _ =>
      simp [pushPop]
      omega

theorem openStack_eq_nil_iff {ks : List Kind} (h : Admissible ks) :
    openStack ks = [] ↔ ks.count .endArray = ks.count .beginArray ∧ ks.count .endObject =
      ks.count .beginObject := by
  obtain ⟨harray, hobject, hlength⟩ := length_openStack h
  rw [← length_eq_zero_iff]
  omega

/-! ## The grammar is lenient -/

theorem objectComma_of_ne (stack : List Frame) {k : Kind} (h : k ≠ .valueSeparator) :
    objectComma stack k = 0 := by
  cases k with
  | valueSeparator => exact absurd rfl h
  | _ => cases stack with
    | nil => rfl
    | cons frame stack => cases frame <;> rfl

theorem counts_of_derives {category : Category} {ks : List Kind} (h : Derives category ks) :
    match category with
    | .value => ∀ stack, ks.foldl pushPop stack = stack ∧
        (objectCommasFrom stack ks = 0 ∨ objectCommasFrom stack ks < ks.count .nameSeparator)
    | .elements => ∀ stack, ks.foldl pushPop (.array :: stack) = .array :: stack ∧
        (objectCommasFrom (.array :: stack) ks = 0 ∨ objectCommasFrom (.array :: stack) ks <
          ks.count .nameSeparator)
    | .members => ∀ stack, ks.foldl pushPop (.object :: stack) = .object :: stack ∧
        objectCommasFrom (.object :: stack) ks < ks.count .nameSeparator := by
  induction h with
  | string | primitive | emptyArray | emptyObject =>
    intro stack
    refine ⟨rfl, .inl ?_⟩
    simp [objectCommasFrom, objectComma_of_ne]
  | @array es _ ih =>
    intro stack
    obtain ⟨hfold, hcommas⟩ := ih stack
    refine ⟨?_, ?_⟩
    · rw [foldl_cons, foldl_append]
      show List.foldl pushPop (es.foldl pushPop (.array :: stack)) [.endArray] = stack
      rw [hfold]
      rfl
    · simp only [objectCommasFrom, objectCommasFrom_append]
      rw [show pushPop stack .beginArray = .array :: stack from rfl,
        objectComma_of_ne _ (by decide), objectComma_of_ne _ (by decide)]
      simpa [count_cons] using hcommas
  | @object ms _ ih =>
    intro stack
    obtain ⟨hfold, hcommas⟩ := ih stack
    refine ⟨?_, .inr ?_⟩
    · rw [foldl_cons, foldl_append]
      show List.foldl pushPop (ms.foldl pushPop (.object :: stack)) [.endObject] = stack
      rw [hfold]
      rfl
    · simp only [objectCommasFrom, objectCommasFrom_append]
      rw [show pushPop stack .beginObject = .object :: stack from rfl,
        objectComma_of_ne _ (by decide), objectComma_of_ne _ (by decide)]
      simpa [count_cons] using hcommas
  | element _ ih =>
    intro stack
    exact ih (.array :: stack)
  | @elements es v _ _ ihes ihv =>
    intro stack
    obtain ⟨hfold, hcommas⟩ := ihes stack
    obtain ⟨hfoldv, hcommasv⟩ := ihv (.array :: stack)
    refine ⟨?_, ?_⟩
    · rw [foldl_append, hfold]
      exact hfoldv
    · rw [objectCommasFrom_append, hfold, count_append]
      have hcomma : objectCommasFrom (.array :: stack) (.valueSeparator :: v) =
          objectCommasFrom (.array :: stack) v := Nat.zero_add _
      have hcount : (Kind.valueSeparator :: v).count .nameSeparator = v.count .nameSeparator := by
        simp
      omega
  | @member v _ ih =>
    intro stack
    obtain ⟨hfold, hcommas⟩ := ih (.object :: stack)
    refine ⟨hfold, ?_⟩
    have hnone : objectCommasFrom (.object :: stack) (.string :: .nameSeparator :: v) =
        objectCommasFrom (.object :: stack) v := by
      show 0 + (0 + objectCommasFrom (.object :: stack) v) = _
      omega
    have hcount : (Kind.string :: Kind.nameSeparator :: v).count .nameSeparator =
        v.count .nameSeparator + 1 := by
      simp
    omega
  | @members ms v _ _ ihms ihv =>
    intro stack
    obtain ⟨hfold, hcommas⟩ := ihms stack
    obtain ⟨hfoldv, hcommasv⟩ := ihv (.object :: stack)
    refine ⟨?_, ?_⟩
    · rw [foldl_append, hfold]
      exact hfoldv
    · rw [objectCommasFrom_append, hfold, count_append]
      have hone : objectCommasFrom (.object :: stack)
          (.valueSeparator :: .string :: .nameSeparator :: v) =
            objectCommasFrom (.object :: stack) v + 1 := by
        show 1 + (0 + (0 + objectCommasFrom (.object :: stack) v)) = _
        omega
      have hcount : (Kind.valueSeparator :: .string :: .nameSeparator :: v).count
          .nameSeparator = v.count .nameSeparator + 1 := by
        simp
      omega

end Cj
end DeconzRest

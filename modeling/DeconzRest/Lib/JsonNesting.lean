import DeconzRest.Lib.JsonGrammar
import Mathlib.Data.List.Induction

/-!
# Nesting in token sequences

Which opening bracket a token stands in, by the index of that bracket.
-/

namespace DeconzRest
namespace Rfc8259

open List

/-- The open brackets behind the token `k`, which has the index `i` -/
def openAfter (i : Nat) (stack : List Nat) : Kind → List Nat
  | .beginArray | .beginObject => i :: stack
  | .endArray | .endObject => stack.tail
  | _ => stack

/-- The open brackets behind tokens from the index `i` on -/
def openFrom : Nat → List Nat → List Kind → List Nat
  | _, stack, [] => stack
  | i, stack, k :: ks => openFrom (i + 1) (openAfter i stack k) ks

/-- The open brackets behind the first tokens of a text -/
def openIndices (ks : List Kind) : List Nat := openFrom 0 [] ks

/-- The colons, of tokens from the index `i` on, whose innermost open bracket is `target` -/
def colonsIn (target : Nat) : Nat → List Nat → List Kind → List Nat
  | _, _, [] => []
  | i, stack, k :: ks =>
    if k = .nameSeparator ∧ stack.head? = some target then
      i :: colonsIn target (i + 1) (openAfter i stack k) ks
    else colonsIn target (i + 1) (openAfter i stack k) ks

/-- The indices of the names in a list of members that starts at the index `i`.  Behind a name stand
the colon and the value of the member. -/
inductive MemberNames : Nat → List Kind → List Nat → Prop where
  | member {i : Nat} {v : List Kind} (hv : Derives .value v) :
      MemberNames i (.string :: .nameSeparator :: v) [i]
  | members {i : Nat} {ms v : List Kind} {names : List Nat} (hms : MemberNames i ms names)
      (hv : Derives .value v) :
      MemberNames i (ms ++ .valueSeparator :: .string :: .nameSeparator :: v)
        (names ++ [i + ms.length + 1])

/-- The brace with the index `obj` opens an object, and `names` are the indices of the names of its
members, in order. -/
def ObjectAt (ks : List Kind) (obj : Nat) (names : List Nat) : Prop :=
  ∃ front ms back, ks = front ++ .beginObject :: (ms ++ .endObject :: back) ∧ front.length = obj ∧
    (ms = [] ∧ names = [] ∨ MemberNames (obj + 1) ms names)

/-! ## The open brackets -/

theorem openFrom_append (i : Nat) (stack : List Nat) (xs ys : List Kind) :
    openFrom i stack (xs ++ ys) = openFrom (i + xs.length) (openFrom i stack xs) ys := by
  induction xs generalizing i stack with
  | nil => rfl
  | cons k xs ih =>
    rw [cons_append, openFrom, openFrom, ih, length_cons, Nat.add_right_comm, Nat.add_assoc]

theorem openIndices_concat (ks : List Kind) (k : Kind) :
    openIndices (ks ++ [k]) = openAfter ks.length (openIndices ks) k := by
  unfold openIndices
  rw [openFrom_append, Nat.zero_add]
  rfl

variable {stack : List Nat} {k : Kind}

theorem mem_openAfter {i j : Nat} (h : j ∈ openAfter i stack k) : j = i ∨ j ∈ stack := by
  cases k with
  | beginArray | beginObject => exact mem_cons.mp h
  | endArray | endObject => exact .inr (mem_of_mem_tail h)
  | _ => exact .inr h

variable {ks : List Kind}

theorem openIndices_lt {j : Nat} (h : j ∈ openIndices ks) : j < ks.length := by
  induction ks using List.reverseRecOn with
  | nil => exact absurd h not_mem_nil
  | append_singleton ks k ih =>
    rw [openIndices_concat] at h
    rw [List.length_append, length_singleton]
    rcases mem_openAfter h with rfl | hmem
    · exact Nat.lt_succ_self _
    · exact Nat.lt_succ_of_lt (ih hmem)

theorem openIndices_opens {j : Nat} (h : j ∈ openIndices ks) :
    ks[j]? = some .beginArray ∨ ks[j]? = some .beginObject := by
  induction ks using List.reverseRecOn with
  | nil => exact absurd h not_mem_nil
  | append_singleton ks k ih =>
    rw [openIndices_concat] at h
    have hbefore : j ∈ openIndices ks → (ks ++ [k])[j]? = some .beginArray ∨ (ks ++ [k])[j]? =
        some .beginObject := by
      intro hmem
      rw [List.getElem?_append_left (openIndices_lt hmem)]
      exact ih hmem
    cases k with
    | beginArray =>
      rcases mem_cons.mp h with rfl | hmem
      · exact .inl List.getElem?_concat_length
      · exact hbefore hmem
    | beginObject =>
      rcases mem_cons.mp h with rfl | hmem
      · exact .inr List.getElem?_concat_length
      · exact hbefore hmem
    | endArray | endObject => exact hbefore (mem_of_mem_tail h)
    | _ => exact hbefore h

theorem openIndices_take {i : Nat} (h : openIndices ks = i :: stack) :
    openIndices (ks.take i) = stack := by
  -- a closing bracket leads back to an earlier token sequence
  induction hn : ks.length using Nat.strongRecOn generalizing ks i stack with
  | _ n ih =>
    rcases eq_nil_or_concat ks with rfl | ⟨front, k, rfl⟩
    · exact absurd h (by simp [openIndices, openFrom])
    rw [concat_eq_append] at h hn ⊢
    rw [List.length_append, length_singleton] at hn
    rw [openIndices_concat] at h
    have hsame : openIndices front = i :: stack → openIndices ((front ++ [k]).take i) = stack := by
      intro hfront
      have hi : i < front.length := openIndices_lt (hfront ▸ mem_cons_self)
      rw [take_append_of_le_length (Nat.le_of_lt hi)]
      exact ih _ (by omega) hfront rfl
    cases k with
    | beginArray | beginObject =>
      obtain ⟨rfl, rfl⟩ := List.cons.inj h
      rw [take_left]
    | endArray | endObject =>
      cases hopen : openIndices front with
      | nil =>
        rw [hopen] at h
        exact absurd h (by simp [openAfter])
      | cons j inner =>
        rw [hopen] at h
        have hinner : inner = i :: stack := h
        subst hinner
        have hj : j < front.length := openIndices_lt (hopen ▸ mem_cons_self)
        have hbehind := ih _ (by omega) hopen rfl
        have hi : i < j := by
          have hmem := openIndices_lt (hbehind ▸ mem_cons_self : i ∈ openIndices _)
          rw [length_take] at hmem
          omega
        have houter := ih (front.take j).length (by rw [length_take]; omega) hbehind rfl
        rw [take_take, Nat.min_eq_left (Nat.le_of_lt hi)] at houter
        rw [take_append_of_le_length (by omega)]
        exact houter
    | _ => exact hsame h

variable {c : Category}

/-- What is derived leaves the open brackets as they were. -/
theorem openFrom_of_derives (h : Derives c ks) (i : Nat) (stack : List Nat) :
    openFrom i stack ks = stack := by
  induction h generalizing i stack with
  | string | primitive | emptyArray | emptyObject => rfl
  | array _ ih | object _ ih =>
    rw [openFrom, openFrom_append, ih]
    rfl
  | element _ ih => exact ih i stack
  | elements _ _ ihes ihv =>
    rw [openFrom_append, ihes]
    exact ihv _ _
  | member _ ih => exact ih _ _
  | members _ _ ihms ihv =>
    rw [openFrom_append, ihms]
    exact ihv _ _

/-! ## The colons of an object -/

theorem colonsIn_append (target i : Nat) (stack : List Nat) (xs ys : List Kind) :
    colonsIn target i stack (xs ++ ys) = colonsIn target i stack xs ++
      colonsIn target (i + xs.length) (openFrom i stack xs) ys := by
  induction xs generalizing i stack with
  | nil => rfl
  | cons k xs ih =>
    have hlength : i + (k :: xs).length = i + 1 + xs.length := by
      rw [length_cons]
      omega
    rw [cons_append, colonsIn, colonsIn, ih, hlength, openFrom]
    split
    · rw [cons_append]
    · rfl

variable {target i : Nat}

theorem colonsIn_skip (h : k ≠ .nameSeparator) (ks : List Kind) :
    colonsIn target i stack (k :: ks) = colonsIn target (i + 1) (openAfter i stack k) ks := by
  rw [colonsIn, if_neg (fun hcolon => h hcolon.1)]

theorem colonsIn_closed (hi : target < i) (hstack : target ∉ stack) (ks : List Kind) :
    colonsIn target i stack ks = [] := by
  induction ks generalizing i stack with
  | nil => rfl
  | cons k ks ih =>
    have hhead : stack.head? ≠ some target := fun h => hstack (mem_of_head? h)
    rw [colonsIn, if_neg (fun hcolon => hhead hcolon.2)]
    refine ih (by omega) fun hmem => ?_
    rcases mem_openAfter hmem with rfl | hmem
    · exact Nat.lt_irrefl _ hi
    · exact hstack hmem

/-- The colons of a value, of elements, and of members behind another brace stand in brackets of
their own. -/
theorem colonsIn_of_derives (h : Derives c ks) (hi : target < i) (stack : List Nat)
    (hstack : c = .members → stack.head? ≠ some target) :
    colonsIn target i stack ks = [] := by
  induction h generalizing i stack with
  | string | primitive | emptyArray | emptyObject => rfl
  | array hes ih =>
    rw [colonsIn_skip (by decide), colonsIn_append,
      ih (i := i + 1) (by omega) (openAfter i stack .beginArray) (by simp)]
    rfl
  | object hms ih =>
    rw [colonsIn_skip (by decide), colonsIn_append,
      ih (i := i + 1) (by omega) (openAfter i stack .beginObject) (by simp [openAfter]; omega)]
    rfl
  | element _ ih => exact ih hi stack (by simp)
  | elements hes _ ihes ihv =>
    rw [colonsIn_append, ihes hi stack (by simp), nil_append, colonsIn_skip (by decide)]
    exact ihv (by omega) _ (by simp)
  | member _ ih =>
    rw [colonsIn_skip (by decide), colonsIn, if_neg (fun hcolon => hstack rfl hcolon.2)]
    exact ih (by omega) _ (by simp)
  | members hms _ ihms ihv =>
    rw [colonsIn_append, ihms hi stack hstack, nil_append, openFrom_of_derives hms,
      colonsIn_skip (by decide), colonsIn_skip (by decide), colonsIn,
      if_neg (fun hcolon => hstack rfl hcolon.2)]
    exact ihv (by omega) _ (by simp)

variable {ms : List Kind} {names : List Nat}

theorem MemberNames.derives {i : Nat} (h : MemberNames i ms names) : Derives .members ms := by
  induction h with
  | member hv => exact .member hv
  | members _ hv ih => exact .members ih hv

/-- Members have their colons right behind their names. -/
theorem colonsIn_members {i target : Nat} (h : MemberNames i ms names) (hi : target < i)
    (stack : List Nat) :
    colonsIn target i (target :: stack) ms = names.map (· + 1) := by
  induction h with
  | @member v hv =>
    have hvalue := colonsIn_of_derives hv (i := i + 1 + 1) (by omega : target < i + 1 + 1)
      (target :: stack) (by simp)
    rw [colonsIn_skip (by decide), colonsIn, if_pos ⟨rfl, rfl⟩]
    exact congrArg (List.cons _) hvalue
  | @members ms v names hms hv ih =>
    have hvalue := colonsIn_of_derives hv (i := i + ms.length + 1 + 1 + 1)
      (by omega : target < i + ms.length + 1 + 1 + 1) (target :: stack) (by simp)
    rw [colonsIn_append, ih, openFrom_of_derives hms.derives, colonsIn_skip (by decide),
      colonsIn_skip (by decide), colonsIn, if_pos ⟨rfl, rfl⟩, map_append]
    exact congrArg (fun l => names.map (· + 1) ++ List.cons _ l) hvalue

/-- Behind the brace of an object, the colons that stand right in it are those of its members. -/
theorem colonsIn_object {obj : Nat} (h : ObjectAt ks obj names) :
    colonsIn obj (obj + 1) (openIndices (ks.take (obj + 1))) (ks.drop (obj + 1)) =
      names.map (· + 1) := by
  obtain ⟨front, ms, back, rfl, rfl, hms⟩ := h
  have hsplit : front ++ .beginObject :: (ms ++ .endObject :: back) = (front ++ [.beginObject]) ++
      (ms ++ .endObject :: back) := by simp
  have hlength : front.length + 1 = (front ++ [Kind.beginObject]).length := by simp
  rw [hsplit, hlength, take_left, drop_left, ← hlength, openIndices_concat]
  have hopen : openAfter front.length (openIndices front) .beginObject = front.length ::
      openIndices front := rfl
  have hbehind : ∀ i, front.length < i →
      colonsIn front.length i (front.length :: openIndices front) (.endObject :: back) = [] := by
    intro i hi
    rw [colonsIn_skip (by decide)]
    exact colonsIn_closed (by omega) (fun hmem => Nat.lt_irrefl _ (openIndices_lt hmem)) back
  rw [hopen, colonsIn_append]
  rcases hms with ⟨rfl, rfl⟩ | hms
  · exact hbehind _ (Nat.lt_succ_self _)
  · rw [colonsIn_members hms (Nat.lt_succ_self _), openFrom_of_derives hms.derives,
      hbehind _ (by omega), append_nil]

theorem exists_memberNames (h : Derives .members ms) (i : Nat) :
    ∃ names, MemberNames i ms names := by
  generalize hc : Category.members = c at h
  induction h with
  | member hv => exact ⟨_, .member hv⟩
  | members _ hv ih =>
    obtain ⟨names, hms⟩ := ih hc
    exact ⟨_, .members hms hv⟩
  | _ => cases hc

/-- Every opening brace of the tokens opens an object. -/
def BracesOpen (ks : List Kind) : Prop :=
  ∀ obj, ks[obj]? = some .beginObject → ∃ front ms back, ks = front ++ .beginObject ::
    (ms ++ .endObject :: back) ∧ front.length = obj ∧ (ms = [] ∨ Derives .members ms)

theorem BracesOpen.append {xs ys : List Kind} (hxs : BracesOpen xs) (hys : BracesOpen ys) :
    BracesOpen (xs ++ ys) := by
  intro obj hobj
  rcases Nat.lt_or_ge obj xs.length with hlt | hge
  · rw [List.getElem?_append_left hlt] at hobj
    obtain ⟨front, ms, back, rfl, hlength, hms⟩ := hxs obj hobj
    exact ⟨front, ms, back ++ ys, by simp, hlength, hms⟩
  · rw [List.getElem?_append_right hge] at hobj
    obtain ⟨front, ms, back, rfl, hlength, hms⟩ := hys _ hobj
    refine ⟨xs ++ front, ms, back, by simp, ?_, hms⟩
    rw [List.length_append]
    omega

theorem bracesOpen_singleton (h : k ≠ .beginObject) : BracesOpen [k] := by
  intro obj hobj
  have hmem : Kind.beginObject ∈ [k] := mem_of_getElem? hobj
  exact absurd (mem_singleton.mp hmem).symm h

theorem bracesOpen_object (hms : ms = [] ∨ Derives .members ms)
    (h : BracesOpen (ms ++ [.endObject])) : BracesOpen (.beginObject :: (ms ++ [.endObject])) := by
  intro obj hobj
  cases obj with
  | zero => exact ⟨[], ms, [], rfl, rfl, hms⟩
  | succ obj =>
    obtain ⟨front, inner, back, heq, hlength, hinner⟩ := h obj hobj
    refine ⟨.beginObject :: front, inner, back, ?_, congrArg (· + 1) hlength, hinner⟩
    rw [heq, cons_append]

theorem bracesOpen_of_derives (h : Derives c ks) : BracesOpen ks := by
  have hclose : BracesOpen [.endObject] := bracesOpen_singleton (by decide)
  have hcomma : BracesOpen [.valueSeparator] := bracesOpen_singleton (by decide)
  have hname : BracesOpen [.string, .nameSeparator] :=
    (bracesOpen_singleton (k := .string) (by decide)).append (bracesOpen_singleton (by decide))
  have hbracket : BracesOpen [.beginArray] := bracesOpen_singleton (by decide)
  have hend : BracesOpen [.endArray] := bracesOpen_singleton (by decide)
  induction h with
  | string | primitive => exact bracesOpen_singleton (by decide)
  | emptyArray => exact hbracket.append hend
  | array _ ih => exact hbracket.append (ih.append hend)
  | emptyObject => exact bracesOpen_object (.inl rfl) hclose
  | object hms ih => exact bracesOpen_object (.inr hms) (ih.append hclose)
  | element _ ih => exact ih
  | elements _ _ ihes ihv => exact ihes.append (hcomma.append ihv)
  | member _ ih => exact hname.append ih
  | members _ _ ihms ihv => exact ihms.append (hcomma.append (hname.append ihv))

/-- Every opening brace of a value opens an object, with names of its members. -/
theorem exists_objectAt (h : Derives .value ks) {obj : Nat} (hobj : ks[obj]? = some .beginObject) :
    ∃ names, ObjectAt ks obj names := by
  obtain ⟨front, ms, back, heq, hlength, rfl | hms⟩ := bracesOpen_of_derives h obj hobj
  · exact ⟨[], front, [], back, heq, hlength, .inl ⟨rfl, rfl⟩⟩
  · obtain ⟨names, hnames⟩ := exists_memberNames hms (obj + 1)
    exact ⟨names, front, ms, back, heq, hlength, .inr hnames⟩

end Rfc8259
end DeconzRest

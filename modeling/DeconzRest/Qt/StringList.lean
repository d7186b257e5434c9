import DeconzRest.Qt.Parts
import DeconzRest.Qt.Number

/-!
# `QStringList`

A text split at a separator, empty parts kept, and the parts joined again.  Joining undoes the
split, and the split undoes a join of parts without the separator (`splitAll_join`).  White space
at the ends of a joined text is that at the front of the first part and at the end of the last
(`trimmed_join_iff`).
-/

namespace DeconzRest
namespace QString

open List Option

/-- `QString::split`, with the empty parts -/
def splitAll (s : QString) (sep : Char) : List QString :=
  (parts (unit sep) s).1 :: (parts (unit sep) s).2

/-- `QStringList::join` -/
def join (sep : Char) : List QString → QString
  | [] => []
  | [s] => s
  | s :: t :: l => s ++ unit sep :: join sep (t :: l)

/-- `QStringList::value`: an empty text where there is no part -/
def valueAt (l : List QString) (i : Int) : QString :=
  if 0 ≤ i then l.getD i.toNat [] else []

/-- `QStringList::replace`; `none` is an access outside of the list. -/
def replaceAt (l : List QString) (i : Int) (s : QString) : Option (List QString) :=
  if 0 ≤ i ∧ i < l.length then some (l.set i.toNat s) else none

theorem splitAll_ne_nil (s : QString) (sep : Char) : splitAll s sep ≠ [] := cons_ne_nil _ _

theorem splitAll_of_not_mem {s : QString} {sep : Char} (h : unit sep ∉ s) :
    splitAll s sep = [s] := by
  rw [splitAll, parts_of_not_mem h]

theorem splitAll_append_sep {s : QString} {sep : Char} (h : unit sep ∉ s) (t : QString) :
    splitAll (s ++ unit sep :: t) sep = s :: splitAll t sep := by
  rw [splitAll, parts_append_of_not_mem h, parts_cons_self, append_nil]
  rfl

theorem not_mem_of_mem_splitAll {s part : QString} {sep : Char} (h : part ∈ splitAll s sep) :
    unit sep ∉ part := by
  induction s generalizing part with
  | nil =>
    obtain rfl := mem_singleton.mp h
    exact not_mem_nil
  | cons c s ih =>
    have hparts : splitAll (c :: s) sep = if c = unit sep then [] ::
        splitAll s sep
        else (c :: (parts (unit sep) s).1) :: (parts (unit sep) s).2 := by
      rw [splitAll, parts]
      split <;> rfl
    rw [hparts] at h
    split at h
    · rcases mem_cons.mp h with rfl | h
      · exact not_mem_nil
      · exact ih h
    · rename_i hc
      rcases mem_cons.mp h with rfl | h
      · rw [mem_cons, not_or]
        exact ⟨Ne.symm hc, ih mem_cons_self⟩
      · exact ih (mem_cons_of_mem _ h)

/-- **Splitting undoes joining.** -/
theorem splitAll_join {l : List QString} {sep : Char} (hne : l ≠ [])
    (h : ∀ s ∈ l, unit sep ∉ s) : splitAll (join sep l) sep = l := by
  induction l with
  | nil => exact absurd rfl hne
  | cons s l ih =>
    have hs := h s mem_cons_self
    cases l with
    | nil => exact splitAll_of_not_mem hs
    | cons t l =>
      rw [join, splitAll_append_sep hs, ih (cons_ne_nil t l) fun x hx => h x (mem_cons_of_mem s hx)]

theorem join_splitAll (s : QString) (sep : Char) : join sep (splitAll s sep) = s := by
  induction s with
  | nil => rfl
  | cons c s ih =>
    have hjoin : join sep ((parts (unit sep) s).1 :: (parts (unit sep) s).2) = s := ih
    rw [splitAll, parts]
    split
    · rename_i hc
      rw [join, hjoin, hc]
      rfl
    · have hcons : ∀ (a : QString) (l : List QString), join sep ((c :: a) :: l) = c ::
          join sep (a :: l) := by
        intro a l
        cases l <;> rfl
      rw [hcons, hjoin]

/-! ## White space at the ends -/

theorem trimmed_eq_self_iff {s : QString} :
    trimmed s = s ↔ (∀ c, s.head? = some c → isSpace c = false) ∧ ∀ c, s.getLast? = some c →
      isSpace c = false := by
  have hfront : s.dropWhile isSpace = s ↔ ∀ c, s.head? = some c → isSpace c = false := by
    rw [dropWhile_eq_self_iff]
    cases s with
    | nil => simp
    | cons c s => simp
  have hback : s.rdropWhile isSpace = s ↔ ∀ c, s.getLast? = some c → isSpace c = false := by
    rw [rdropWhile_eq_self_iff]
    constructor
    · intro h c hc
      have hne : s ≠ [] := by
        rintro rfl
        cases hc
      rw [List.getLast?_eq_some_getLast hne, some_inj] at hc
      rw [← hc]
      exact Bool.eq_false_iff.mpr (h hne)
    · intro h hne hspace
      rw [h _ (List.getLast?_eq_some_getLast hne)] at hspace
      exact Bool.noConfusion hspace
  rw [← hfront, ← hback]
  constructor
  · intro h
    have hsuffix : s.dropWhile isSpace <:+ s := dropWhile_suffix isSpace
    have hstarts : trimmed s <+: s.dropWhile isSpace := rdropWhile_prefix isSpace _
    have hle := hstarts.length_le
    rw [h] at hle
    have hdrop := hsuffix.eq_of_length_le hle
    refine ⟨hdrop, ?_⟩
    rw [trimmed, hdrop] at h
    exact h
  · rintro ⟨hdrop, hrdrop⟩
    rw [trimmed, hdrop]
    exact hrdrop

/-- The first and the last character of parts that belong to a list -/
def EndsSatisfy (p : QChar → Prop) (l : List QString) : Prop :=
  (∀ a, l.head? = some a → ∀ c, a.head? = some c → p c) ∧ ∀ a, l.getLast? = some a →
    ∀ c, a.getLast? = some c → p c

theorem head?_join {l : List QString} {sep : Char} {a : QString} (h : l.head? = some a) :
    (join sep l).head? = a.head? ∨ (a = [] ∧ (join sep l).head? = some (unit sep)) := by
  obtain ⟨t, rfl⟩ := List.head?_eq_some_iff.mp h
  cases t with
  | nil => exact .inl rfl
  | cons b t =>
    cases a with
    | nil => exact .inr ⟨rfl, rfl⟩
    | cons d a => exact .inl rfl

theorem getLast?_join {l : List QString} {sep : Char} {a : QString} (h : l.getLast? = some a) :
    (join sep l).getLast? = a.getLast? ∨ (a = [] ∧ (join sep l).getLast? = some (unit sep)) := by
  induction l with
  | nil => cases h
  | cons s l ih =>
    cases l with
    | nil =>
      obtain rfl := some.inj h
      exact .inl rfl
    | cons t l =>
      rw [List.getLast?_cons_cons] at h
      have hback : (join sep (s :: t :: l)).getLast? =
          some ((join sep (t :: l)).getLast?.getD (unit sep)) := by
        rw [join, List.getLast?_append, List.getLast?_cons]
        rfl
      rw [hback]
      rcases ih h with hlast | ⟨rfl, hlast⟩
      · rw [hlast]
        cases hd : a.getLast? with
        | none => exact .inr ⟨List.getLast?_eq_none_iff.mp hd, rfl⟩
        | some d => exact .inl rfl
      · exact .inr ⟨rfl, by rw [hlast]; rfl⟩

/-- A joined text has no white space at its ends where the first part has none in front and the
last part none behind. -/
theorem trimmed_join_iff {l : List QString} {sep : Char} (hsep : isSpace (unit sep) = false)
    (hne : l ≠ []) :
    trimmed (join sep l) = join sep l ↔ EndsSatisfy (fun c => isSpace c = false) l := by
  obtain ⟨a, ha⟩ : ∃ a, l.head? = some a := ⟨_, List.head?_eq_some_head hne⟩
  obtain ⟨b, hb⟩ : ∃ b, l.getLast? = some b := ⟨_, List.getLast?_eq_some_getLast hne⟩
  have hfront : (∀ c, (join sep l).head? = some c → isSpace c = false) ↔ ∀ c, a.head? = some c →
      isSpace c = false := by
    rcases @head?_join _ sep _ ha with hhead | ⟨rfl, hhead⟩
    · rw [hhead]
    · rw [hhead]
      refine ⟨fun _ c hc => (by cases hc), fun _ c hc => ?_⟩
      rw [← some.inj hc]
      exact hsep
  have hback : (∀ c, (join sep l).getLast? = some c → isSpace c = false) ↔ ∀ c, b.getLast? =
      some c → isSpace c = false := by
    rcases @getLast?_join _ sep _ hb with hlast | ⟨rfl, hlast⟩
    · rw [hlast]
    · rw [hlast]
      refine ⟨fun _ c hc => (by cases hc), fun _ c hc => ?_⟩
      rw [← some.inj hc]
      exact hsep
  rw [trimmed_eq_self_iff, hfront, hback]
  unfold EndsSatisfy
  rw [ha, hb]
  constructor
  · rintro ⟨h₁, h₂⟩
    exact ⟨fun x hx => some.inj hx ▸ h₁, fun x hx => some.inj hx ▸ h₂⟩
  · rintro ⟨h₁, h₂⟩
    exact ⟨h₁ a rfl, h₂ b rfl⟩

theorem EndsSatisfy.of_forall {p : QChar → Prop} {l : List QString} (h : ∀ a ∈ l, ∀ c ∈ a, p c) :
    EndsSatisfy p l where
  left := fun a ha c hc => h a (mem_of_head? ha) c (mem_of_head? hc)
  right := fun a ha c hc => h a (mem_of_getLast? ha) c (mem_of_getLast? hc)

theorem EndsSatisfy.set {p : QChar → Prop} {l : List QString} (h : EndsSatisfy p l) (i : Nat)
    {s : QString} (hs : ∀ c ∈ s, p c) : EndsSatisfy p (l.set i s) := by
  have hmem : ∀ a : QString, a = s → (∀ c, a.head? = some c → p c) ∧ ∀ c, a.getLast? = some c →
      p c := by
    rintro a rfl
    exact ⟨fun c hc => hs c (mem_of_head? hc), fun c hc => hs c (mem_of_getLast? hc)⟩
  refine ⟨fun a ha => ?_, fun a ha => ?_⟩
  · rw [List.head?_eq_getElem?, List.getElem?_set] at ha
    split at ha
    · split at ha
      · exact (hmem a (some.inj ha).symm).1
      · cases ha
    · exact h.1 a (List.head?_eq_getElem? ▸ ha)
  · rw [List.getLast?_eq_getElem?, List.getElem?_set, length_set] at ha
    split at ha
    · split at ha
      · exact (hmem a (some.inj ha).symm).2
      · cases ha
    · exact h.2 a (List.getLast?_eq_getElem? ▸ ha)

end QString
end DeconzRest

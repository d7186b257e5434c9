import DeconzRest.Qt.Text

/-!
# The parts of a text between separators

`QString::split` sees a text as the part in front of the first separator and the parts
behind each one.  Replacing a text that starts with the separator changes the parts that
start with the rest of it, and nothing else (`parts_replaceText`).
-/

namespace DeconzRest
namespace QString

open List

theorem parts_of_not_mem {sep : QChar} {s : QString} (h : sep ∉ s) : parts sep s = (s, []) := by
  induction s with
  | nil => rfl
  | cons c s ih =>
    rw [mem_cons, not_or] at h
    rw [parts, if_neg (Ne.symm h.1), ih h.2]

theorem parts_append_of_not_mem {sep : QChar} {front : QString} (h : sep ∉ front) (s : QString) :
    parts sep (front ++ s) = (front ++ (parts sep s).1, (parts sep s).2) := by
  induction front with
  | nil => rfl
  | cons c front ih =>
    rw [mem_cons, not_or] at h
    rw [cons_append, parts, if_neg (Ne.symm h.1), ih h.2]
    rfl

theorem parts_cons_self (sep : QChar) (s : QString) :
    parts sep (sep :: s) = ([], (parts sep s).1 :: (parts sep s).2) := by
  rw [parts, if_pos rfl]

theorem getLast?_parts {sep : QChar} (front : QString) {back : QString} (h : sep ∉ back) :
    (parts sep (front ++ sep :: back)).2.getLast? = some back := by
  induction front with
  | nil =>
    rw [nil_append, parts_cons_self, parts_of_not_mem h]
    rfl
  | cons c front ih =>
    rw [cons_append, parts]
    split
    · show (_ :: _).getLast? = _
      rw [List.getLast?_cons, ih]
      rfl
    · exact ih

theorem parts_front (sep : QChar) (s : QString) : (parts sep s).1 <+: s := by
  induction s with
  | nil => exact prefix_rfl
  | cons c s ih =>
    rw [parts]
    split
    · exact nil_prefix
    · exact cons_prefix_cons.mpr ⟨rfl, ih⟩

theorem mem_of_split {s : QString} {sep : Char} (h : 2 ≤ (split s sep).length) : unit sep ∈ s := by
  by_contra hnot
  have hle := length_filter_le (fun part : QString => decide (part ≠ [])) [s]
  unfold split at h
  rw [parts_of_not_mem hnot] at h
  replace h : 2 ≤ (List.filter (fun part : QString => decide (part ≠ [])) [s]).length := h
  rw [length_singleton] at hle
  omega

def swapFront (before after part : QString) : QString :=
  if before.isPrefixOf part then after ++ part.drop before.length else part

theorem swapFront_append (before after part : QString) :
    swapFront before after (before ++ part) = after ++ part := by
  unfold swapFront
  rw [if_pos (List.isPrefixOf_iff_prefix.mpr (prefix_append before part)), drop_left]

theorem replaceFrom_drop (before after : QString) (skip : Nat) (s : QString) :
    replaceFrom before after skip s = replaceFrom before after 0 (s.drop skip) := by
  induction skip generalizing s with
  | zero => rfl
  | succ skip ih =>
    cases s with
    | nil => rfl
    | cons c s =>
      rw [replaceFrom, ih]
      rfl

/-- **Replacing goes part by part**: a text that starts with the separator is replaced at the
front of a part. -/
theorem parts_replaceText {sep : QChar} {before after : QString} (hbefore : sep ∉ before)
    (hafter : sep ∉ after) (s : QString) :
    parts sep (replaceText s (sep :: before) (sep :: after)) =
      ((parts sep s).1, (parts sep s).2.map (swapFront before after)) := by
  induction hn : s.length using Nat.strongRecOn generalizing s with
  | _ n ih =>
    unfold replaceText at ih ⊢
    cases s with
    | nil => rfl
    | cons c s =>
      by_cases hstarts : (sep :: before).isPrefixOf (c :: s) = true
      · obtain ⟨rest, hrest⟩ := isPrefixOf_iff_prefix.mp hstarts
        rw [cons_append, List.cons.injEq] at hrest
        obtain ⟨rfl, rfl⟩ := hrest
        have hlength : rest.length < n := by
          rw [← hn, length_cons, List.length_append]
          omega
        rw [replaceFrom, if_pos hstarts, replaceFrom_drop, length_cons, Nat.add_sub_cancel,
          drop_left, cons_append, parts_cons_self,
          parts_append_of_not_mem hafter, ih _ hlength rest rfl, parts_cons_self,
          parts_append_of_not_mem hbefore, map_cons, swapFront_append]
      · have hrest := ih s.length (by rw [← hn, length_cons]; omega) s rfl
        rw [replaceFrom, if_neg hstarts]
        by_cases hc : c = sep
        · subst hc
          -- the part behind the separator does not start with the replaced text
          have hsame : swapFront before after (parts c s).1 = (parts c s).1 := by
            unfold swapFront
            rw [if_neg]
            intro hfront
            refine hstarts (List.isPrefixOf_iff_prefix.mpr (cons_prefix_cons.mpr
              ⟨rfl, ?_⟩))
            exact (List.isPrefixOf_iff_prefix.mp hfront).trans (parts_front c s)
          rw [parts_cons_self, parts_cons_self, hrest, map_cons, hsame]
        · rw [parts, if_neg hc, hrest, parts, if_neg hc]

end QString
end DeconzRest

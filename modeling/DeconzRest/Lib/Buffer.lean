import Mathlib.Data.List.Basic

/-!
# Reading a list by index

A program that scans a buffer keeps an index and a bound; what it knows is the
list of entries between the two.  `View buf stop pos rest` ties them together,
and turns reads by index into steps over `rest`.
-/

namespace DeconzRest

variable {α : Type*}

/-- Between the index `pos` and the bound `stop` the buffer holds `rest`. -/
structure View (buf : List α) (stop pos : Nat) (rest : List α) : Prop where
  stop_eq : stop = pos + rest.length
  holds : ∃ front back, front.length = pos ∧ buf = front ++ (rest ++ back)

namespace View

variable {buf : List α} {stop pos : Nat} {b : α} {rest : List α}

theorem whole (buf : List α) : View buf buf.length 0 buf :=
  ⟨(Nat.zero_add _).symm, [], [], rfl, by simp⟩

theorem advance {front : List α} (h : View buf stop pos (front ++ rest)) :
    View buf stop (pos + front.length) rest := by
  obtain ⟨hstop, outer, back, hlength, hbuf⟩ := h
  refine ⟨?_, outer ++ front, back, ?_, ?_⟩
  · rw [hstop, List.length_append]
    omega
  · rw [List.length_append, hlength]
  · rw [hbuf, List.append_assoc, List.append_assoc]

theorem next (h : View buf stop pos (b :: rest)) : View buf stop (pos + 1) rest :=
  show View buf stop (pos + [b].length) rest from advance h

theorem read (h : View buf stop pos (b :: rest)) : buf[pos]? = some b := by
  obtain ⟨-, outer, back, hlength, hbuf⟩ := h
  rw [hbuf, List.getElem?_append_right (by omega), hlength, Nat.sub_self]
  rfl

theorem lt (h : View buf stop pos (b :: rest)) : pos < stop := by
  rw [h.stop_eq, List.length_cons]
  omega

theorem not_lt (h : View buf stop pos []) : ¬ pos < stop := by
  rw [h.stop_eq, List.length_nil]
  omega

theorem sub_eq (h : View buf stop pos rest) : stop - pos = rest.length := by
  rw [h.stop_eq]
  omega

end View
end DeconzRest

import Mathlib.Algebra.Order.Group.Nat
import Mathlib.Data.List.Basic
import Mathlib.Data.Nat.ModEq

/-!
# A ring of slots with generations

Slots are given out one after the other, and after the last one the first is given out again.  A
slot counts how often it was given out, modulo the number of generations.  Whoever was given a
slot keeps its index and its generation; as long as fewer slots were given out than there are
pairs of the two, the pair tells whether the slot was given to somebody else since.

The writes into the slots are functions on their content, which is what was left there by the
owners before.
-/

namespace DeconzRest

variable {α : Type*}

structure Slot (α : Type*) where
  generation : Nat
  content : α

structure SlotRing (α : Type*) where
  iter : Nat
  slots : List (Slot α)

namespace SlotRing

variable {size generations : Nat}

/-- The next slot is given out and written to. -/
def give (size generations : Nat) (write : α → α) (r : SlotRing α) : SlotRing α where
  iter := (r.iter + 1) % size
  slots := r.slots.modify ((r.iter + 1) % size) fun slot =>
    ⟨(slot.generation + 1) % generations, write slot.content⟩

/-- The slot that the write number `j` went to. -/
def slotOf (size j : Nat) : Nat := (j + 1) % size

/-- The generation of the slot after the write number `j`. -/
def generationOf (size generations j : Nat) : Nat := (j / size + 1) % generations

/-- The ring after the writes `writes`.  The slots that are given out next are known by their
generation, the last `size` writes are in their slots. -/
structure After (size generations : Nat) (writes : List (α → α)) (r : SlotRing α) : Prop where
  iter_eq : r.iter = writes.length % size
  length_eq : r.slots.length = size
  generation_eq : ∀ i < size,
    (r.slots[slotOf size (writes.length + i)]?).map Slot.generation =
      some ((writes.length + i) / size % generations)
  content_eq : ∀ j (h : j < writes.length), writes.length ≤ j + size →
    ∃ old, (r.slots[slotOf size j]?).map Slot.content = some (writes[j] old)

theorem slotOf_lt (hsize : 0 < size) (j : Nat) : slotOf size j < size :=
  Nat.mod_lt _ hsize

theorem slotOf_add_size (j : Nat) : slotOf size (j + size) = slotOf size j := by
  unfold slotOf
  rw [Nat.add_right_comm, Nat.add_mod_right]

theorem slotOf_ne {j k : Nat} (hjk : j < k) (hk : k < j + size) :
    slotOf size j ≠ slotOf size k := by
  intro heq
  have hdvd : size ∣ (k + 1) - (j + 1) :=
    (Nat.modEq_iff_dvd' (by omega)).mp heq
  have hle := Nat.le_of_dvd (by omega) hdvd
  omega

theorem after_nil {r : SlotRing α} (hiter : r.iter = 0) (hlength : r.slots.length = size)
    (hgeneration : ∀ slot ∈ r.slots, slot.generation = 0) :
    After size generations [] r := by
  refine ⟨?_, hlength, ?_, ?_⟩
  · rw [hiter]
    exact (Nat.zero_mod size).symm
  · intro i hi
    have hlt : slotOf size (0 + i) < r.slots.length := by
      rw [hlength]
      exact slotOf_lt (Nat.zero_lt_of_lt hi) _
    rw [List.length_nil, List.getElem?_eq_getElem hlt, Option.map_some,
      hgeneration _ (List.getElem_mem hlt), Nat.zero_add, Nat.div_eq_of_lt hi, Nat.zero_mod]
  · intro j hj
    exact absurd hj (Nat.not_lt_zero j)

theorem After.give {writes : List (α → α)} {r : SlotRing α}
    (h : After size generations writes r) (hsize : 0 < size) (write : α → α) :
    After size generations (writes ++ [write]) (r.give size generations write) := by
  have hslot : (r.iter + 1) % size = slotOf size writes.length := by
    rw [h.iter_eq, Nat.mod_add_mod]
    rfl
  have hkeep : ∀ j, slotOf size j ≠ slotOf size writes.length →
      (r.give size generations write).slots[slotOf size j]? = r.slots[slotOf size j]? := by
    intro j hne
    show (r.slots.modify ((r.iter + 1) % size) _)[slotOf size j]? = _
    rw [hslot, List.getElem?_modify_ne _ _ hne.symm]
  have hself : (r.give size generations write).slots[slotOf size writes.length]? =
      (r.slots[slotOf size writes.length]?).map fun slot =>
        ⟨(slot.generation + 1) % generations, write slot.content⟩ := by
    show (r.slots.modify ((r.iter + 1) % size) _)[slotOf size writes.length]? = _
    rw [hslot, List.getElem?_modify_eq]
    rfl
  refine ⟨?_, ?_, ?_, ?_⟩
  · rw [List.length_append]
    exact hslot
  · exact (List.length_modify _ _ _).trans h.length_eq
  · intro i hi
    rw [List.length_append, List.length_singleton, Nat.add_assoc, Nat.add_comm 1 i]
    by_cases hlast : i + 1 = size
    · -- the slot just written to is the last one that is given out again
      rw [hlast, slotOf_add_size, hself, Option.map_map]
      have hgeneration := h.generation_eq 0 hsize
      rw [Nat.add_zero] at hgeneration
      obtain ⟨slot, hslot, heq⟩ := Option.map_eq_some_iff.mp hgeneration
      rw [hslot, Option.map_some, Nat.add_div_right _ hsize]
      show some ((slot.generation + 1) % generations) = _
      rw [heq, Nat.mod_add_mod]
    · rw [hkeep _ (slotOf_ne (by omega) (by omega)).symm]
      exact h.generation_eq (i + 1) (by omega)
  · intro j hj hrecent
    rw [List.length_append, List.length_singleton] at hj hrecent
    rcases Nat.lt_succ_iff_lt_or_eq.mp hj with hj | rfl
    · obtain ⟨old, hold⟩ := h.content_eq j hj (by omega)
      refine ⟨old, ?_⟩
      rw [hkeep _ (slotOf_ne hj (by omega)), List.getElem_append_left hj]
      exact hold
    · have hlt : slotOf size writes.length < r.slots.length := by
        rw [h.length_eq]
        exact slotOf_lt hsize _
      refine ⟨(r.slots.get ⟨slotOf size writes.length, hlt⟩).content, ?_⟩
      rw [hself, List.getElem?_eq_getElem hlt, List.getElem_concat_length rfl]
      rfl

/-- **The generation tells** whether the slot of a write was given out again, while fewer writes
were made than there are slots and generations. -/
theorem After.generation_iff {writes : List (α → α)} {r : SlotRing α}
    (h : After size generations writes r) (hfew : writes.length < size * generations) {j : Nat}
    (hj : j < writes.length) :
    (r.slots[slotOf size j]?).map Slot.generation = some (generationOf size generations j) ↔
      writes.length ≤ j + size := by
  have hsize : 0 < size := Nat.pos_of_mul_pos_right (Nat.zero_lt_of_lt hfew)
  -- `m` times around the ring the slot is given out next
  obtain ⟨m, i, hi, hround⟩ : ∃ m i, i < size ∧ j + size * m = writes.length + i := by
    refine ⟨(writes.length - j + (size - 1)) / size,
      (size - 1) - (writes.length - j + (size - 1)) % size, by omega, ?_⟩
    have hdiv := Nat.div_add_mod (writes.length - j + (size - 1)) size
    have hmod := Nat.mod_lt (writes.length - j + (size - 1)) hsize
    omega
  have hslot : slotOf size (writes.length + i) = slotOf size j := by
    unfold slotOf
    rw [← hround, Nat.add_right_comm, Nat.add_mul_mod_self_left]
  have hgeneration := h.generation_eq i hi
  rw [hslot, ← hround, Nat.add_mul_div_left _ _ hsize] at hgeneration
  rw [hgeneration, Option.some_inj]
  unfold generationOf
  have hpos : m ≠ 0 := by
    rintro rfl
    omega
  obtain ⟨k, rfl⟩ := Nat.exists_eq_succ_of_ne_zero hpos
  rw [Nat.mul_succ] at hround
  have hk : k < generations := by
    refine Nat.lt_of_mul_lt_mul_left (a := size) ?_
    omega
  constructor
  · intro heq
    have hmod : (j / size + 1 + k) ≡ (j / size + 1 + 0) [MOD generations] := by
      rw [Nat.add_assoc, Nat.add_comm 1 k]
      exact heq
    have hzero := Nat.ModEq.add_left_cancel' _ hmod
    rw [Nat.modEq_zero_iff_dvd] at hzero
    rcases Nat.eq_zero_or_pos k with rfl | hpos
    · omega
    · exact absurd (Nat.le_of_dvd hpos hzero) (Nat.not_le_of_lt hk)
  · intro hrecent
    have hzero : k = 0 := by
      rcases Nat.eq_zero_or_pos k with rfl | hpos
      · rfl
      · have := Nat.le_mul_of_pos_right size hpos
        omega
    rw [hzero]

end SlotRing
end DeconzRest

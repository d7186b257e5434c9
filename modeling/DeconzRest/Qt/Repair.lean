import DeconzRest.Qt.Unicode
import Mathlib.Data.List.Forall2

/-!
# What UTF-8 does to a text that is not well formed

A text that goes through `toUtf8` and `fromUtf8` keeps its length, and every unpaired
surrogate in it becomes a question mark (`forall₂_repair`).  So whatever looks only at
other units (prefixes and suffixes of the source, the parts between separators) sees
the same text.
-/

namespace DeconzRest
namespace QString

/-- A text behind `toUtf8` and `fromUtf8`. -/
def repair (s : QString) : QString := ofChars (toChars s)

variable (s : QString)

theorem wellFormed_repair : WellFormed (repair s) := ⟨toChars s, rfl⟩

theorem WellFormed.repair_eq {s : QString} (hs : WellFormed s) : repair s = s := by
  obtain ⟨cs, rfl⟩ := hs
  unfold repair
  rw [toChars_ofChars]

theorem repair_eq_self_iff {s : QString} : repair s = s ↔ WellFormed s := by
  constructor
  · intro h
    rw [← h]
    exact wellFormed_repair s
  · exact WellFormed.repair_eq

/-! ## Unit by unit -/

/-- The unit is the first of a surrogate pair. -/
def Pairs (u : QChar) (s : QString) : Prop :=
  isHighSurrogate u = true ∧ ∃ v, s.head? = some v ∧ isLowSurrogate v = true

def isSurrogate (u : QChar) : Bool := isHighSurrogate u || isLowSurrogate u

/-- What is written for a unit that stands alone. -/
def repairUnit (u : QChar) : QChar := if isSurrogate u then unit '?' else u

variable {u : QChar}

theorem isSurrogate_iff : isSurrogate u = true ↔ 0xD800 ≤ u.toNat ∧ u.toNat < 0xE000 := by
  unfold isSurrogate isHighSurrogate isLowSurrogate
  rw [Bool.or_eq_true, decide_eq_true_eq, decide_eq_true_eq]
  omega

theorem char_toNat_ofNat {n : Nat} (h : n.isValidChar) : (Char.ofNat n).toNat = n := by
  rw [Char.ofNat, dif_pos h]
  rfl

theorem utf16_loneChar (u : QChar) : utf16 (loneChar u) = [repairUnit u] := by
  unfold repairUnit
  by_cases hu : isSurrogate u = true
  · have hlone : loneChar u = '?' := if_pos hu
    rw [hlone, if_pos hu]
    decide
  · have hlone : loneChar u = Char.ofNat u.toNat := if_neg hu
    have hlt : u.toNat < 65536 := u.toNat_lt
    have hvalid : u.toNat.isValidChar := by
      rw [isSurrogate_iff] at hu
      unfold Nat.isValidChar
      omega
    have hnat := char_toNat_ofNat hvalid
    rw [hlone, if_neg hu, utf16, hnat, if_pos hlt]
    simp

theorem toChars_of_not_pairs {s : QString} (h : ¬ Pairs u s) :
    toChars (u :: s) = loneChar u :: toChars s := by
  cases s with
  | nil => rfl
  | cons v s =>
    have hboth : ¬ (isHighSurrogate u && isLowSurrogate v) = true := by
      rw [Bool.and_eq_true]
      exact fun hpair => h ⟨hpair.1, v, rfl, hpair.2⟩
    rw [toChars, if_neg hboth]

theorem repair_of_not_pairs {s : QString} (h : ¬ Pairs u s) :
    repair (u :: s) = repairUnit u :: repair s := by
  unfold repair
  rw [toChars_of_not_pairs h, ofChars_cons, utf16_loneChar]
  rfl

theorem repair_pair {u v : QChar} (hu : isHighSurrogate u = true) (hv : isLowSurrogate v = true)
    (s : QString) : repair (u :: v :: s) = u :: v :: repair s := by
  have hu' : 0xD800 ≤ u.toNat ∧ u.toNat < 0xDC00 := by simpa [isHighSurrogate] using hu
  have hv' : 0xDC00 ≤ v.toNat ∧ v.toNat < 0xE000 := by simpa [isLowSurrogate] using hv
  have hvalid : (0x10000 + (u.toNat - 0xD800) * 0x400 + (v.toNat - 0xDC00)).isValidChar := by
    unfold Nat.isValidChar
    omega
  have hnat := char_toNat_ofNat hvalid
  have hpair : (isHighSurrogate u && isLowSurrogate v) = true := by rw [hu, hv]; rfl
  have hbig : ¬ 0x10000 + (u.toNat - 0xD800) * 0x400 + (v.toNat - 0xDC00) < 0x10000 := by omega
  have hhigh : 0xD800 + (0x10000 + (u.toNat - 0xD800) * 0x400 + (v.toNat - 0xDC00) - 0x10000) /
      0x400 = u.toNat := by omega
  have hlow : 0xDC00 + (0x10000 + (u.toNat - 0xD800) * 0x400 + (v.toNat - 0xDC00) - 0x10000) %
      0x400 = v.toNat := by omega
  unfold repair
  rw [toChars, if_pos hpair, ofChars_cons, utf16, hnat, if_neg hbig, hhigh, hlow]
  simp

/-- A text is taken apart into surrogate pairs and single units. -/
theorem unit_induction {motive : QString → Prop} (nil : motive [])
    (pair : ∀ u v s, isHighSurrogate u = true → isLowSurrogate v = true → motive s →
      motive (u :: v :: s))
    (lone : ∀ u s, ¬ Pairs u s → motive s → motive (u :: s)) (s : QString) : motive s := by
  match s with
  | [] => exact nil
  | [u] =>
    refine lone u [] ?_ nil
    rintro ⟨-, v, hv, -⟩
    cases hv
  | u :: v :: s =>
    by_cases hpair : isHighSurrogate u = true ∧ isLowSurrogate v = true
    · exact pair u v s hpair.1 hpair.2 (unit_induction nil pair lone s)
    · refine lone u (v :: s) ?_ (unit_induction nil pair lone (v :: s))
      rintro ⟨hu, w, hw, hlow⟩
      cases hw
      exact hpair ⟨hu, hlow⟩
termination_by s.length

def Repaired (u v : QChar) : Prop := v = u ∨ (isSurrogate u = true ∧ v = unit '?')

theorem repaired_repairUnit (u : QChar) : Repaired u (repairUnit u) := by
  unfold repairUnit
  by_cases hu : isSurrogate u = true
  · rw [if_pos hu]
    exact .inr ⟨hu, rfl⟩
  · rw [if_neg hu]
    exact .inl rfl

/-- **A text is repaired in place**: no unit moves, and only surrogates change. -/
theorem forall₂_repair : List.Forall₂ Repaired s (repair s) := by
  induction s using unit_induction with
  | nil => exact .nil
  | pair u v s hu hv ih =>
    rw [repair_pair hu hv]
    exact .cons (.inl rfl) (.cons (.inl rfl) ih)
  | lone u s h ih =>
    rw [repair_of_not_pairs h]
    exact .cons (repaired_repairUnit u) ih

@[simp] theorem length_repair : (repair s).length = s.length :=
  (forall₂_repair s).length_eq.symm

/-- A unit that repairing neither takes nor gives. -/
def isPlain (c : QChar) : Bool := !isSurrogate c && decide (c ≠ unit '?')

theorem Repaired.eq_plain_iff {u v c : QChar} (h : Repaired u v) (hc : isPlain c = true) :
    v = c ↔ u = c := by
  unfold isPlain at hc
  rw [Bool.and_eq_true, Bool.not_eq_true', decide_eq_true_eq] at hc
  rcases h with rfl | ⟨hu, rfl⟩
  · exact Iff.rfl
  · constructor
    · intro hv
      exact absurd hv.symm hc.2
    · rintro rfl
      rw [hc.1] at hu
      cases hu

theorem isPrefixOf_repaired {p s t : QString} (hp : p.all isPlain = true)
    (h : List.Forall₂ Repaired s t) : p.isPrefixOf t = p.isPrefixOf s := by
  induction p generalizing s t with
  | nil => rfl
  | cons c p ih =>
    rw [List.all_cons, Bool.and_eq_true] at hp
    cases h with
    | nil => rfl
    | cons hunit hrest =>
      rename_i u v s t
      have hsame : (c == v) = (c == u) := by
        have hiff := hunit.eq_plain_iff hp.1
        rw [Bool.eq_iff_iff, beq_iff_eq, beq_iff_eq, eq_comm, hiff, eq_comm]
      rw [List.isPrefixOf, List.isPrefixOf, hsame, ih hp.2 hrest]

variable {p : QString}

theorem startsWith_repair (hp : p.all isPlain = true) (s : QString) :
    startsWith (repair s) p = startsWith s p :=
  isPrefixOf_repaired hp (forall₂_repair s)

theorem endsWith_repair (hp : p.all isPlain = true) (s : QString) :
    endsWith (repair s) p = endsWith s p := by
  have hreverse : p.reverse.all isPlain = true := by rwa [List.all_reverse]
  exact isPrefixOf_repaired hreverse (List.rel_reverse (forall₂_repair s))

/-- A text of the source is recognised as before. -/
theorem repair_eq_iff (hp : p.all isPlain = true) {s : QString} : repair s = p ↔ s = p := by
  have hrepaired := forall₂_repair s
  generalize repair s = t at hrepaired
  induction p generalizing s t with
  | nil =>
    cases hrepaired with
    | nil => exact Iff.rfl
    | cons hunit hrest => simp
  | cons c p ih =>
    rw [List.all_cons, Bool.and_eq_true] at hp
    cases hrepaired with
    | nil => simp
    | cons hunit hrest =>
      rw [List.cons.injEq, List.cons.injEq]
      exact and_congr (hunit.eq_plain_iff hp.1) (ih hp.2 _ hrest)

theorem Repaired.digitValue_eq {u v : QChar} (h : Repaired u v) : digitValue v = digitValue u := by
  rcases h with rfl | ⟨hu, rfl⟩
  · rfl
  · rw [isSurrogate_iff] at hu
    have hnot : ¬ (0x30 ≤ u.toNat ∧ u.toNat ≤ 0x39) := by omega
    have hmark : digitValue (unit '?') = none := by decide
    rw [hmark, digitValue, if_neg hnot]

theorem repair_eq_nil_iff {s : QString} : repair s = [] ↔ s = [] := repair_eq_iff (by decide)

def weight (s : QString) : Nat := s.countP fun c => decide (c ≠ unit '?')

theorem ne_mark_of_isSurrogate (hu : isSurrogate u = true) : u ≠ unit '?' := by
  rintro rfl
  exact absurd hu (by decide)

theorem weight_of_repaired {s t : QString} (h : List.Forall₂ Repaired s t) :
    weight t ≤ weight s ∧ (weight t = weight s → t = s) := by
  unfold weight
  induction h with
  | nil => exact ⟨Nat.le_refl _, fun _ => rfl⟩
  | cons hunit _ ih =>
    rcases hunit with rfl | ⟨hu, rfl⟩
    · rw [List.countP_cons, List.countP_cons]
      refine ⟨by omega, fun h => ?_⟩
      rw [ih.2 (by omega)]
    · have hne := ne_mark_of_isSurrogate hu
      rw [List.countP_cons_of_neg (by simp), List.countP_cons_of_pos (by simpa using hne)]
      exact ⟨by omega, fun h => by omega⟩

theorem weight_repair :
    weight (repair s) ≤ weight s ∧ (weight (repair s) = weight s → repair s = s) :=
  weight_of_repaired (forall₂_repair s)

theorem unit_ne_of_isSurrogate {u c : QChar} (hu : isSurrogate u = true) (hc : isPlain c = true) :
    u ≠ c := by
  rintro rfl
  unfold isPlain at hc
  rw [hu] at hc
  cases hc

theorem isSurrogate_of_high (hu : isHighSurrogate u = true) : isSurrogate u = true := by
  unfold isSurrogate
  rw [hu]
  rfl

theorem isSurrogate_of_low (hu : isLowSurrogate u = true) : isSurrogate u = true := by
  unfold isSurrogate
  rw [hu, Bool.or_true]

theorem head?_parts (sep : QChar) (s : QString) {v : QChar} (h : (parts sep s).1.head? = some v) :
    s.head? = some v := by
  cases s with
  | nil => exact h
  | cons c s =>
    rw [parts] at h
    split at h
    · cases h
    · exact h

/-- **Repairing goes part by part**: a separator breaks no pair. -/
theorem parts_repair {sep : QChar} (hsep : isPlain sep = true) (s : QString) :
    parts sep (repair s) = (repair (parts sep s).1, (parts sep s).2.map repair) := by
  induction s using unit_induction with
  | nil => rfl
  | pair u v s hu hv ih =>
    have hu' := unit_ne_of_isSurrogate (isSurrogate_of_high hu) hsep
    have hv' := unit_ne_of_isSurrogate (isSurrogate_of_low hv) hsep
    rw [repair_pair hu hv]
    simp only [parts, if_neg hu', if_neg hv', ih, repair_pair hu hv]
  | lone u s h ih =>
    have hunit := (repaired_repairUnit u).eq_plain_iff hsep
    rw [repair_of_not_pairs h]
    by_cases hu : u = sep
    · have hu' := hunit.mpr hu
      simp only [parts, if_pos hu, if_pos hu', ih, List.map_cons]
      rfl
    · have hu' : ¬ repairUnit u = sep := fun heq => hu (hunit.mp heq)
      have hparts : ¬ Pairs u (parts sep s).1 := by
        rintro ⟨hhigh, v, hv, hlow⟩
        exact h ⟨hhigh, v, head?_parts sep s hv, hlow⟩
      simp only [parts, if_neg hu, if_neg hu', ih, repair_of_not_pairs hparts]

theorem split_repair {sep : Char} (hsep : isPlain (unit sep) = true) (s : QString) :
    split (repair s) sep = (split s sep).map repair := by
  unfold split
  rw [parts_repair hsep]
  show (((parts (unit sep) s).1 :: (parts (unit sep) s).2).map repair).filter _ = _
  rw [List.filter_map]
  congr 1
  apply List.filter_congr
  intro part _
  show decide (repair part ≠ []) = decide (part ≠ [])
  rw [decide_eq_decide, ne_eq, ne_eq, repair_eq_nil_iff]

end QString
end DeconzRest

import DeconzRest.Qt.Number
import DeconzRest.Qt.Unicode

/-!
# UTF-8 read as Latin-1

`QString(QLatin1String)` makes a unit of every octet.  Of a text in UTF-8 it gives that text,
trimmed or not, only if the text is ASCII (`trimmed_latin1_iff`): any other character has more
octets than units, and of the last one a single octet can be taken for white space.
-/

namespace DeconzRest
namespace QString

open List

/-- The text of a `QLatin1String` -/
def latin1 (octets : List UInt8) : QString := octets.map UInt8.toUInt16

def utf8 (cs : List Char) : List UInt8 := cs.flatMap String.utf8EncodeChar

theorem latin1_append (a b : List UInt8) : latin1 (a ++ b) = latin1 a ++ latin1 b :=
  map_append

theorem toNat_of_mem_latin1 {octets : List UInt8} {u : QChar} (h : u ∈ latin1 octets) :
    u.toNat < 0x100 := by
  obtain ⟨b, -, rfl⟩ := mem_map.mp h
  rw [UInt8.toNat_toUInt16]
  exact b.toNat_lt

theorem trimmed_eq_rdropWhile (s : QString) :
    trimmed s = (s.dropWhile isSpace).rdropWhile isSpace := rfl

variable {s : QString}

theorem trimmed_of_ends (hfront : ∀ u ∈ s.head?, isSpace u = false)
    (hback : ∀ u ∈ s.getLast?, isSpace u = false) : trimmed s = s := by
  have hdrop : s.dropWhile isSpace = s := by
    cases s with
    | nil => rfl
    | cons u s => rw [dropWhile_cons, hfront u rfl]; rfl
  rw [trimmed_eq_rdropWhile, hdrop, rdropWhile_eq_self_iff]
  intro hne
  rw [hback _ (List.getLast?_eq_some_getLast hne)]
  exact Bool.false_ne_true

theorem ends_of_trimmed (h : trimmed s = s) :
    (∀ u ∈ s.head?, isSpace u = false) ∧ ∀ u ∈ s.getLast?, isSpace u = false := by
  rw [trimmed_eq_rdropWhile] at h
  have hdrop : s.dropWhile isSpace = s := by
    have hlength := (List.rdropWhile_prefix isSpace (s.dropWhile isSpace)).length_le
    rw [h] at hlength
    exact (dropWhile_suffix isSpace).eq_of_length_le hlength
  rw [hdrop] at h
  constructor
  · intro u hu
    have hhead := List.head?_dropWhile_not isSpace s
    rw [hdrop, Option.mem_def.mp hu] at hhead
    exact hhead
  · intro u hu
    have hne : s ≠ [] := by
      rintro rfl
      cases hu
    have hlast := rdropWhile_eq_self_iff.mp h hne
    rw [List.getLast?_eq_some_getLast hne] at hu
    rw [← Option.some_inj.mp hu]
    exact eq_false_of_ne_true hlast

variable {c : Char}

theorem trimmed_concat_space (hne : s ≠ []) (hs : trimmed s = s) {u : QChar} (hu : isSpace u = true)
    : trimmed (s ++ [u]) = s := by
  obtain ⟨c, t, rfl⟩ := exists_cons_of_ne_nil hne
  have hc : isSpace c = false := (ends_of_trimmed hs).1 c rfl
  have hdrop : ∀ t : QString, (c :: t).dropWhile isSpace = c :: t := by
    intro t
    rw [dropWhile_cons, hc]
    rfl
  rw [trimmed_eq_rdropWhile, cons_append, hdrop, ← cons_append, rdropWhile_concat_pos _ _ _ hu]
  rw [trimmed_eq_rdropWhile, hdrop] at hs
  exact hs

theorem utf8EncodeChar_ascii (h : c.toNat < 0x80) :
    latin1 (String.utf8EncodeChar c) = [unit c] := by
  have hsize : c.utf8Size = 1 := Char.utf8Size_eq_one_iff.mpr (Nat.le_of_lt_succ h)
  rw [String.utf8EncodeChar_eq_singleton hsize]
  refine congrArg (fun u => [u]) (UInt16.toNat_inj.mp ?_)
  have hnat : c.val.toNat = c.toNat := rfl
  rw [UInt8.toNat_toUInt16, UInt32.toNat_toUInt8, unit, UInt16.toNat_ofNat', hnat]
  omega

theorem utf8EncodeChar_latin1 : ∀ n < 0x100, 0x80 ≤ n →
    ∃ lead rest : UInt8, String.utf8EncodeChar (Char.ofNat n) = [lead, rest] ∧
      isSpace lead.toUInt16 = false ∧
      (isSpace rest.toUInt16 = true → lead.toUInt16 ≠ unit (Char.ofNat n)) := by
  have hall : ∀ n < 0x100, 0x80 ≤ n →
      String.utf8EncodeChar (Char.ofNat n) =
        [(String.utf8EncodeChar (Char.ofNat n)).headD 0,
          (String.utf8EncodeChar (Char.ofNat n)).getLastD 0] ∧
      isSpace ((String.utf8EncodeChar (Char.ofNat n)).headD 0).toUInt16 = false ∧
      (isSpace ((String.utf8EncodeChar (Char.ofNat n)).getLastD 0).toUInt16 = true →
        ((String.utf8EncodeChar (Char.ofNat n)).headD 0).toUInt16 ≠ unit (Char.ofNat n)) := by
    decide +kernel
  exact fun n hn hge => ⟨_, _, hall n hn hge⟩

theorem toNat_lt_of_utf16 (h : ∀ u ∈ utf16 c, u.toNat < 0x100) : c.toNat < 0x100 := by
  unfold utf16 at h
  split at h
  · rename_i hsmall
    have hunit := h _ mem_cons_self
    rw [UInt16.toNat_ofNat'] at hunit
    omega
  · rename_i hlarge
    have hunit := h _ mem_cons_self
    have hvalid := toNat_valid c
    rw [UInt16.toNat_ofNat'] at hunit
    omega

variable {cs : List Char}

theorem toNat_lt_of_ofChars (h : ∀ u ∈ ofChars cs, u.toNat < 0x100) : ∀ c ∈ cs, c.toNat < 0x100 :=
  fun c hc => toNat_lt_of_utf16 fun u hu => h u (mem_flatMap.mpr ⟨c, hc, hu⟩)

theorem ofChars_eq_map (h : ∀ c ∈ cs, c.toNat < 0x100) : ofChars cs = cs.map unit :=
  (map_unit_eq fun c hc => Nat.lt_trans (h c hc) (by decide)).symm

/-! ## Texts -/

theorem latin1_utf8_cons (c : Char) (cs : List Char) :
    latin1 (utf8 (c :: cs)) = latin1 (String.utf8EncodeChar c) ++ latin1 (utf8 cs) := by
  rw [utf8, flatMap_cons, latin1_append]
  rfl

theorem latin1_utf8_ascii (h : ∀ c ∈ cs, c.toNat < 0x80) : latin1 (utf8 cs) = cs.map unit := by
  induction cs with
  | nil => rfl
  | cons c cs ih =>
    rw [latin1_utf8_cons, utf8EncodeChar_ascii (h c mem_cons_self),
      ih fun d hd => h d (mem_cons_of_mem _ hd)]
    rfl

theorem ascii_of_length (h : (utf8 cs).length = cs.length) : ∀ c ∈ cs, c.toNat < 0x80 := by
  have hle : ∀ ds : List Char, ds.length ≤ (utf8 ds).length := by
    intro ds
    induction ds with
    | nil => exact Nat.le_refl 0
    | cons d ds ih =>
      have hpos := d.utf8Size_pos
      rw [utf8, flatMap_cons, List.length_append, String.length_utf8EncodeChar, length_cons]
      unfold utf8 at ih
      omega
  induction cs with
  | nil => exact fun c hc => absurd hc not_mem_nil
  | cons d ds ih =>
    have hrest := hle ds
    have hpos := d.utf8Size_pos
    rw [utf8, flatMap_cons, List.length_append, String.length_utf8EncodeChar, length_cons] at h
    unfold utf8 at hrest ih
    have hone : d.utf8Size = 1 := by omega
    rw [forall_mem_cons]
    exact ⟨Nat.lt_succ_of_le (Char.utf8Size_eq_one_iff.mp hone), ih (by omega)⟩

theorem head?_latin1_utf8 (h : ∀ c ∈ cs, c.toNat < 0x100)
    (hfront : ∀ u ∈ (cs.map unit).head?, isSpace u = false) :
    ∀ u ∈ (latin1 (utf8 cs)).head?, isSpace u = false := by
  cases cs with
  | nil => exact fun u hu => nomatch hu
  | cons c cs =>
    rw [latin1_utf8_cons]
    rcases Nat.lt_or_ge c.toNat 0x80 with hascii | hhigh
    · rw [utf8EncodeChar_ascii hascii]
      exact hfront
    · obtain ⟨lead, rest, hoctets, hlead, -⟩ :=
        utf8EncodeChar_latin1 c.toNat (h c mem_cons_self) hhigh
      rw [Char.ofNat_toNat] at hoctets
      rw [hoctets]
      intro u hu
      rw [← Option.some_inj.mp hu]
      exact hlead

theorem latin1_utf8_concat (ds : List Char) (c : Char) :
    latin1 (utf8 (ds ++ [c])) = latin1 (utf8 ds) ++ latin1 (String.utf8EncodeChar c) := by
  rw [utf8, flatMap_append, flatMap_singleton, latin1_append]
  rfl

theorem trimmed_latin1_concat_ne {ds : List Char} (hsmall : c.toNat < 0x100)
    (hhigh : 0x80 ≤ c.toNat) (hhead : ∀ u ∈ (latin1 (utf8 (ds ++ [c]))).head?, isSpace u = false)
    (hcut : trimmed (latin1 (utf8 (ds ++ [c]))) ≠ latin1 (utf8 (ds ++ [c]))) :
    trimmed (latin1 (utf8 (ds ++ [c]))) ≠ (ds ++ [c]).map unit := by
  obtain ⟨lead, rest, hoctets, hlead, hother⟩ := utf8EncodeChar_latin1 c.toNat hsmall hhigh
  rw [Char.ofNat_toNat] at hoctets hother
  have hlatin : latin1 (utf8 (ds ++ [c])) = (latin1 (utf8 ds) ++ [lead.toUInt16]) ++
      [rest.toUInt16] := by
    rw [latin1_utf8_concat, hoctets, append_assoc]
    rfl
  rw [hlatin] at hhead hcut ⊢
  have hspace : isSpace rest.toUInt16 = true := by
    by_contra hrest
    refine hcut (trimmed_of_ends hhead fun u hu => ?_)
    rw [List.getLast?_concat] at hu
    rw [← Option.some_inj.mp hu]
    exact eq_false_of_ne_true hrest
  have hleft : trimmed (latin1 (utf8 ds) ++ [lead.toUInt16]) = latin1 (utf8 ds) ++
      [lead.toUInt16] := by
    refine trimmed_of_ends (fun u hu => hhead u ?_) fun u hu => ?_
    · rw [List.head?_append_of_ne_nil _ (append_ne_nil_of_right_ne_nil _
        (cons_ne_nil _ _))]
      exact hu
    · rw [List.getLast?_concat] at hu
      rw [← Option.some_inj.mp hu]
      exact hlead
  intro h
  rw [trimmed_concat_space (append_ne_nil_of_right_ne_nil _ (cons_ne_nil _ _)) hleft
    hspace, map_append] at h
  exact hother hspace (List.cons.inj (append_inj_right' h rfl)).1

/-- **The UTF-8 form of a text, read as Latin-1** and trimmed, is the text only if that is
ASCII. -/
theorem trimmed_latin1_iff (htrim : trimmed (ofChars cs) = ofChars cs) :
    trimmed (latin1 (utf8 cs)) = ofChars cs ↔ ∀ c ∈ cs, c.toNat < 0x80 := by
  constructor
  · intro h
    have hsmall : ∀ c ∈ cs, c.toNat < 0x100 := by
      refine toNat_lt_of_ofChars fun u hu => ?_
      rw [← h] at hu
      exact toNat_of_mem_latin1 (((List.rdropWhile_prefix isSpace _).sublist.trans
        (dropWhile_sublist _)).mem hu)
    rw [ofChars_eq_map hsmall] at h htrim
    obtain ⟨hfront, hback⟩ := ends_of_trimmed htrim
    have hhead := head?_latin1_utf8 hsmall hfront
    by_cases hkept : trimmed (latin1 (utf8 cs)) = latin1 (utf8 cs)
    · refine ascii_of_length ?_
      have hlength := congrArg List.length (hkept.symm.trans h)
      rwa [latin1, length_map, length_map] at hlength
    · exfalso
      rcases eq_nil_or_concat' cs with rfl | ⟨ds, c, rfl⟩
      · exact hkept rfl
      · rcases Nat.lt_or_ge c.toNat 0x80 with hascii | hhigh
        · -- the last octet is the last character
          refine hkept (trimmed_of_ends hhead fun u hu => hback u ?_)
          rw [latin1_utf8_concat, utf8EncodeChar_ascii hascii, List.getLast?_concat] at hu
          rw [map_append, map_singleton, List.getLast?_concat]
          exact hu
        · exact trimmed_latin1_concat_ne
            (hsmall c (mem_append_right _ mem_cons_self)) hhigh hhead hkept h
  · intro hascii
    rw [ofChars_eq_map fun c hc => Nat.lt_trans (hascii c hc) (by decide)] at htrim ⊢
    rw [latin1_utf8_ascii hascii]
    exact htrim

end QString
end DeconzRest

import DeconzRest.Json.Text

/-!
# Variants that are read as they were written

`reread f` gives a variant back when `f` changes none of its texts, it has no integers and
its maps are in order (`reread_eq_self`).  For an `f` that only ever makes texts lighter
nothing else comes back (`reread_eq_self_iff`): a map with a lighter key, or with two keys
made equal, weighs less than the one that was written.
-/

namespace DeconzRest
namespace Json

open List

variable {D : Type} (f : QString → QString) (qt : Qt D)

theorem rereadList_eq_map (values : List (QVariant D)) :
    rereadList f qt values = values.map (reread f qt) := by
  induction values with
  | nil => rfl
  | cons v values ih => rw [rereadList, ih, map_cons]

theorem insert_last {key : QString} (value : QVariant D) {entries : List (QString × QVariant D)}
    (h : ∀ k ∈ entries.map Prod.fst, k < key) :
    insert key value entries = entries ++ [(key, value)] := by
  induction entries with
  | nil => rfl
  | cons entry entries ih =>
    obtain ⟨k, v⟩ := entry
    have hk : k < key := h k mem_cons_self
    have hnot : ¬ key < k := fun hlt => absurd (List.lt_trans hk hlt) (List.lt_irrefl k)
    have hne : key ≠ k := by
      rintro rfl
      exact List.lt_irrefl key hk
    rw [insert, if_neg hnot, if_neg hne, ih fun x hx => h x (mem_cons_of_mem k hx)]
    rfl

variable {f}

theorem rereadEntries_eq_map {entries map : List (QString × QVariant D)}
    (hsorted : (map.map Prod.fst ++ entries.map fun e => f e.1).Pairwise (· < ·)) :
    rereadEntries f qt entries map = map ++ entries.map fun e => (f e.1, reread f qt e.2) := by
  induction entries generalizing map with
  | nil => rw [rereadEntries, map_nil, append_nil]
  | cons entry entries ih =>
    obtain ⟨key, v⟩ := entry
    have hlast : insert (f key) (reread f qt v) map = map ++ [(f key, reread f qt v)] := by
      refine insert_last _ ?_
      rw [pairwise_append] at hsorted
      exact fun k hk => hsorted.2.2 k hk (f key) mem_cons_self
    have hrest : ((map ++ [(f key, reread f qt v)]).map Prod.fst ++
        entries.map fun e => f e.1).Pairwise (· < ·) := by
      simpa using hsorted
    rw [rereadEntries, hlast, ih hrest, append_assoc]
    rfl

theorem rereadEntries_nil {entries : List (QString × QVariant D)}
    (hkeys : ∀ e ∈ entries, f e.1 = e.1) (hsorted : (entries.map Prod.fst).Pairwise (· < ·)) :
    rereadEntries f qt entries [] = entries.map fun e => (e.1, reread f qt e.2) := by
  have hsame : entries.map (fun e => f e.1) = entries.map Prod.fst :=
    map_congr_left hkeys
  have hmap : rereadEntries f qt entries [] = [] ++ entries.map fun e => (f e.1, reread f qt e.2) :=
    rereadEntries_eq_map qt (by simpa [hsame] using hsorted)
  rw [hmap, nil_append]
  refine map_congr_left fun e hmem => ?_
  rw [hkeys e hmem]

theorem lookup_rereadEntries {key : QString} (hkey : ∀ k, f k = key ↔ k = key)
    {entries map : List (QString × QVariant D)} (hsorted : (entries.map Prod.fst).Pairwise (· < ·)) :
    (rereadEntries f qt entries map).lookup key =
      ((entries.lookup key).map (reread f qt)).or (map.lookup key) := by
  induction entries generalizing map with
  | nil => rfl
  | cons entry entries ih =>
    obtain ⟨k, v⟩ := entry
    rw [map_cons, pairwise_cons] at hsorted
    rw [rereadEntries, ih hsorted.2, lookup_insert]
    by_cases hk : k = key
    · subst hk
      -- the keys behind it are greater
      have hnone : entries.lookup k = none := by
        rw [lookup_eq_none_iff]
        intro e hmem
        have hlt := hsorted.1 e.1 (mem_map_of_mem hmem)
        rw [bne_iff_ne]
        rintro rfl
        exact List.lt_irrefl _ hlt
      rw [hnone, lookup_cons_self, if_pos ((hkey k).mpr rfl).symm]
      rfl
    · rw [lookup_cons_of_ne (Ne.symm hk), if_neg fun h => hk ((hkey k).mp h.symm)]

/-- **What comes back.** -/
theorem reread_eq_self {v : QVariant D}
    (hv : Every { int := fun _ => False, text := fun s => f s = s,
                  keys := fun keys => keys.Pairwise (· < ·) } v) : reread f qt v = v := by
  induction v using variant_induction with
  | invalid | bool _ | double _ => rw [reread]
  | int n =>
    rw [Every] at hv
    exact hv.elim
  | string s =>
    rw [Every] at hv
    rw [reread, hv]
  | list values ih =>
    rw [Every, everyValue_iff] at hv
    rw [reread, rereadList_eq_map, map_congr_left fun v hmem => ih v hmem (hv v hmem)]
    exact congrArg QVariant.list (map_id values)
  | map entries ih =>
    rw [Every, everyEntry_iff] at hv
    have hentries : ∀ e ∈ entries, (e.1, reread f qt e.2) = e := by
      intro e hmem
      rw [ih e hmem (hv.1 e hmem).2]
    rw [reread, rereadEntries_nil qt (fun e hmem => (hv.1 e hmem).1) hv.2, map_congr_left hentries]
    exact congrArg QVariant.map (map_id entries)

theorem textTail_congr {values more : List (QVariant D)}
    (h : values.map (text f qt) = more.map (text f qt)) :
    textTail f qt values = textTail f qt more := by
  have hflat : ∀ values : List (QVariant D), textTail f qt values =
      (values.map (text f qt)).flatMap fun t => QString.unit ',' :: t := by
    intro values
    induction values with
    | nil => rfl
    | cons v values ih => rw [textTail, ih, map_cons, flatMap_cons, cons_append]
  rw [hflat, hflat, h]

def entryText (f : QString → QString) (qt : Qt D) (e : QString × QVariant D) : QString :=
  sanitizeString (f e.1) ++ QString.unit ':' :: text f qt e.2

theorem textEntriesTail_congr {entries more : List (QString × QVariant D)}
    (h : entries.map (entryText f qt) = more.map (entryText f qt)) :
    textEntriesTail f qt entries = textEntriesTail f qt more := by
  have hflat : ∀ entries : List (QString × QVariant D), textEntriesTail f qt entries =
      (entries.map (entryText f qt)).flatMap fun t => QString.unit ',' :: t := by
    intro entries
    induction entries with
    | nil => rfl
    | cons e entries ih =>
      obtain ⟨key, v⟩ := e
      rw [textEntriesTail, ih, map_cons, flatMap_cons, entryText]
      simp only [cons_append, append_assoc]
  rw [hflat, hflat, h]

/-- **What was read is written as before**, where `f` keeps the keys in order. -/
theorem text_reread (hf : ∀ s, f (f s) = f s) {v : QVariant D}
    (hv : Every { int := fun _ => False, keys := fun keys => (keys.map f).Pairwise (· < ·) } v) :
    text f qt (reread f qt v) = text f qt v := by
  induction v using variant_induction with
  | invalid | bool _ | double _ => rw [reread]
  | int n =>
    rw [Every] at hv
    exact hv.elim
  | string s => rw [reread, text, text, hf]
  | list values ih =>
    rw [Every, everyValue_iff] at hv
    rw [reread, rereadList_eq_map]
    cases values with
    | nil => rfl
    | cons v values =>
      have htail : textTail f qt (values.map (reread f qt)) = textTail f qt values := by
        refine textTail_congr qt ?_
        rw [map_map]
        exact map_congr_left fun w hw =>
          ih w (mem_cons_of_mem v hw) (hv w (mem_cons_of_mem v hw))
      rw [map_cons, text, text, htail, ih v mem_cons_self (hv v mem_cons_self)]
  | map entries ih =>
    rw [Every, everyEntry_iff] at hv
    have hentry : ∀ e ∈ entries, entryText f qt (f e.1, reread f qt e.2) = entryText f qt e := by
      intro e hmem
      rw [entryText, entryText, hf, ih e hmem (hv.1 e hmem).2]
    have hsorted : (entries.map fun e => f e.1).Pairwise (· < ·) := by
      have hkeys : ((entries.map Prod.fst).map f).Pairwise (· < ·) := hv.2
      rwa [map_map] at hkeys
    rw [reread, rereadEntries_eq_map qt (by simpa using hsorted), nil_append]
    cases entries with
    | nil => rfl
    | cons e entries =>
      obtain ⟨key, v⟩ := e
      have hfirst := ih (key, v) mem_cons_self (hv.1 _ mem_cons_self).2
      have htail : textEntriesTail f qt (entries.map fun e => (f e.1, reread f qt e.2)) =
          textEntriesTail f qt entries := by
        refine textEntriesTail_congr qt ?_
        rw [map_map]
        exact map_congr_left fun e hmem => hentry e (mem_cons_of_mem _ hmem)
      rw [map_cons, text, text, htail, hf, hfirst]

/-! ## Nothing else comes back -/

section Weight

variable {weight : QString → Nat}

def keyWeight (weight : QString → Nat) (entries : List (QString × QVariant D)) : Nat :=
  (entries.map fun e => weight e.1).sum

theorem keyWeight_cons (weight : QString → Nat) (entry : QString × QVariant D)
    (entries : List (QString × QVariant D)) :
    keyWeight weight (entry :: entries) = weight entry.1 + keyWeight weight entries := by
  unfold keyWeight
  rw [map_cons, sum_cons]

theorem keyWeight_insert (weight : QString → Nat) (key : QString) (value : QVariant D)
    (entries : List (QString × QVariant D)) :
    keyWeight weight (insert key value entries) ≤ weight key + keyWeight weight entries := by
  induction entries with
  | nil => exact Nat.le_refl _
  | cons entry entries ih =>
    obtain ⟨k, v⟩ := entry
    rw [insert]
    split
    · exact Nat.le_refl _
    · split
      · rw [keyWeight_cons, keyWeight_cons]
        show weight key + _ ≤ weight key + (weight k + _)
        omega
      · rw [keyWeight_cons, keyWeight_cons]
        show weight k + _ ≤ weight key + (weight k + _)
        omega

theorem keyWeight_rereadEntries (weight : QString → Nat) (f : QString → QString)
    (entries map : List (QString × QVariant D)) :
    keyWeight weight (rereadEntries f qt entries map) ≤ keyWeight weight map +
      keyWeight (fun s => weight (f s)) entries := by
  induction entries generalizing map with
  | nil => exact Nat.le_refl _
  | cons entry entries ih =>
    obtain ⟨key, v⟩ := entry
    have hstep := keyWeight_insert weight (f key) (reread f qt v) map
    have hrest := ih (insert (f key) (reread f qt v) map)
    rw [rereadEntries, keyWeight_cons]
    show _ ≤ _ + (weight (f key) + _)
    omega

theorem weight_eq_of_keyWeight_le (hle : ∀ s, weight (f s) ≤ weight s)
    {entries : List (QString × QVariant D)}
    (h : keyWeight weight entries ≤ keyWeight (fun s => weight (f s)) entries) :
    ∀ e ∈ entries, weight (f e.1) = weight e.1 := by
  have hboth : ∀ entries : List (QString × QVariant D),
      keyWeight (fun s => weight (f s)) entries ≤ keyWeight weight entries := by
    intro entries
    induction entries with
    | nil => exact Nat.le_refl _
    | cons entry entries ih =>
      have hentry := hle entry.1
      rw [keyWeight_cons, keyWeight_cons]
      show weight (f entry.1) + _ ≤ _
      omega
  induction entries with
  | nil => simp
  | cons entry entries ih =>
    have hentry := hle entry.1
    have hrest := hboth entries
    rw [keyWeight_cons, keyWeight_cons] at h
    replace h : weight entry.1 + _ ≤ weight (f entry.1) + _ := h
    rw [forall_mem_cons]
    refine ⟨by omega, ih ?_⟩
    omega

/-- **Exactly what comes back** of a variant of the parser, where `f` makes texts lighter or
leaves them alone. -/
theorem reread_eq_self_iff (hle : ∀ s, weight (f s) ≤ weight s)
    (heq : ∀ s, weight (f s) = weight s → f s = s) {v : QVariant D} (hv : Every Parts.parsed v) :
    reread f qt v = v ↔ Every { text := fun s => f s = s } v := by
  constructor
  · intro h
    induction v using variant_induction with
    | invalid | bool _ | double _ | int _ => exact trivial
    | string s =>
      rw [reread, QVariant.string.injEq] at h
      exact h
    | list values ih =>
      rw [Every, everyValue_iff] at hv ⊢
      rw [reread, rereadList_eq_map, QVariant.list.injEq] at h
      have hvalues := map_inj_left.mp (h.trans (map_id values).symm)
      exact fun v hmem => ih v hmem (hv v hmem) (hvalues v hmem)
    | map entries ih =>
      rw [Every, everyEntry_iff] at hv ⊢
      rw [reread, QVariant.map.injEq] at h
      have hweight := keyWeight_rereadEntries qt weight f entries []
      rw [h] at hweight
      have hkeys : ∀ e ∈ entries, f e.1 = e.1 := by
        intro e hmem
        refine heq e.1 (weight_eq_of_keyWeight_le hle ?_ e hmem)
        simpa [keyWeight] using hweight
      rw [rereadEntries_nil qt hkeys hv.2] at h
      have hentries := map_inj_left.mp (h.trans (map_id entries).symm)
      refine ⟨?_, trivial⟩
      intro e hmem
      have hvalue : reread f qt e.2 = e.2 := congrArg Prod.snd (hentries e hmem)
      exact ⟨hkeys e hmem, ih e hmem (hv.1 e hmem).2 hvalue⟩
  · intro h
    refine reread_eq_self qt ?_
    exact hv.both h (fun _ h _ => h) (fun _ _ _ => trivial) (fun _ _ h => h) fun _ h _ => h

end Weight

end Json
end DeconzRest

import DeconzRest.Json.Parse

/-!
# What is asked of a variant, all the way down

`Every` asks something of the numbers, texts and keys of a variant, however deep they
stand.  What `Json::parse` returns has no integers, and its maps are in the order of
their keys (`every_parse`).
-/

namespace DeconzRest
namespace Json

open List

variable {D : Type}

/-- What is asked of the parts of a variant; `text` is about strings and keys. -/
structure Parts (D : Type) where
  int : Int → Prop := fun _ => True
  double : D → Prop := fun _ => True
  text : QString → Prop := fun _ => True
  keys : List QString → Prop := fun _ => True

mutual

/-- Every part of the variant is as asked. -/
def Every (p : Parts D) : QVariant D → Prop
  | .invalid => True
  | .bool _ => True
  | .int n => p.int n
  | .double d => p.double d
  | .string s => p.text s
  | .list values => EveryValue p values
  | .map entries => EveryEntry p entries ∧ p.keys (entries.map Prod.fst)

def EveryValue (p : Parts D) : List (QVariant D) → Prop
  | [] => True
  | v :: values => Every p v ∧ EveryValue p values

def EveryEntry (p : Parts D) : List (QString × QVariant D) → Prop
  | [] => True
  | (key, v) :: entries => p.text key ∧ Every p v ∧ EveryEntry p entries

end

variable {p : Parts D}

theorem everyValue_iff {values : List (QVariant D)} :
    EveryValue p values ↔ ∀ v ∈ values, Every p v := by
  induction values with
  | nil => simp [EveryValue]
  | cons v values ih => rw [EveryValue, ih, forall_mem_cons]

variable {entries : List (QString × QVariant D)}

theorem everyEntry_iff : EveryEntry p entries ↔ ∀ e ∈ entries, p.text e.1 ∧ Every p e.2 := by
  induction entries with
  | nil => simp [EveryEntry]
  | cons entry entries ih =>
    obtain ⟨key, v⟩ := entry
    rw [EveryEntry, ih, forall_mem_cons, and_assoc]

section Decidable

variable (p : Parts D) [DecidablePred p.int] [DecidablePred p.double] [DecidablePred p.text]
  [DecidablePred p.keys]

mutual

def decideEvery : (v : QVariant D) → Decidable (Every p v)
  | .invalid => .isTrue trivial
  | .bool _ => .isTrue trivial
  | .int n => inferInstanceAs (Decidable (p.int n))
  | .double d => inferInstanceAs (Decidable (p.double d))
  | .string s => inferInstanceAs (Decidable (p.text s))
  | .list values => decideEveryValue values
  | .map entries =>
    have := decideEveryEntry entries
    inferInstanceAs (Decidable (EveryEntry p entries ∧ p.keys (entries.map Prod.fst)))

def decideEveryValue : (values : List (QVariant D)) → Decidable (EveryValue p values)
  | [] => .isTrue trivial
  | v :: values =>
    have := decideEvery v
    have := decideEveryValue values
    inferInstanceAs (Decidable (Every p v ∧ EveryValue p values))

def decideEveryEntry : (entries : List (QString × QVariant D)) → Decidable (EveryEntry p entries)
  | [] => .isTrue trivial
  | (key, v) :: entries =>
    have := decideEvery v
    have := decideEveryEntry entries
    inferInstanceAs (Decidable (p.text key ∧ Every p v ∧ EveryEntry p entries))

end

instance : DecidablePred (Every p) := decideEvery p

end Decidable

theorem everyValue_append {values more : List (QVariant D)} :
    EveryValue p (values ++ more) ↔ EveryValue p values ∧ EveryValue p more := by
  simp only [everyValue_iff, forall_mem_append]

/-- Variants by their depth: lists and maps after their values. -/
theorem variant_induction {motive : QVariant D → Prop} (invalid : motive .invalid)
    (bool : ∀ b, motive (.bool b)) (int : ∀ n, motive (.int n)) (double : ∀ d, motive (.double d))
    (string : ∀ s, motive (.string s))
    (list : ∀ values, (∀ v ∈ values, motive v) → motive (.list values))
    (map : ∀ entries : List (QString × QVariant D), (∀ e ∈ entries, motive e.2) →
      motive (.map entries)) (v : QVariant D) : motive v := by
  match v with
  | .invalid => exact invalid
  | .bool b => exact bool b
  | .int n => exact int n
  | .double d => exact double d
  | .string s => exact string s
  | .list values =>
    refine list values ?_
    intro w hw
    exact variant_induction invalid bool int double string list map w
  | .map entries =>
    refine map entries ?_
    intro e he
    exact variant_induction invalid bool int double string list map e.2
termination_by sizeOf v
decreasing_by
  · have hlt := sizeOf_lt_of_mem hw
    simp only [QVariant.list.sizeOf_spec]
    omega
  · have hlt := sizeOf_lt_of_mem he
    have hpair : sizeOf e.2 < sizeOf e := by
      obtain ⟨key, w⟩ := e
      simp only [Prod.mk.sizeOf_spec]
      omega
    simp only [QVariant.map.sizeOf_spec]
    omega

variable {v : QVariant D}

theorem Every.both {p q r : Parts D} (hp : Every p v) (hq : Every q v)
    (hint : ∀ n, p.int n → q.int n → r.int n) (hdouble : ∀ d, p.double d → q.double d → r.double d)
    (htext : ∀ s, p.text s → q.text s → r.text s)
    (hkeys : ∀ keys, p.keys keys → q.keys keys → r.keys keys) : Every r v := by
  induction v using variant_induction with
  | invalid => exact trivial
  | bool b => exact trivial
  | int n => exact hint n hp hq
  | double d => exact hdouble d hp hq
  | string s => exact htext s hp hq
  | list values ih =>
    rw [Every, everyValue_iff] at hp hq ⊢
    exact fun v hmem => ih v hmem (hp v hmem) (hq v hmem)
  | map entries ih =>
    rw [Every, everyEntry_iff] at hp hq ⊢
    refine ⟨?_, hkeys _ hp.2 hq.2⟩
    intro e hmem
    have hep := hp.1 e hmem
    have heq := hq.1 e hmem
    exact ⟨htext _ hep.1 heq.1, ih e hmem hep.2 heq.2⟩

theorem Every.imp {p q : Parts D} (hv : Every p v) (hint : ∀ n, p.int n → q.int n)
    (hdouble : ∀ d, p.double d → q.double d) (htext : ∀ s, p.text s → q.text s)
    (hkeys : ∀ keys, p.keys keys → q.keys keys) :
    Every q v :=
  hv.both hv (fun n h _ => hint n h) (fun d h _ => hdouble d h) (fun s h _ => htext s h)
    fun keys h _ => hkeys keys h

theorem every_of_forall (hint : ∀ n, p.int n) (hdouble : ∀ d, p.double d) (htext : ∀ s, p.text s)
    (hkeys : ∀ keys, p.keys keys) (v : QVariant D) : Every p v := by
  induction v using variant_induction with
  | invalid => exact trivial
  | bool b => exact trivial
  | int n => exact hint n
  | double d => exact hdouble d
  | string s => exact htext s
  | list values ih =>
    rw [Every, everyValue_iff]
    exact ih
  | map entries ih =>
    rw [Every, everyEntry_iff]
    exact ⟨fun e hmem => ⟨htext e.1, ih e hmem⟩, hkeys _⟩

theorem Every.of_mem_toList {v w : QVariant D} (hv : Every p v) (hw : w ∈ v.toList) :
    Every p w := by
  cases v with
  | list values =>
    rw [Every, everyValue_iff] at hv
    exact hv w hw
  | invalid | bool _ | int _ | double _ | string _ | map _ => cases hw

theorem Every.value (hv : Every p v) (key : String) : Every p (QVariant.value v.toMap key) := by
  cases v with
  | map entries =>
    rw [Every, everyEntry_iff] at hv
    unfold QVariant.value
    cases hlookup : entries.lookup (QString.ofLatin1 key) with
    | none =>
      show Every p ((entries.lookup _).getD _)
      rw [hlookup]
      exact trivial
    | some w =>
      show Every p ((entries.lookup _).getD _)
      rw [hlookup]
      obtain ⟨front, back, rfl, -⟩ := lookup_eq_some_iff.mp hlookup
      exact (hv.1 _ (mem_append_right front mem_cons_self)).2
  | invalid | bool _ | int _ | double _ | string _ | list _ => exact trivial

/-- Something is asked of the doubles alone. -/
def Parts.doubles (p : D → Prop) : Parts D where
  double := p

/-! ## What the parser returns -/

/-- There are no integers, and the keys are in order. -/
def Parts.parsed : Parts D where
  int := fun _ => False
  keys := fun keys => keys.Pairwise (· < ·)

variable (key : QString)

theorem keys_insert (value : QVariant D) (entries : List (QString × QVariant D)) :
    ∀ k ∈ (insert key value entries).map Prod.fst, k = key ∨ k ∈ entries.map Prod.fst := by
  induction entries with
  | nil =>
    intro k hk
    exact .inl (mem_singleton.mp hk)
  | cons entry entries ih =>
    obtain ⟨k', v⟩ := entry
    intro k hk
    rw [insert] at hk
    split at hk
    · exact mem_cons.mp hk
    · split at hk
      · rcases mem_cons.mp hk with rfl | hk
        · exact .inl rfl
        · exact .inr (mem_cons_of_mem k' hk)
      · rcases mem_cons.mp hk with rfl | hk
        · exact .inr mem_cons_self
        · exact (ih k hk).imp id (mem_cons_of_mem k')

theorem sorted_insert (value : QVariant D) (h : (entries.map Prod.fst).Pairwise (· < ·)) :
    ((insert key value entries).map Prod.fst).Pairwise (· < ·) := by
  induction entries with
  | nil => exact pairwise_singleton _ _
  | cons entry entries ih =>
    obtain ⟨k, v⟩ := entry
    rw [map_cons, pairwise_cons] at h
    rw [insert]
    split
    · rename_i hlt
      rw [map_cons, pairwise_cons]
      refine ⟨?_, pairwise_cons.mpr h⟩
      intro k' hk'
      rcases mem_cons.mp hk' with rfl | hk'
      · exact hlt
      · exact List.lt_trans hlt (h.1 k' hk')
    · split
      · rename_i heq
        subst heq
        exact pairwise_cons.mpr h
      · rename_i hnot hne
        have hlt : k < key := by
          rcases List.le_iff_lt_or_eq.mp (List.not_lt.mp hnot) with hlt | heq
          · exact hlt
          · exact absurd heq.symm hne
        rw [map_cons, pairwise_cons]
        refine ⟨?_, ih h.2⟩
        intro k' hk'
        rcases keys_insert key value entries k' hk' with rfl | hk'
        · exact hlt
        · exact h.1 k' hk'

theorem lookup_cons_of_ne {k key : QString} (h : k ≠ key) (v : QVariant D)
    (map : List (QString × QVariant D)) : ((key, v) :: map).lookup k = map.lookup k := by
  rw [lookup_cons, beq_eq_false_iff_ne.mpr h]

theorem lookup_insert (k key : QString) (v : QVariant D) (map : List (QString × QVariant D)) :
    (insert key v map).lookup k = if k = key then some v else map.lookup k := by
  induction map with
  | nil =>
    rw [insert]
    split
    · simp [*]
    · rw [lookup_cons_of_ne ‹_›]
  | cons entry rest ih =>
    obtain ⟨k', v'⟩ := entry
    rw [insert]
    split
    · split
      · simp [*]
      · rw [lookup_cons_of_ne ‹_›]
    · split
      · rename_i heq
        subst heq
        split
        · simp [*]
        · rw [lookup_cons_of_ne ‹_›, lookup_cons_of_ne ‹_›]
      · rename_i hne
        by_cases hk' : k = k'
        · subst hk'
          rw [if_neg (Ne.symm hne), lookup_cons_self, lookup_cons_self]
        · rw [lookup_cons_of_ne hk', lookup_cons_of_ne hk', ih]

theorem insert_insert (v w : QVariant D) (map : List (QString × QVariant D)) :
    insert key v (insert key w map) = insert key v map := by
  have hirrefl : ¬ key < key := List.lt_irrefl _
  induction map with
  | nil => simp [insert, hirrefl]
  | cons entry rest ih =>
    obtain ⟨k', v'⟩ := entry
    by_cases hlt : key < k'
    · simp [insert, hlt, hirrefl]
    · by_cases heq : key = k'
      · subst heq
        simp [insert, hirrefl]
      · simp [insert, hlt, heq, ih]

theorem lookup_map_snd (g : QVariant D → QVariant D) (key : QString)
    (entries : List (QString × QVariant D)) :
    (entries.map fun e => (e.1, g e.2)).lookup key = (entries.lookup key).map g := by
  induction entries with
  | nil => rfl
  | cons entry entries ih =>
    rw [map_cons, lookup_cons, lookup_cons, ih]
    split
    · rfl
    · rfl

theorem everyEntry_insert {key : QString} {value : QVariant D} (hkey : p.text key)
    (hvalue : Every p value) (h : EveryEntry p entries) :
    EveryEntry p (insert key value entries) := by
  induction entries with
  | nil => exact ⟨hkey, hvalue, h⟩
  | cons entry entries ih =>
    obtain ⟨k, v⟩ := entry
    rw [EveryEntry] at h
    rw [insert]
    split
    · exact ⟨hkey, hvalue, h⟩
    · split
      · exact ⟨hkey, hvalue, h.2.2⟩
      · exact ⟨h.1, h.2.1, ih h.2.2⟩

variable (qt : Qt D)

theorem every_parseString (json : QString) : Every Parts.parsed (parseString qt json).value := by
  unfold parseString
  split
  split <;> exact trivial

theorem every_parse_fuel (fuel : Nat) :
    (∀ json, Every Parts.parsed (parseValue qt fuel json).value) ∧
      (∀ json map, Every Parts.parsed (.map map) →
        Every Parts.parsed (parseObject qt fuel json map).value) ∧
      (∀ json list, EveryValue Parts.parsed list →
        Every Parts.parsed (parseArray qt fuel json list).value) := by
  have hempty : Every (Parts.parsed : Parts D) (.map []) := ⟨trivial, List.Pairwise.nil⟩
  induction fuel with
  | zero =>
    refine ⟨fun json => ?_, fun json map _ => ?_, fun json list _ => ?_⟩
    · rw [parseValue]
      exact trivial
    · rw [parseObject]
      exact hempty
    · rw [parseArray]
      exact trivial
  | succ fuel ih =>
    obtain ⟨ihValue, ihObject, ihArray⟩ := ih
    refine ⟨fun json => ?_, fun json map hmap => ?_, fun json list hlist => ?_⟩
    · rw [parseValue]
      cases lookAhead json with
      | string => exact every_parseString qt json
      | curlyOpen => exact ihObject _ [] hempty
      | squaredOpen => exact ihArray _ [] trivial
      | none | curlyClose | squaredClose | colon | comma | number | true | false | null =>
        exact trivial
    · rw [parseObject]
      cases lookAhead json with
      | none => exact hempty
      | comma => exact ihObject _ map hmap
      | curlyClose => exact hmap
      | curlyOpen | squaredOpen | squaredClose | colon | string | number | true | false
      | null =>
        simp only
        split
        · exact hempty
        · split
          · exact hempty
          · split
            · exact hempty
            · exact ihObject _ _
                ⟨everyEntry_insert trivial (ihValue _) hmap.1, sorted_insert _ _ hmap.2⟩
    · rw [parseArray]
      cases lookAhead json with
      | none => exact trivial
      | comma => exact ihArray _ list hlist
      | squaredClose => exact hlist
      | curlyOpen | curlyClose | squaredOpen | colon | string | number | true | false
      | null =>
        simp only
        split
        · exact trivial
        · exact ihArray _ _ (everyValue_append.mpr ⟨hlist, ihValue _, trivial⟩)

/-- **Every value that `Json::parse` returns is without integers and in order.** -/
theorem every_parse (json : QString) : Every Parts.parsed (parse qt json).1 :=
  (every_parse_fuel qt _).1 json

end Json
end DeconzRest

import DeconzRest.Lib.SortedMap
import DeconzRest.Lib.LittleEndian
import DeconzRest.Lib.Transition
import DeconzRest.Qt.Number
import DeconzRest.Qt.Parts

/-!
# The weekly schedule of a thermostat

The item `config/schedule` is a text with one entry `W<weekdays>/<transitions>` for each set of
weekdays.  `updateThermostatSchedule` takes the new weekdays away from the entries that are
there and puts them to the entry with the same transitions, or into one of their own.
-/

namespace DeconzRest
namespace Thermostat

open QString Transition List Option

/-- `convertWeekdayBitmap`: the away bit of the Zigbee bitmap has no place in the ISO one. -/
def convertWeekdayBitmap (weekdayBitmap : UInt8) : UInt8 :=
  let result : UInt8 := 0
  let result := if weekdayBitmap &&& 0b00000001 ≠ 0 then result ||| 0b00000001 else result
  let result := if weekdayBitmap &&& 0b00000010 ≠ 0 then result ||| 0b01000000 else result
  let result := if weekdayBitmap &&& 0b00000100 ≠ 0 then result ||| 0b00100000 else result
  let result := if weekdayBitmap &&& 0b00001000 ≠ 0 then result ||| 0b00010000 else result
  let result := if weekdayBitmap &&& 0b00010000 ≠ 0 then result ||| 0b00001000 else result
  let result := if weekdayBitmap &&& 0b00100000 ≠ 0 then result ||| 0b00000100 else result
  if weekdayBitmap &&& 0b01000000 ≠ 0 then result ||| 0b00000010 else result

def hasDay (weekdays : UInt8) (day : Nat) : Bool := weekdays.toBitVec.getLsbD day

@[simp] theorem hasDay_or (a b : UInt8) (day : Nat) :
    hasDay (a ||| b) day = (hasDay a day || hasDay b day) := by
  simp [hasDay]

variable {day : Nat}

theorem hasDay_andNot (a b : UInt8) (h : day < 8) :
    hasDay (a &&& ~~~b) day = (hasDay a day && !hasDay b day) := by
  simp [hasDay, h]

theorem eq_zero_iff {a : UInt8} : a = 0 ↔ ∀ day < 8, hasDay a day = false := by
  constructor
  · rintro rfl day -
    simp [hasDay]
  · intro h
    apply UInt8.toBitVec_inj.mp
    apply BitVec.eq_of_getLsbD_eq
    intro day hday
    simpa [hasDay] using h day hday

theorem exists_day {a : UInt8} (h : a ≠ 0) : ∃ day < 8, hasDay a day = true := by
  by_contra hno
  refine h (eq_zero_iff.mpr fun day hday => ?_)
  by_contra htrue
  exact hno ⟨day, hday, by simpa using htrue⟩

/-- Two sets of weekdays have no day in common. -/
def Apart (a b : UInt8) : Prop := ∀ day < 8, ¬ (hasDay a day = true ∧ hasDay b day = true)

variable {a b : UInt8}

theorem Apart.ne (h : Apart a b) (ha : a ≠ 0) : a ≠ b := by
  rintro rfl
  obtain ⟨day, hday, htrue⟩ := exists_day ha
  exact h day hday ⟨htrue, htrue⟩

theorem apart_iff : Apart a b ↔ a &&& b = 0 := by
  rw [eq_zero_iff]
  refine forall₂_congr fun day hday => ?_
  simp [hasDay]

structure ScheduleTransition where
  hours : Nat
  minutes : Nat
  heatSetpoint : Int
deriving DecidableEq, Repr

/-- `T%1:%2|%3` -/
def ScheduleTransition.text (t : ScheduleTransition) : QString :=
  unit 'T' :: numberTwo t.hours ++ unit ':' :: numberTwo t.minutes ++ unit '|' ::
    number t.heatSetpoint

def transitionsText (transitions : List ScheduleTransition) : QString :=
  transitions.flatMap ScheduleTransition.text

/-- The characters of serialised transitions: no separator of entries and no white space. -/
def Clean (s : QString) : Prop :=
  ∀ c ∈ s, c ≠ unit 'W' ∧ c ≠ unit '/' ∧ isSpace c = false

theorem clean_of_digits {s : QString} (h : ∀ c ∈ s, 0x30 ≤ c.toNat ∧ c.toNat ≤ 0x39) : Clean s := by
  intro c hc
  refine ⟨?_, ?_, isSpace_of_digit (h c hc)⟩
  · rintro rfl
    exact absurd (h _ hc) (by decide)
  · rintro rfl
    exact absurd (h _ hc) (by decide)

theorem clean_append {s t : QString} (hs : Clean s) (ht : Clean t) : Clean (s ++ t) := by
  intro c hc
  rcases mem_append.mp hc with hc | hc
  · exact hs c hc
  · exact ht c hc

theorem clean_cons {c : QChar} {s : QString}
    (hc : c ≠ unit 'W' ∧ c ≠ unit '/' ∧ isSpace c = false) (hs : Clean s) : Clean (c :: s) := by
  intro c' hc'
  rcases mem_cons.mp hc' with rfl | hc'
  · exact hc
  · exact hs c' hc'

theorem clean_number_int (n : Int) : Clean (number n) := by
  intro c hc
  rcases mem_number_int hc with rfl | hdigit
  · decide
  · exact clean_of_digits (s := [c]) (by simpa using hdigit) c mem_cons_self

theorem ScheduleTransition.clean_text (t : ScheduleTransition) : Clean t.text := by
  refine clean_append (clean_append (clean_cons (by decide) ?_) (clean_cons (by decide) ?_))
    (clean_cons (by decide) (clean_number_int _))
  · exact clean_of_digits fun c => mem_numberTwo
  · exact clean_of_digits fun c => mem_numberTwo

theorem clean_transitionsText (transitions : List ScheduleTransition) :
    Clean (transitionsText transitions) := by
  intro c hc
  obtain ⟨t, -, hmem⟩ := mem_flatMap.mp hc
  exact t.clean_text c hmem

theorem transitionsText_eq_nil_iff {transitions : List ScheduleTransition} :
    transitionsText transitions = [] ↔ transitions = [] := by
  cases transitions with
  | nil => simp [transitionsText]
  | cons t rest => simp [transitionsText, ScheduleTransition.text]

/-- `W%1/` and the transitions -/
def entryText (e : UInt8 × QString) : QString :=
  unit 'W' :: number e.1.toNat ++ unit '/' :: e.2

def storeText (map : List (UInt8 × QString)) : QString := map.flatMap entryText

/-- The entries of `list` are read into `map`, each without the new weekdays.  `none` when
`QList::at` asserts. -/
def readEntries (newWeekdays : UInt8) :
    List QString → List (UInt8 × QString) → Option (List (UInt8 × QString))
  | [], map => some map
  | entry :: list, map =>
    let attributes := parts (unit '/') entry
    match toUInt attributes.1 with
    | none => some []
    | some n =>
      let weekdays := UInt8.ofNat n &&& ~~~newWeekdays
      if weekdays ≠ 0 then
        match attributes.2 with
        | [] => none
        | transitions :: _ =>
          readEntries newWeekdays list (SortedMap.insert weekdays transitions map)
      else
        readEntries newWeekdays list map

/-- The new weekdays go to the first entry with these transitions, or into a new one. -/
def mergeEntries (newWeekdays : UInt8) (transitions : QString) (map : List (UInt8 × QString)) :
    List (UInt8 × QString) :=
  if transitions = [] then map
  else
    match map.find? fun e => e.2 = transitions with
    | some e =>
      SortedMap.insert (e.1 ||| newWeekdays) transitions (SortedMap.erase e.1 map)
    | none => SortedMap.insert newWeekdays transitions map

/-- `updateThermostatSchedule`, on the text of the item -/
def updateThermostatSchedule (text : QString) (newWeekdays : UInt8) (transitions : QString) :
    Option QString :=
  (readEntries newWeekdays (split text 'W') []).map fun map =>
    trimmed (storeText (mergeEntries newWeekdays transitions map))

/-- The entries that a text denotes, if it is the text of entries. -/
def denoted (text : QString) : Option (List (UInt8 × QString)) :=
  (split text 'W').mapM fun entry =>
    match toUInt (parts (unit '/') entry).1, (parts (unit '/') entry).2 with
    | some weekdays, [transitions] =>
      if weekdays < 256 then some (UInt8.ofNat weekdays, transitions) else none
    | _, _ => none

def dayTransitions (map : List (UInt8 × QString)) (day : Nat) : Option QString :=
  (map.find? fun e => hasDay e.1 day).map Prod.snd

/-! ### Writing and reading -/

def entryBody (e : UInt8 × QString) : QString := number e.1.toNat ++ unit '/' :: e.2

theorem number_clean (n : Nat) : Clean (number n) := clean_of_digits fun _ => mem_number

theorem parts_entryBody {e : UInt8 × QString} (h : Clean e.2) :
    parts (unit '/') (entryBody e) = (number e.1.toNat, [e.2]) := by
  have hnumber : unit '/' ∉ number e.1.toNat := fun hmem => (number_clean _ _ hmem).2.1 rfl
  have htransitions : unit '/' ∉ e.2 := fun hmem => (h _ hmem).2.1 rfl
  rw [entryBody, parts_append_of_not_mem hnumber, parts_cons_self, parts_of_not_mem htransitions]
  simp

theorem toUInt_weekdays (weekdays : UInt8) : toUInt (number weekdays.toNat) = some weekdays.toNat :=
  toUInt_number (Nat.lt_of_lt_of_le weekdays.toNat_lt (by decide))

variable {map : List (UInt8 × QString)}

theorem parts_storeText (h : ∀ e ∈ map, Clean e.2) :
    parts (unit 'W') (storeText map) = ([], map.map entryBody) := by
  induction map with
  | nil => rfl
  | cons e map ih =>
    obtain ⟨he, hmap⟩ := forall_mem_cons.mp h
    have hbody : unit 'W' ∉ entryBody e := by
      intro hmem
      rcases mem_append.mp hmem with hmem | hmem
      · exact (number_clean _ _ hmem).1 rfl
      · rcases mem_cons.mp hmem with heq | hmem
        · exact absurd heq (by decide)
        · exact (he _ hmem).1 rfl
    have htext : storeText (e :: map) = unit 'W' :: (entryBody e ++ storeText map) := by
      simp [storeText, entryText, entryBody]
    rw [htext, parts_cons_self, parts_append_of_not_mem hbody, ih hmap]
    simp

theorem split_storeText (h : ∀ e ∈ map, Clean e.2) :
    split (storeText map) 'W' = map.map entryBody := by
  have hfilter : (map.map entryBody).filter (fun part => decide (part ≠ [])) =
      map.map entryBody := by
    rw [filter_eq_self]
    intro body hbody
    obtain ⟨e, -, rfl⟩ := mem_map.mp hbody
    simp [entryBody]
  unfold split
  rw [parts_storeText h, filter_cons]
  simpa using hfilter

theorem denoted_storeText (h : ∀ e ∈ map, Clean e.2) : denoted (storeText map) = some map := by
  unfold denoted
  rw [split_storeText h]
  induction map with
  | nil => rfl
  | cons e map ih =>
    obtain ⟨he, hmap⟩ := forall_mem_cons.mp h
    rw [map_cons, mapM_cons, ih hmap, parts_entryBody he, toUInt_weekdays]
    simp [e.1.toNat_lt]

theorem trimmed_storeText (h : ∀ e ∈ map, Clean e.2) : trimmed (storeText map) = storeText map := by
  apply trimmed_of_not_space
  intro c hc
  obtain ⟨e, he, hmem⟩ := mem_flatMap.mp hc
  rcases mem_cons.mp hmem with rfl | hmem
  · decide
  · rcases mem_append.mp hmem with hmem | hmem
    · exact (number_clean _ _ hmem).2.2
    · rcases mem_cons.mp hmem with rfl | hmem
      · decide
      · exact (h e he _ hmem).2.2

/-- The entries as `updateThermostatSchedule` keeps them: in the order of their weekdays, with
a weekday each, no weekday in two of them, and nothing in the transitions that could be taken
for another entry. -/
structure Valid (map : List (UInt8 × QString)) : Prop where
  sorted : SortedMap.Sorted map
  nonempty : ∀ e ∈ map, e.1 ≠ 0
  apart : ∀ e ∈ map, ∀ e' ∈ map, e ≠ e' → Apart e.1 e'.1
  clean : ∀ e ∈ map, Clean e.2

theorem valid_nil : Valid [] where
  sorted := SortedMap.sorted_nil
  nonempty := by simp
  apart := by simp
  clean := by simp

variable {t : QString}

theorem dayTransitions_eq_some (h : Valid map) (hday : day < 8) :
    dayTransitions map day = some t ↔ ∃ e ∈ map, hasDay e.1 day = true ∧ e.2 = t := by
  unfold dayTransitions
  constructor
  · intro hfind
    obtain ⟨e, he, rfl⟩ := map_eq_some_iff.mp hfind
    exact ⟨e, mem_of_find?_eq_some he, by simpa using List.find?_some he, rfl⟩
  · rintro ⟨e, he, hhas, rfl⟩
    obtain ⟨e', hfound⟩ : ∃ e', (map.find? fun e => hasDay e.1 day) = some e' :=
      isSome_iff_exists.mp (List.find?_isSome.mpr ⟨e, he, hhas⟩)
    have hhas' : hasDay e'.1 day = true := by simpa using List.find?_some hfound
    have heq : e' = e := by
      by_contra hne
      exact h.apart e' (mem_of_find?_eq_some hfound) e he hne day hday ⟨hhas', hhas⟩
    rw [hfound, heq]
    rfl

/-! ### Taking the new weekdays away -/

def cut (newWeekdays : UInt8) (e : UInt8 × QString) : UInt8 × QString :=
  (e.1 &&& ~~~newWeekdays, e.2)

theorem hasDay_cut (newWeekdays : UInt8) (e : UInt8 × QString) (hday : day < 8) :
    hasDay (cut newWeekdays e).1 day = (hasDay e.1 day && !hasDay newWeekdays day) :=
  hasDay_andNot _ _ hday

variable {newWeekdays : UInt8}

theorem readEntries_cons {e : UInt8 × QString} (h : Clean e.2) (list : List QString)
    (acc : List (UInt8 × QString)) :
    readEntries newWeekdays (entryBody e :: list) acc =
      readEntries newWeekdays list
        (if (cut newWeekdays e).1 ≠ 0 then
          SortedMap.insert (cut newWeekdays e).1 e.2 acc
        else acc) := by
  rw [readEntries, parts_entryBody h, toUInt_weekdays]
  simp only [UInt8.ofNat_toNat]
  by_cases hleft : (cut newWeekdays e).1 ≠ 0
  · rw [if_pos hleft]
    exact if_pos hleft
  · rw [if_neg hleft]
    exact if_neg hleft

theorem readEntries_spec (newWeekdays : UInt8) (hclean : ∀ e ∈ map, Clean e.2)
    (hpairs : map.Pairwise fun e e' => Apart e.1 e'.1) :
    ∀ acc : List (UInt8 × QString), SortedMap.Sorted acc → (∀ e ∈ map, ∀ e' ∈ acc, Apart e.1 e'.1) →
      ∃ left, readEntries newWeekdays (map.map entryBody) acc = some left ∧ SortedMap.Sorted left ∧
        ∀ e', e' ∈ left ↔ e' ∈ acc ∨ ∃ e ∈ map, e' = cut newWeekdays e ∧ e'.1 ≠ 0 := by
  induction map with
  | nil =>
    intro acc hsorted _
    exact ⟨acc, rfl, hsorted, by simp⟩
  | cons e map ih =>
    intro acc hsorted hacc
    obtain ⟨he, hmap⟩ := forall_mem_cons.mp hclean
    obtain ⟨hfirst, hrest⟩ := pairwise_cons.mp hpairs
    obtain ⟨hacc1, hacc2⟩ := forall_mem_cons.mp hacc
    rw [map_cons, readEntries_cons he]
    by_cases hleft : (cut newWeekdays e).1 ≠ 0
    · rw [if_pos hleft]
      -- the new key is none of those that are there: it has a day of its own
      have hkey : ∀ e' ∈ acc, e'.1 ≠ (cut newWeekdays e).1 := by
        intro e' he' heq
        obtain ⟨day, hday, hhas⟩ := exists_day hleft
        have hboth : hasDay e.1 day = true := by
          rw [hasDay_cut _ _ hday, Bool.and_eq_true] at hhas
          exact hhas.1
        exact hacc1 e' he' day hday ⟨hboth, heq ▸ hhas⟩
      obtain ⟨left, hread, hleftsorted, hmem⟩ := ih hmap hrest
        (SortedMap.insert (cut newWeekdays e).1 e.2 acc)
        (SortedMap.sorted_insert hsorted _ _) (by
          intro e1 he1 e2 he2
          rcases (SortedMap.mem_insert hsorted).mp he2 with rfl | ⟨he2, -⟩
          · intro day hday hboth
            rw [show ((cut newWeekdays e).1, e.2).1 = (cut newWeekdays e).1 from rfl,
              hasDay_cut _ _ hday, Bool.and_eq_true] at hboth
            exact hfirst e1 he1 day hday ⟨hboth.2.1, hboth.1⟩
          · exact hacc2 e1 he1 e2 he2)
      refine ⟨left, hread, hleftsorted, ?_⟩
      intro e'
      rw [hmem, SortedMap.mem_insert hsorted]
      constructor
      · rintro ((rfl | ⟨he', -⟩) | ⟨e1, he1, rfl, hne⟩)
        · exact .inr ⟨e, mem_cons_self, rfl, hleft⟩
        · exact .inl he'
        · exact .inr ⟨e1, mem_cons_of_mem e he1, rfl, hne⟩
      · rintro (he' | ⟨e1, he1, rfl, hne⟩)
        · exact .inl (.inr ⟨he', hkey e' he'⟩)
        · rcases mem_cons.mp he1 with rfl | he1
          · exact .inl (.inl rfl)
          · exact .inr ⟨e1, he1, rfl, hne⟩
    · rw [if_neg hleft]
      obtain ⟨left, hread, hleftsorted, hmem⟩ := ih hmap hrest acc hsorted hacc2
      refine ⟨left, hread, hleftsorted, ?_⟩
      intro e'
      rw [hmem]
      refine or_congr Iff.rfl ⟨?_, ?_⟩
      · rintro ⟨e1, he1, heq, hne⟩
        exact ⟨e1, mem_cons_of_mem e he1, heq, hne⟩
      · rintro ⟨e1, he1, rfl, hne⟩
        rcases mem_cons.mp he1 with rfl | he1
        · exact absurd hne hleft
        · exact ⟨e1, he1, rfl, hne⟩

theorem Valid.pairwise (h : Valid map) : map.Pairwise fun e e' => Apart e.1 e'.1 := by
  refine h.sorted.imp_of_mem ?_
  intro e e' he he' hlt
  refine h.apart e he e' he' ?_
  rintro rfl
  exact Std.lt_irrefl hlt

/-- **The new weekdays are taken away** from the entries, and nothing else. -/
theorem readEntries_valid (h : Valid map) (newWeekdays : UInt8) :
    ∃ left, readEntries newWeekdays (split (storeText map) 'W') [] = some left ∧ Valid left ∧
      (∀ e ∈ left, Apart newWeekdays e.1) ∧
      ∀ day < 8, dayTransitions left day =
        if hasDay newWeekdays day then none else dayTransitions map day := by
  obtain ⟨left, hread, hsorted, hmem⟩ := readEntries_spec newWeekdays h.clean
    h.pairwise [] SortedMap.sorted_nil (by simp)
  have hleft : ∀ e', e' ∈ left ↔ ∃ e ∈ map, e' = cut newWeekdays e ∧ e'.1 ≠ 0 := by
    intro e'
    rw [hmem]
    simp
  have hvalid : Valid left := by
    refine ⟨hsorted, ?_, ?_, ?_⟩
    · intro e' he'
      obtain ⟨e, -, -, hne⟩ := (hleft e').mp he'
      exact hne
    · intro e1 he1 e2 he2 hne day hday hboth
      obtain ⟨e1, hm1, rfl, -⟩ := (hleft _).mp he1
      obtain ⟨e2, hm2, rfl, -⟩ := (hleft _).mp he2
      rw [hasDay_cut _ _ hday, hasDay_cut _ _ hday, Bool.and_eq_true, Bool.and_eq_true] at hboth
      refine h.apart e1 hm1 e2 hm2 ?_ day hday ⟨hboth.1.1, hboth.2.1⟩
      rintro rfl
      exact hne rfl
    · intro e' he'
      obtain ⟨e, hm, rfl, -⟩ := (hleft _).mp he'
      exact h.clean e hm
  refine ⟨left, ?_, hvalid, ?_, ?_⟩
  · rw [split_storeText h.clean]
    exact hread
  · intro e' he' day hday hboth
    obtain ⟨e, -, rfl, -⟩ := (hleft _).mp he'
    obtain ⟨hnew, hhas⟩ := hboth
    rw [hasDay_cut _ _ hday, hnew] at hhas
    simp at hhas
  · intro day hday
    apply Option.ext
    intro t
    rw [dayTransitions_eq_some hvalid hday]
    cases hnew : hasDay newWeekdays day with
    | true =>
      simp only [if_true, reduceCtorEq, iff_false]
      rintro ⟨e', he', hhas, -⟩
      obtain ⟨e, -, rfl, -⟩ := (hleft _).mp he'
      rw [hasDay_cut _ _ hday, hnew] at hhas
      simp at hhas
    | false =>
      simp only [Bool.false_eq_true, if_false]
      rw [dayTransitions_eq_some h hday]
      constructor
      · rintro ⟨e', he', hhas, rfl⟩
        obtain ⟨e, hm, rfl, -⟩ := (hleft _).mp he'
        rw [hasDay_cut _ _ hday, Bool.and_eq_true] at hhas
        exact ⟨e, hm, hhas.1, rfl⟩
      · rintro ⟨e, hm, hhas, rfl⟩
        have hcut : hasDay (cut newWeekdays e).1 day = true := by
          rw [hasDay_cut _ _ hday, hhas, hnew]
          rfl
        refine ⟨cut newWeekdays e, (hleft _).mpr ⟨e, hm, rfl, ?_⟩, hcut, rfl⟩
        intro hzero
        rw [eq_zero_iff.mp hzero day hday] at hcut
        cases hcut

/-! ### Putting them back -/

theorem apart_or {a b c : UInt8} (ha : Apart a c) (hb : Apart b c) : Apart (a ||| b) c := by
  intro day hday hboth
  rw [hasDay_or, Bool.or_eq_true] at hboth
  rcases hboth.1 with hhas | hhas
  · exact ha day hday ⟨hhas, hboth.2⟩
  · exact hb day hday ⟨hhas, hboth.2⟩

theorem Apart.symm (h : Apart a b) : Apart b a :=
  fun day hday hboth => h day hday ⟨hboth.2, hboth.1⟩

theorem insert_valid (h : Valid map) {weekdays : UInt8} (hne : weekdays ≠ 0)
    (hapart : ∀ e ∈ map, Apart weekdays e.1) (ht : Clean t) :
    Valid (SortedMap.insert weekdays t map) ∧ ∀ e, e ∈ SortedMap.insert weekdays t map ↔ e =
      (weekdays, t) ∨ e ∈ map := by
  have hmem : ∀ e, e ∈ SortedMap.insert weekdays t map ↔ e = (weekdays, t) ∨ e ∈ map := by
    intro e
    rw [SortedMap.mem_insert h.sorted]
    refine or_congr Iff.rfl ⟨And.left, fun he => ⟨he, ?_⟩⟩
    exact ((hapart e he).ne hne).symm
  refine ⟨⟨SortedMap.sorted_insert h.sorted _ _, ?_, ?_, ?_⟩, hmem⟩
  · intro e he
    rcases (hmem e).mp he with rfl | he
    · exact hne
    · exact h.nonempty e he
  · intro e he e' he' hdistinct
    rcases (hmem e).mp he with rfl | he <;> rcases (hmem e').mp he' with rfl | he'
    · exact absurd rfl hdistinct
    · exact hapart e' he'
    · exact (hapart e he).symm
    · exact h.apart e he e' he' hdistinct
  · intro e he
    rcases (hmem e).mp he with rfl | he
    · exact ht
    · exact h.clean e he

theorem erase_valid (h : Valid map) (weekdays : UInt8) : Valid (SortedMap.erase weekdays map) := by
  have hsub : ∀ e ∈ SortedMap.erase weekdays map, e ∈ map :=
    fun e he => (SortedMap.mem_erase.mp he).1
  exact ⟨SortedMap.sorted_erase h.sorted weekdays, fun e he => h.nonempty e (hsub e he),
    fun e he e' he' => h.apart e (hsub e he) e' (hsub e' he'),
    fun e he => h.clean e (hsub e he)⟩

/-- **The new weekdays get the new transitions**, where the result is valid: they are not
empty, or there is an entry to put them to. -/
theorem mergeEntries_valid (h : Valid map) (hapart : ∀ e ∈ map, Apart newWeekdays e.1)
    (ht : Clean t) (hok : newWeekdays = 0 → t ≠ [] → ∃ e ∈ map, e.2 = t) :
    Valid (mergeEntries newWeekdays t map) ∧ ∀ day <
      8, dayTransitions (mergeEntries newWeekdays t map) day = if hasDay newWeekdays day ∧ t ≠
        [] then some t else dayTransitions map day := by
  unfold mergeEntries
  by_cases hempty : t = []
  · rw [if_pos hempty]
    exact ⟨h, fun day hday => by rw [if_neg fun hboth => hboth.2 hempty]⟩
  · rw [if_neg hempty]
    cases hfind : map.find? fun e => e.2 = t with
    | some e =>
      have he : e ∈ map := mem_of_find?_eq_some hfind
      have htransitions : e.2 = t := by simpa using List.find?_some hfind
      have hne : e.1 ||| newWeekdays ≠ 0 := by
        intro hzero
        obtain ⟨day, hday, hhas⟩ := exists_day (h.nonempty e he)
        have hnone := eq_zero_iff.mp hzero day hday
        rw [hasDay_or, hhas] at hnone
        cases hnone
      have hother : ∀ e' ∈ SortedMap.erase e.1 map, Apart (e.1 ||| newWeekdays) e'.1 := by
        intro e' he'
        obtain ⟨hmem', hkey⟩ := SortedMap.mem_erase.mp he'
        refine apart_or (h.apart e he e' hmem' ?_) (hapart e' hmem')
        rintro rfl
        exact hkey rfl
      obtain ⟨hvalid, hmem⟩ := insert_valid (erase_valid h e.1) hne hother ht
      refine ⟨hvalid, fun day hday => Option.ext fun t' => ?_⟩
      simp only
      rw [dayTransitions_eq_some hvalid hday]
      constructor
      · rintro ⟨e', he', hhas, rfl⟩
        rcases (hmem e').mp he' with rfl | he'
        · rw [hasDay_or, Bool.or_eq_true] at hhas
          by_cases hnew : hasDay newWeekdays day = true
          · rw [if_pos ⟨hnew, hempty⟩]
          · rw [if_neg fun hboth => hnew hboth.1, dayTransitions_eq_some h hday]
            exact ⟨e, he, hhas.resolve_right hnew, htransitions⟩
        · have hmem' := (SortedMap.mem_erase.mp he').1
          have hnew : ¬ hasDay newWeekdays day = true :=
            fun hnew => hapart e' hmem' day hday ⟨hnew, hhas⟩
          rw [if_neg fun hboth => hnew hboth.1, dayTransitions_eq_some h hday]
          exact ⟨e', hmem', hhas, rfl⟩
      · by_cases hnew : hasDay newWeekdays day = true
        · rw [if_pos ⟨hnew, hempty⟩]
          intro heq
          refine ⟨_, (hmem _).mpr (.inl rfl), ?_, some.inj heq⟩
          rw [hasDay_or, hnew, Bool.or_true]
        · rw [if_neg fun hboth => hnew hboth.1, dayTransitions_eq_some h hday]
          rintro ⟨e', he', hhas, rfl⟩
          by_cases hsame : e' = e
          · subst hsame
            refine ⟨_, (hmem _).mpr (.inl rfl), ?_, htransitions.symm⟩
            rw [hasDay_or, hhas, Bool.true_or]
          · refine ⟨e', (hmem _).mpr (.inr (SortedMap.mem_erase.mpr ⟨he', ?_⟩)), hhas, rfl⟩
            exact (h.apart e' he' e he hsame).ne (h.nonempty e' he')
    | none =>
      have hnone : ¬ ∃ e ∈ map, e.2 = t := by
        rintro ⟨e, he, heq⟩
        exact absurd heq (by simpa using List.find?_eq_none.mp hfind e he)
      have hne : newWeekdays ≠ 0 := fun hzero => hnone (hok hzero hempty)
      obtain ⟨hvalid, hmem⟩ := insert_valid h hne hapart ht
      refine ⟨hvalid, fun day hday => Option.ext fun t' => ?_⟩
      simp only
      rw [dayTransitions_eq_some hvalid hday]
      constructor
      · rintro ⟨e', he', hhas, rfl⟩
        rcases (hmem e').mp he' with rfl | he'
        · rw [if_pos ⟨hhas, hempty⟩]
        · have hnew : ¬ hasDay newWeekdays day = true :=
            fun hnew => hapart e' he' day hday ⟨hnew, hhas⟩
          rw [if_neg fun hboth => hnew hboth.1, dayTransitions_eq_some h hday]
          exact ⟨e', he', hhas, rfl⟩
      · by_cases hnew : hasDay newWeekdays day = true
        · rw [if_pos ⟨hnew, hempty⟩]
          intro heq
          exact ⟨_, (hmem _).mpr (.inl rfl), hnew, some.inj heq⟩
        · rw [if_neg fun hboth => hnew hboth.1, dayTransitions_eq_some h hday]
          rintro ⟨e', he', hhas, rfl⟩
          exact ⟨e', (hmem _).mpr (.inr he'), hhas, rfl⟩

/-- **One call** on a valid store: its days have the new transitions, or none if there are
none, and every other day has the ones it had. -/
theorem update_valid (h : Valid map) (ht : Clean t)
    (hok : newWeekdays = 0 → t ≠ [] → ∃ e ∈ map, e.2 = t) :
    ∃ map', updateThermostatSchedule (storeText map) newWeekdays t = some (storeText map') ∧
      Valid map' ∧ ∀ day < 8, dayTransitions map' day =
        if hasDay newWeekdays day then (if t = [] then none else some t)
        else dayTransitions map day := by
  obtain ⟨left, hread, hvalid, hapart, hdays⟩ := readEntries_valid h newWeekdays
  have hleft : newWeekdays = 0 → t ≠ [] → ∃ e ∈ left, e.2 = t := by
    rintro rfl hne
    obtain ⟨e, he, rfl⟩ := hok rfl hne
    obtain ⟨day, hday, hhas⟩ := exists_day (h.nonempty e he)
    have hkept := hdays day hday
    rw [if_neg (by simp [hasDay]), (dayTransitions_eq_some h hday).mpr ⟨e, he, hhas, rfl⟩] at hkept
    obtain ⟨e', he', -, heq⟩ := (dayTransitions_eq_some hvalid hday).mp hkept
    exact ⟨e', he', heq⟩
  obtain ⟨hmerged, hmergedDays⟩ := mergeEntries_valid hvalid hapart ht hleft
  refine ⟨mergeEntries newWeekdays t left, ?_, hmerged, ?_⟩
  · rw [updateThermostatSchedule, hread, map_some, trimmed_storeText hmerged.clean]
  · intro day hday
    rw [hmergedDays day hday, hdays day hday]
    by_cases hnew : hasDay newWeekdays day = true <;> by_cases hempty : t = [] <;>
      simp [hnew, hempty]

theorem update_invalid (h : Valid map) (ht : Clean t) (hne : t ≠ []) (hnone : ¬ ∃ e ∈ map, e.2 = t)
    :
    ∃ map', updateThermostatSchedule (storeText map) 0 t = some (storeText map') ∧
      (∀ e ∈ map', Clean e.2) ∧ (0, t) ∈ map' := by
  obtain ⟨left, hread, hvalid, -, hdays⟩ := readEntries_valid h 0
  have hfind : (left.find? fun e => decide (e.2 = t)) = none := by
    rw [List.find?_eq_none]
    intro e he heq
    obtain ⟨day, hday, hhas⟩ := exists_day (hvalid.nonempty e he)
    have hkept := hdays day hday
    rw [if_neg (by simp [hasDay]), (dayTransitions_eq_some hvalid hday).mpr ⟨e, he, hhas, rfl⟩]
      at hkept
    obtain ⟨e', he', -, heq'⟩ := (dayTransitions_eq_some h hday).mp hkept.symm
    exact hnone ⟨e', he', heq'.trans (of_decide_eq_true heq)⟩
  have hmerged : mergeEntries 0 t left = SortedMap.insert 0 t left := by
    rw [mergeEntries, if_neg hne, hfind]
  have hclean : ∀ e ∈ SortedMap.insert 0 t left, Clean e.2 := by
    intro e he
    rcases SortedMap.mem_of_mem_insert he with rfl | he
    · exact ht
    · exact hvalid.clean e he
  refine ⟨SortedMap.insert 0 t left, ?_, hclean, ?_⟩
  · rw [updateThermostatSchedule, hread, map_some, hmerged, trimmed_storeText hclean]
  · exact (SortedMap.mem_insert hvalid.sorted).mpr (.inl rfl)

/-- `QDataStream` in little endian; `pastEnd` is `status() == QDataStream::ReadPastEnd`. -/
structure DataStream where
  data : List UInt8
  pastEnd : Bool := false

/-- `stream >>` of an unsigned integer of `size` bytes -/
def DataStream.get (stream : DataStream) (size : Nat) : Nat × DataStream :=
  match readLE size stream.data with
  | some (n, rest) => (n, { stream with data := rest })
  | none => (0, { data := [], pastEnd := true })

/-- The value of a `qint16` -/
def int16 (n : Nat) : Int := if n < 0x8000 then n else (n : Int) - 0x10000

def readTransitions (mode : UInt8) :
    Nat → DataStream → List ScheduleTransition → List ScheduleTransition × DataStream
  | 0, stream, transitions => (transitions, stream)
  | count + 1, stream, transitions =>
    let (transitionTime, stream) := stream.get 2
    let (transitions, stream) :=
      if mode &&& 0x01 ≠ 0 then -- bit 0: heat setpoint
        let (heatSetpoint, stream) := stream.get 2
        (transitions ++
          [{ hours := transitionTime / 60, minutes := transitionTime % 60,
             heatSetpoint := int16 heatSetpoint }], stream)
      else
        (transitions, stream)
    if mode &&& 0x02 ≠ 0 then -- bit 1: cold setpoint, ignored, and the loop ends
      (transitions, (stream.get 2).2)
    else
      readTransitions mode count stream transitions

/-- The day of week octet and the transitions of a response, unless it is too short. -/
def weeklyScheduleResponse (payload : List UInt8) : Option (UInt8 × List ScheduleTransition) :=
  let stream : DataStream := { data := payload }
  let (numberOfTransitions, stream) := stream.get 1
  let (dayOfWeek, stream) := stream.get 1
  let (mode, stream) := stream.get 1
  let (transitions, stream) := readTransitions (UInt8.ofNat mode) numberOfTransitions stream []
  if stream.pastEnd then none else some (UInt8.ofNat dayOfWeek, transitions)

/-! ## All calls -/

/-- A response of a thermostat, or days and transitions of a Tuya report -/
inductive ScheduleCall where
  | response (payload : List UInt8)
  | report (newWeekdays : UInt8) (transitions : List ScheduleTransition)
deriving DecidableEq, Repr

/-- The days and transitions of a call, if `updateThermostatSchedule` is called. -/
def ScheduleCall.update : ScheduleCall → Option (UInt8 × List ScheduleTransition)
  | .response payload =>
    (weeklyScheduleResponse payload).map fun (dayOfWeek, transitions) =>
      (convertWeekdayBitmap dayOfWeek, transitions)
  | .report newWeekdays transitions => some (newWeekdays, transitions)

/-- A call on the text of the item; `none` after an assertion has failed. -/
def scheduleStep (text : Option QString) (call : ScheduleCall) : Option QString :=
  match call.update with
  | some (newWeekdays, transitions) =>
    text.bind fun text =>
      updateThermostatSchedule text newWeekdays (transitionsText transitions)
  | none => text

/-- The text denotes a list of entries with a weekday each and no weekday in two of them. -/
def WellFormed (text : Option QString) : Prop :=
  ∃ map, text.bind denoted = some map ∧ (∀ e ∈ map, e.1 ≠ 0) ∧
    map.Pairwise fun e e' => e.1 &&& e'.1 = 0

/-- The transitions of a day that a text denotes -/
def transitionsOn (text : Option QString) (day : Nat) : Option QString :=
  (text.bind denoted).bind fun map => dayTransitions map day

/-- The days of a call have its transitions, or none if it has none, and every other day has
the ones it had. -/
def DaysUpdated (text : Option QString) (call : ScheduleCall) (text' : Option QString) : Prop :=
  match call.update with
  | some (newWeekdays, transitions) =>
    ∀ day < 8, transitionsOn text' day =
      if hasDay newWeekdays day then
        (if transitions = [] then none else some (transitionsText transitions))
      else transitionsOn text day
  | none => text' = text

/-- A call without a weekday brings no transitions, or ones that an entry has. -/
def BringsWeekday (text : Option QString) (call : ScheduleCall) : Prop :=
  ∀ transitions, call.update = some (0, transitions) → transitions ≠ [] → ∃ map, text.bind denoted =
    some map ∧ ∃ e ∈ map, e.2 = transitionsText transitions

def Holds (text : Option QString) : Prop := ∃ map, text = some (storeText map) ∧ Valid map

variable {text : Option QString}

theorem wellFormed_of_holds (h : Holds text) : WellFormed text := by
  obtain ⟨map, rfl, hvalid⟩ := h
  refine ⟨map, ?_, hvalid.nonempty, hvalid.pairwise.imp fun hapart => apart_iff.mp hapart⟩
  rw [bind_some, denoted_storeText hvalid.clean]

theorem transitionsOn_storeText (h : ∀ e ∈ map, Clean e.2) (day : Nat) :
    transitionsOn (some (storeText map)) day = dayTransitions map day := by
  rw [transitionsOn, bind_some, denoted_storeText h, bind_some]

theorem step_holds {call : ScheduleCall} (h : Holds text) (hok : BringsWeekday text call) :
    Holds (scheduleStep text call) ∧ DaysUpdated text call (scheduleStep text call) := by
  obtain ⟨map, rfl, hvalid⟩ := h
  unfold scheduleStep DaysUpdated
  cases hcall : call.update with
  | none => exact ⟨⟨map, rfl, hvalid⟩, rfl⟩
  | some update =>
    obtain ⟨newWeekdays, transitions⟩ := update
    have hbrings : newWeekdays = 0 → transitionsText transitions ≠ [] → ∃ e ∈ map, e.2 =
        transitionsText transitions := by
      rintro rfl hne
      obtain ⟨map', hmap, e, he, heq⟩ := hok transitions hcall
        fun hnil => hne (transitionsText_eq_nil_iff.mpr hnil)
      rw [bind_some, denoted_storeText hvalid.clean, Option.some.injEq] at hmap
      exact ⟨e, hmap ▸ he, heq⟩
    obtain ⟨map', hupdate, hvalid', hdays⟩ :=
      update_valid hvalid (clean_transitionsText transitions) hbrings
    simp only [bind_some, hupdate]
    refine ⟨⟨map', rfl, hvalid'⟩, fun day hday => ?_⟩
    rw [transitionsOn_storeText hvalid'.clean, transitionsOn_storeText hvalid.clean, hdays day hday]
    simp only [transitionsText_eq_nil_iff]

theorem step_not_wellFormed {call : ScheduleCall} (h : Holds text)
    (hnot : ¬ BringsWeekday text call) : ¬ WellFormed (scheduleStep text call) := by
  obtain ⟨map, rfl, hvalid⟩ := h
  simp only [BringsWeekday, not_forall] at hnot
  obtain ⟨transitions, hcall, hne, hnone⟩ := hnot
  have hnew : ¬ ∃ e ∈ map, e.2 = transitionsText transitions := by
    rintro ⟨e, he, heq⟩
    refine hnone ⟨map, ?_, e, he, heq⟩
    rw [bind_some, denoted_storeText hvalid.clean]
  obtain ⟨map', hupdate, hclean, hmem⟩ := update_invalid hvalid
    (clean_transitionsText transitions) (fun hnil => hne (transitionsText_eq_nil_iff.mp hnil)) hnew
  unfold scheduleStep
  rw [hcall]
  simp only [bind_some, hupdate]
  rintro ⟨map'', hdenoted, hnonempty, -⟩
  rw [bind_some, denoted_storeText hclean, Option.some.injEq] at hdenoted
  subst hdenoted
  exact hnonempty _ hmem rfl

def emptySchedule : Option QString := some []

theorem holds_empty : Holds emptySchedule := ⟨[], rfl, valid_nil⟩

/-- **When the schedule store is right**: along the calls every state denotes entries with a
weekday each and no weekday in two of them, and each call changes the days it names and no
other, if and only if no call without a weekday brings transitions that no entry has. -/
theorem store_iff (calls : List ScheduleCall) :
    ((∀ k ≤ calls.length, WellFormed (stateAt scheduleStep emptySchedule calls k)) ∧
      ∀ k (h : k < calls.length), DaysUpdated (stateAt scheduleStep emptySchedule calls k)
        calls[k] (stateAt scheduleStep emptySchedule calls (k + 1))) ↔
    AllSteps scheduleStep BringsWeekday emptySchedule calls := by
  constructor
  · rintro ⟨hwell, -⟩
    -- the first call that brings no weekday would leave an entry without one
    have hbrings : ∀ k (h : k < calls.length), Holds (stateAt scheduleStep emptySchedule calls k) →
        BringsWeekday (stateAt scheduleStep emptySchedule calls k) calls[k] := by
      intro k hk hholds
      by_contra hnot
      refine step_not_wellFormed hholds hnot ?_
      rw [← stateAt_succ scheduleStep emptySchedule calls hk]
      exact hwell (k + 1) hk
    have hall : ∀ k, k ≤ calls.length → Holds (stateAt scheduleStep emptySchedule calls k) :=
      stateAt_induction (P := fun _ s => Holds s) holds_empty
        fun k hk hholds => (step_holds hholds (hbrings k hk hholds)).1
    exact fun k hk => hbrings k hk (hall k (Nat.le_of_lt hk))
  · intro hsteps
    have hall : ∀ k, k ≤ calls.length → Holds (stateAt scheduleStep emptySchedule calls k) :=
      stateAt_induction (P := fun _ s => Holds s) holds_empty
        fun k hk hholds => (step_holds hholds (hsteps k hk)).1
    refine ⟨fun k hk => wellFormed_of_holds (hall k hk), fun k hk => ?_⟩
    rw [stateAt_succ _ _ _ hk]
    exact (step_holds (hall k (Nat.le_of_lt hk)) (hsteps k hk)).2

def awayResponse : ScheduleCall := .response [0x01, 0x80, 0x01, 0x68, 0x01, 0xD0, 0x07]

/-- A response for the away bit alone leaves the entry `W0/T06:00|2000`. -/
theorem away_not_wellFormed : ¬ ∀ calls : List ScheduleCall,
    (∀ k ≤ calls.length, WellFormed (stateAt scheduleStep emptySchedule calls k)) ∧
      ∀ k (h : k < calls.length), DaysUpdated (stateAt scheduleStep emptySchedule calls k)
        calls[k] (stateAt scheduleStep emptySchedule calls (k + 1)) := by
  intro h
  have hwell : WellFormed (scheduleStep emptySchedule awayResponse) :=
    (h [awayResponse]).1 1 (Nat.le_refl 1)
  have hupdate : awayResponse.update =
      some (0, [{ hours := 6, minutes := 0, heatSetpoint := 2000 }]) := by decide
  have hnot : ¬ BringsWeekday emptySchedule awayResponse := by
    intro hbrings
    obtain ⟨map, hmap, e, he, -⟩ := hbrings _ hupdate (by simp)
    cases hmap
    cases he
  exact step_not_wellFormed holds_empty hnot hwell

/-- What a call makes of the transitions of a day -/
def dayAfter (day : Nat) (transitions : Option QString) (call : ScheduleCall) : Option QString :=
  match call.update with
  | some (newWeekdays, ts) =>
    if hasDay newWeekdays day then (if ts = [] then none else some (transitionsText ts))
    else transitions
  | none => transitions

/-- **The last call counts**: after any calls that name a weekday each, a day has the transitions
of the last one that names it. -/
theorem transitionsOn_run {calls : List ScheduleCall}
    (hnamed : ∀ call ∈ calls, ∀ ts, call.update ≠ some (0, ts)) {day : Nat} (hday : day < 8) :
    transitionsOn (run scheduleStep emptySchedule calls) day = calls.foldl (dayAfter day) none := by
  suffices hrun : ∀ text, Holds text → transitionsOn (run scheduleStep text calls) day =
      calls.foldl (dayAfter day) (transitionsOn text day) from hrun _ holds_empty
  induction calls with
  | nil => exact fun text _ => rfl
  | cons call calls ih =>
    intro text h
    obtain ⟨hholds, hdays⟩ := step_holds h
      fun ts hcall => absurd hcall (hnamed call mem_cons_self ts)
    rw [run_cons, ih (fun c hc => hnamed c (mem_cons_of_mem _ hc)) _ hholds, foldl_cons]
    unfold DaysUpdated at hdays
    unfold dayAfter
    cases hcall : call.update with
    | none => rw [hcall] at hdays; rw [hdays]
    | some update => rw [hcall] at hdays; rw [hdays day hday]

/-- The second report counts on its days, the first one on the others. -/
theorem transitionsOn_run_twoReports :
    transitionsOn (run scheduleStep emptySchedule
      [.report 0x7F [⟨6, 0, 2000⟩], .report 0x03 [⟨8, 30, 1900⟩]]) 5 =
        some (transitionsText [⟨6, 0, 2000⟩]) :=
  (transitionsOn_run (by simp [ScheduleCall.update]) (by decide)).trans (by decide)

end Thermostat
end DeconzRest

import DeconzRest.Json.Reread
import DeconzRest.Lib.MapOption
import DeconzRest.Qt.StringList
import DeconzRest.Thermostat.Schedule

/-!
# The text of a thermostat schedule

A schedule is a map whose keys are sets of weekdays and whose values are lists of transitions.  It
is kept as one text, and read again from it.  What is checked of a localtime is where its `T` and
its `:` stand and that `toInt` reads a number in front of and behind the second one; of a key
nothing is checked.
-/

namespace DeconzRest
namespace Thermostat

open List Option Json

open QVariant (value contains)
open QString

variable {D : Type}

/-- `QString::arg` of an `int` with a width of two and `'0'` as the fill character; the sign is in
the width. -/
def argTwo : Int → QString
  | .ofNat n => numberTwo n
  | .negSucc n => number (.negSucc n)

/-- A turn of the loop of `serialiseThermostatTransitions`; a key that is not there has an invalid
value. -/
def serialiseTransition (qt : Qt D) (entry : QVariant D) : Option QString :=
  let transition := entry.toMap
  if (transition.any fun e =>
      e.1 != ofLatin1 "localtime" && e.1 != ofLatin1 "heatsetpoint") = true then none
  else
    match value transition "localtime", value transition "heatsetpoint" with
    | .string localtime, .double d =>
      match qt.toInt (.double d) with
      | none => none
      | some heatsetpoint =>
        if heatsetpoint < 500 ∨ heatsetpoint > 3000 then none
        else if localtime.length = 6 ∧ localtime.take 1 = ofLatin1 "T" ∧ (localtime.drop 3).take 1 =
            ofLatin1 ":" then
          match toInt ((localtime.drop 1).take 2), toInt ((localtime.drop 4).take 2) with
          | some hh, some mm =>
            some (unit 'T' :: argTwo hh ++ unit ':' :: argTwo mm ++ unit '|' :: number heatsetpoint)
          | _, _ => none
        else none
    | _, _ => none

/-- `serialiseThermostatTransitions`; `none` is `false`. -/
def serialiseThermostatTransitions (qt : Qt D) (transitions : List (QVariant D)) : Option QString :=
  if transitions.length < 1 ∨ transitions.length > 10 then none
  else (transitions.mapM (serialiseTransition qt)).map List.flatten

/-- A turn of the loop of `deserialiseThermostatTransitions` -/
def deserialiseTransition (entry : QString) : Option (QVariant D) :=
  match parts (unit '|') entry with
  | (time, [heatsetpoint]) =>
    some (.map (insert (ofLatin1 "heatsetpoint") (.int ((toInt heatsetpoint).getD 0))
      (insert (ofLatin1 "localtime") (.string (unit 'T' :: time)) [])))
  | _ => none

/-- `deserialiseThermostatTransitions`; `none` is `false`. -/
def deserialiseThermostatTransitions (s : QString) : Option (List (QVariant D)) :=
  (split s 'T').mapM deserialiseTransition

/-- `serialiseThermostatSchedule`; `none` is `false`. -/
def serialiseThermostatSchedule (qt : Qt D) (schedule : List (QString × QVariant D)) :
    Option QString :=
  (schedule.mapM fun e => (serialiseThermostatTransitions qt e.2.toList).map fun transitions =>
    e.1 ++ unit '/' :: transitions).map List.flatten

/-- The loop of `deserialiseThermostatSchedule` -/
def deserialiseEntries :
    List QString → List (QString × QVariant D) → Option (List (QString × QVariant D))
  | [], schedule => some schedule
  | entry :: list, schedule =>
    match parts (unit '/') entry with
    | (key, [transitions]) =>
      match deserialiseThermostatTransitions transitions with
      | none => none
      | some values =>
        deserialiseEntries list (insert (unit 'W' :: key) (.list values) schedule)
    | _ => none

variable {n : Int} {c : QChar}

/-- `deserialiseThermostatSchedule`; `none` is `false`. -/
def deserialiseThermostatSchedule (s : QString) : Option (List (QString × QVariant D)) :=
  deserialiseEntries (split s 'W') []

/-! ## Numbers of two characters -/

theorem mem_argTwo (h : c ∈ argTwo n) : c = unit '-' ∨ (0x30 ≤ c.toNat ∧ c.toNat ≤ 0x39) := by
  cases n with
  | ofNat n => exact .inr (mem_numberTwo h)
  | negSucc n => exact mem_number_int h

def digit (n : Nat) : QChar := UInt16.ofNat (0x30 + n)

theorem digit_of_range (h : 0x30 ≤ c.toNat ∧ c.toNat ≤ 0x39) : ∃ n < 10, c = digit n := by
  refine ⟨c.toNat - 0x30, by omega, ?_⟩
  unfold digit
  rw [Nat.add_sub_cancel' h.1, UInt16.ofNat_toNat]

theorem argTwo_digits : ∀ i < 10, ∀ j < 10, argTwo ((10 * i + j : Nat) : Int) =
    [digit i, digit j] := by decide +kernel

theorem argTwo_negative : ∀ j < 10, 0 < j → argTwo (-((j : Nat) : Int)) = [unit '-', digit j] := by
  decide +kernel

theorem digits?_one : ∀ j < 10, Qt.digits? [digit j] = some ((j : Nat) : Int) := by decide +kernel

theorem digits?_two : ∀ i < 10, ∀ j < 10, Qt.digits? [digit i, digit j] =
    some ((10 * i + j : Nat) : Int) := by decide +kernel

variable {s : QString}

theorem range_of_digits? (h : Qt.digits? s = some n) :
    ∀ c ∈ s, 0x30 ≤ c.toNat ∧ c.toNat ≤ 0x39 := by
  unfold Qt.digits? at h
  split at h
  · rename_i hall
    intro c hc
    have hrange := all_eq_true.mp hall.2 c hc
    rw [Bool.and_eq_true, decide_eq_true_eq, decide_eq_true_eq, UInt16.le_iff_toNat_le,
      UInt16.le_iff_toNat_le] at hrange
    exact hrange
  · exact nomatch h

variable {a b : QChar}

theorem toInt_pair (h : toInt [a, b] = some n) (ha : isSpace a = false) (hb : isSpace b = false)
    (hplus : a ≠ unit '+') :
    (∃ i < 10, ∃ j < 10, a = digit i ∧ b = digit j ∧ n = ((10 * i + j : Nat) : Int)) ∨ ∃ j < 10, a =
      unit '-' ∧ b = digit j ∧ n = -((j : Nat) : Int) := by
  have htrimmed : trimmed [a, b] = [a, b] :=
    trimmed_of_not_space (by simp [ha, hb])
  unfold toInt at h
  rw [htrimmed] at h
  by_cases hminus : a = unit '-'
  · subst hminus
    simp only [List.head?_cons, tail_cons, true_or, if_true] at h
    cases hdigits : Qt.digits? [b] with
    | none =>
      rw [hdigits] at h
      exact nomatch h
    | some m =>
      obtain ⟨j, hj, rfl⟩ := digit_of_range (range_of_digits? hdigits b mem_cons_self)
      obtain rfl := some_inj.mp (hdigits.symm.trans (digits?_one j hj))
      rw [hdigits] at h
      simp only at h
      split at h
      · exact .inr ⟨j, hj, rfl, rfl, (some_inj.mp h).symm⟩
      · exact nomatch h
  · have hsign : ¬ ([a, b].head? = some (unit '-') ∨ [a, b].head? = some (unit '+')) := by
      simp [hminus, hplus]
    simp only [if_neg hsign] at h
    cases hdigits : Qt.digits? [a, b] with
    | none =>
      rw [hdigits] at h
      exact nomatch h
    | some m =>
      have hrange := range_of_digits? hdigits
      obtain ⟨i, hi, rfl⟩ := digit_of_range (hrange a mem_cons_self)
      obtain ⟨j, hj, rfl⟩ := digit_of_range (hrange b (by simp))
      obtain rfl := some_inj.mp (hdigits.symm.trans (digits?_two i hi j hj))
      rw [hdigits] at h
      have hhead : ¬ [digit i, digit j].head? = some (unit '-') := by simp [hminus]
      simp only [if_neg hhead] at h
      split at h
      · exact .inl ⟨i, hi, j, hj, rfl, rfl, (some_inj.mp h).symm⟩
      · exact nomatch h

/-- The characters of a number that `arg` does not write -/
def Foreign (s : QString) : Prop := ∃ c ∈ s, c = unit '+' ∨ isSpace c = true

instance (s : QString) : Decidable (Foreign s) :=
  inferInstanceAs (Decidable (∃ c ∈ s, c = unit '+' ∨ isSpace c = true))

theorem not_foreign_argTwo (n : Int) : ¬ Foreign (argTwo n) := by
  rintro ⟨c, hc, hforeign⟩
  rcases mem_argTwo hc with rfl | hdigit
  · exact absurd hforeign (by decide)
  · rcases hforeign with rfl | hspace
    · exact absurd hdigit (by decide)
    · exact absurd ((isSpace_of_digit hdigit).symm.trans hspace) Bool.false_ne_true

/-- A number that is written again is the same two characters. -/
theorem argTwo_eq_iff (h : toInt [a, b] = some n) :
    argTwo n = [a, b] ↔ ¬ Foreign [a, b] ∧ [a, b] ≠ ofLatin1 "-0" := by
  have hzero : ofLatin1 "-0" = [unit '-', digit 0] := by decide
  constructor
  · intro heq
    refine ⟨heq ▸ not_foreign_argTwo n, ?_⟩
    intro hminus
    rw [hminus] at h heq
    obtain rfl : n = 0 := (some_inj.mp (h.symm.trans (by decide +kernel)))
    exact absurd heq (by decide)
  · rintro ⟨hplain, hminus⟩
    have hspace (c : QChar) (hc : c ∈ [a, b]) : isSpace c = false :=
      Bool.eq_false_iff.mpr fun htrue => hplain ⟨c, hc, .inr htrue⟩
    have hplus : a ≠ unit '+' := fun heq => hplain ⟨a, mem_cons_self, .inl heq⟩
    rcases toInt_pair h (hspace a mem_cons_self) (hspace b (by simp)) hplus with
      ⟨i, hi, j, hj, rfl, rfl, rfl⟩ | ⟨j, hj, rfl, rfl, rfl⟩
    · exact argTwo_digits i hi j hj
    · refine argTwo_negative j hj (Nat.pos_of_ne_zero ?_)
      rintro rfl
      exact hminus hzero.symm

theorem numberTwo_eq_iff (h : toInt [a, b] = some n) {bound : Nat} (hbound : bound ≤ 60) :
    (∃ m < bound, [a, b] = numberTwo m) ↔ ¬ Foreign [a, b] ∧ unit '-' ∉ [a, b] ∧ n < bound := by
  constructor
  · rintro ⟨m, hm, heq⟩
    have hread : toInt (numberTwo m) = some (m : Int) := by
      have hall : ∀ m < 60, toInt (numberTwo m) = some ((m : Nat) : Int) := by decide +kernel
      exact hall m (Nat.lt_of_lt_of_le hm hbound)
    rw [heq] at h ⊢
    obtain rfl := some_inj.mp (h.symm.trans hread)
    refine ⟨not_foreign_argTwo m, fun hminus => ?_, by exact_mod_cast hm⟩
    exact absurd (mem_numberTwo hminus) (by decide)
  · rintro ⟨hplain, hminus, hlt⟩
    have hspace (c : QChar) (hc : c ∈ [a, b]) : isSpace c = false :=
      Bool.eq_false_iff.mpr fun htrue => hplain ⟨c, hc, .inr htrue⟩
    have hplus : a ≠ unit '+' := fun heq => hplain ⟨a, mem_cons_self, .inl heq⟩
    rcases toInt_pair h (hspace a mem_cons_self) (hspace b (by simp)) hplus with
      ⟨i, hi, j, hj, rfl, rfl, rfl⟩ | ⟨j, hj, rfl, rfl, rfl⟩
    · exact ⟨10 * i + j, by exact_mod_cast hlt, (argTwo_digits i hi j hj).symm⟩
    · exact absurd mem_cons_self hminus

/-! ## What is accepted -/

/-- What `serialiseTransition` reads in an entry: the characters of hour and minute with their
numbers, and the setpoint -/
structure Reading (D : Type) where
  hour : QString
  minute : QString
  hh : Int
  mm : Int
  setpoint : D
  heatsetpoint : Int

namespace Reading

def time (r : Reading D) : QString := argTwo r.hh ++ unit ':' :: argTwo r.mm

def body (r : Reading D) : QString := r.time ++ unit '|' :: number r.heatsetpoint

def result (r : Reading D) : QVariant D :=
  .map (insert (ofLatin1 "heatsetpoint") (.int r.heatsetpoint)
    (insert (ofLatin1 "localtime") (.string (unit 'T' :: r.time)) []))

end Reading

/-- An entry is accepted with a reading. -/
structure Accepts (qt : Qt D) (entry : QVariant D) (r : Reading D) : Prop where
  localtime : value entry.toMap "localtime" = .string (unit 'T' :: (r.hour ++ unit ':' :: r.minute))
  hour : r.hour.length = 2
  minute : r.minute.length = 2
  hh : toInt r.hour = some r.hh
  mm : toInt r.minute = some r.mm
  setpoint : value entry.toMap "heatsetpoint" = .double r.setpoint
  heatsetpoint : qt.toInt (.double r.setpoint) = some r.heatsetpoint
  low : 500 ≤ r.heatsetpoint
  high : r.heatsetpoint ≤ 3000

theorem localtime_eq {localtime : QString} (hlength : localtime.length = 6)
    (hletter : localtime.take 1 = ofLatin1 "T")
    (hcolon : (localtime.drop 3).take 1 = ofLatin1 ":") :
    localtime = unit 'T' :: ((localtime.drop 1).take 2 ++ unit ':' ::
      (localtime.drop 4).take 2) := by
  match localtime, hlength with
  | [t, a, b, colon, c, d], _ =>
    obtain rfl : t = unit 'T' := (List.cons.inj hletter).1
    obtain rfl : colon = unit ':' := (List.cons.inj hcolon).1
    rfl

variable {qt : Qt D}

theorem accepts_of_serialise {entry : QVariant D} {text : QString}
    (h : serialiseTransition qt entry = some text) :
    ∃ r, Accepts qt entry r ∧ text = unit 'T' :: r.body := by
  unfold serialiseTransition at h
  simp only at h
  split at h
  · exact nomatch h
  split at h
  · rename_i localtime d hlocaltime hsetpoint
    split at h
    · exact nomatch h
    rename_i heatsetpoint hint
    split at h
    · exact nomatch h
    rename_i hrange
    split at h
    · rename_i hform
      split at h
      · rename_i hh mm hhour hminute
        have hlocal := localtime_eq hform.1 hform.2.1 hform.2.2
        have hlow : 500 ≤ heatsetpoint := Int.not_lt.mp fun hlt => hrange (.inl hlt)
        have hhigh : heatsetpoint ≤ 3000 := Int.not_lt.mp fun hlt => hrange (.inr hlt)
        refine ⟨⟨(localtime.drop 1).take 2, (localtime.drop 4).take 2, hh, mm, d, heatsetpoint⟩,
          ⟨hlocal ▸ hlocaltime, ?_, ?_, hhour, hminute, hsetpoint, hint, hlow, hhigh⟩, ?_⟩
        · rw [length_take, length_drop, hform.1]
          rfl
        · rw [length_take, length_drop, hform.1]
          rfl
        · rw [← some_inj.mp h]
          unfold Reading.body Reading.time
          simp
      · exact nomatch h
    · exact nomatch h
  · exact nomatch h

variable {r : Reading D}

def readingsText (readings : List (Reading D)) : QString :=
  readings.flatMap fun r => unit 'T' :: r.body

theorem accepts_all {entries : List (QVariant D)} {texts : List QString}
    (h : List.Forall₂ (fun entry text => serialiseTransition qt entry = some text) entries texts) :
    ∃ readings, List.Forall₂ (Accepts qt) entries readings ∧ texts.flatten =
      readingsText readings := by
  induction h with
  | nil => exact ⟨[], .nil, rfl⟩
  | cons hentry _ ih =>
    obtain ⟨r, haccepts, rfl⟩ := accepts_of_serialise hentry
    obtain ⟨readings, hreadings, htext⟩ := ih
    refine ⟨r :: readings, .cons haccepts hreadings, ?_⟩
    rw [flatten_cons, htext]
    rfl

theorem accepts_transitions {transitions : List (QVariant D)} {text : QString}
    (h : serialiseThermostatTransitions qt transitions = some text) :
    ∃ readings, List.Forall₂ (Accepts qt) transitions readings ∧ text = readingsText readings := by
  unfold serialiseThermostatTransitions at h
  split at h
  · exact nomatch h
  · obtain ⟨texts, htexts, rfl⟩ := map_eq_some_iff.mp h
    exact accepts_all (forall₂_of_mapM htexts)

theorem mem_body (h : c ∈ r.body) :
    c = unit '-' ∨ c = unit ':' ∨ c = unit '|' ∨ (0x30 ≤ c.toNat ∧ c.toNat ≤ 0x39) := by
  unfold Reading.body Reading.time at h
  simp only [mem_append, mem_cons] at h
  rcases h with (h | rfl | h) | rfl | h
  · exact (mem_argTwo h).imp_right fun hdigit => .inr (.inr hdigit)
  · exact .inr (.inl rfl)
  · exact (mem_argTwo h).imp_right fun hdigit => .inr (.inr hdigit)
  · exact .inr (.inr (.inl rfl))
  · exact (mem_number_int h).imp_right fun hdigit => .inr (.inr hdigit)

theorem not_mem_body {c : Char} (r : Reading D)
    (hc : unit c ≠ unit '-' ∧ unit c ≠ unit ':' ∧ unit c ≠ unit '|' ∧
      ¬ (0x30 ≤ (unit c).toNat ∧ (unit c).toNat ≤ 0x39)) : unit c ∉ r.body := by
  intro hmem
  obtain ⟨hminus, hcolon, hbar, hdigit⟩ := hc
  rcases mem_body hmem with h | h | h | h
  · exact hminus h
  · exact hcolon h
  · exact hbar h
  · exact hdigit h

theorem split_readingsText (readings : List (Reading D)) :
    split (readingsText readings) 'T' = readings.map Reading.body := by
  have hparts : parts (unit 'T') (readingsText readings) = ([], readings.map Reading.body) := by
    induction readings with
    | nil => rfl
    | cons r readings ih =>
      have htext : readingsText (r :: readings) = unit 'T' ::
          (r.body ++ readingsText readings) := by
        unfold readingsText
        rw [flatMap_cons]
        rfl
      rw [htext, parts_cons_self, parts_append_of_not_mem (not_mem_body r (by decide)), ih]
      simp
  have hfilter : (readings.map Reading.body).filter (fun part => decide (part ≠ [])) =
      readings.map Reading.body := by
    rw [filter_eq_self]
    intro body hbody
    obtain ⟨r, -, rfl⟩ := mem_map.mp hbody
    simp [Reading.body]
  unfold split
  rw [hparts, filter_cons]
  simpa using hfilter

theorem deserialise_body (hlow : 500 ≤ r.heatsetpoint) (hhigh : r.heatsetpoint ≤ 3000) :
    deserialiseTransition r.body = some r.result := by
  have htime : unit '|' ∉ r.time := by
    intro hmem
    rcases mem_append.mp hmem with hmem | hmem
    · exact absurd (mem_argTwo hmem) (by decide)
    · rcases mem_cons.mp hmem with heq | hmem
      · exact absurd heq (by decide)
      · exact absurd (mem_argTwo hmem) (by decide)
  have hnumber : unit '|' ∉ number r.heatsetpoint := fun hmem =>
    absurd (mem_number_int hmem) (by decide)
  have hread : toInt (number r.heatsetpoint) = some r.heatsetpoint :=
    toInt_number_int (by omega) (by omega)
  unfold deserialiseTransition Reading.body
  rw [parts_append_of_not_mem htime, parts_cons_self, parts_of_not_mem hnumber]
  simp only [append_nil, hread, getD_some]
  rfl

theorem deserialise_readingsText {transitions : List (QVariant D)} {readings : List (Reading D)}
    (h : List.Forall₂ (Accepts qt) transitions readings) :
    deserialiseThermostatTransitions (readingsText readings) =
      some (readings.map Reading.result) := by
  unfold deserialiseThermostatTransitions
  rw [split_readingsText]
  induction h with
  | nil => rfl
  | cons hr _ ih =>
    rw [map_cons, mapM_cons, deserialise_body hr.low hr.high, ih]
    rfl

/-! ## Localtimes -/

def localtimeOf (entry : QVariant D) : QString :=
  match value entry.toMap "localtime" with
  | .string localtime => localtime
  | _ => []

def hourOf (localtime : QString) : QString := (localtime.drop 1).take 2

def minuteOf (localtime : QString) : QString := (localtime.drop 4).take 2

/-- `Thh:mm` from 00:00 to 23:59 -/
def IsTimeOfDay (localtime : QString) : Prop :=
  ∃ h < 24, ∃ m < 60, localtime = unit 'T' :: (numberTwo h ++ unit ':' :: numberTwo m)

/-- A localtime without sign and white space, whose numbers are an hour and a minute -/
structure InDay (localtime : QString) : Prop where
  plain : ¬ Foreign localtime
  unsigned : unit '-' ∉ localtime
  hour : (toInt (hourOf localtime)).getD 0 < 24
  minute : (toInt (minuteOf localtime)).getD 0 < 60

/-- A localtime without plus and white space, and without a minus in front of a zero -/
structure Rewritable (localtime : QString) : Prop where
  plain : ¬ Foreign localtime
  hour : hourOf localtime ≠ ofLatin1 "-0"
  minute : minuteOf localtime ≠ ofLatin1 "-0"

instance (localtime : QString) : Decidable (Rewritable localtime) :=
  decidable_of_iff (¬ Foreign localtime ∧ hourOf localtime ≠ ofLatin1 "-0" ∧ minuteOf localtime ≠
      ofLatin1 "-0")
    ⟨fun h => ⟨h.1, h.2.1, h.2.2⟩, fun h => ⟨h.plain, h.hour, h.minute⟩⟩

theorem foreign_append {s t : QString} : Foreign (s ++ t) ↔ Foreign s ∨ Foreign t := by
  unfold Foreign
  simp only [mem_append, or_and_right, exists_or]

theorem foreign_cons (hc : ¬ (c = unit '+' ∨ isSpace c = true)) : Foreign (c :: s) ↔ Foreign s := by
  unfold Foreign
  simp only [mem_cons, or_and_right, exists_or, exists_eq_left, or_iff_right hc]

theorem two_le_length_argTwo (n : Int) : 2 ≤ (argTwo n).length := by
  have hpos (n : Nat) : 0 < (number n).length := length_pos_iff.mpr (number_ne_nil n)
  cases n with
  | ofNat n =>
    show 2 ≤ (numberTwo n).length
    unfold numberTwo
    split
    · exact Nat.succ_le_succ (hpos n)
    · rename_i hten
      have hdigits : (number (n : Int)).length = (Nat.toDigits 10 n).length := by
        show (ofLatin1 n.repr).length = _
        unfold ofLatin1
        rw [length_map, Nat.toList_repr]
      have hfront : 0 < (Nat.toDigits 10 (n / 10)).length :=
        length_pos_iff.mpr Nat.toDigits_ne_nil
      rw [hdigits, Nat.toDigits_of_base_le (by decide) (by omega), List.length_append]
      exact Nat.succ_le_succ hfront
  | negSucc n =>
    show 2 ≤ (number (.negSucc n)).length
    rw [number_negSucc]
    exact Nat.succ_le_succ (hpos (n + 1))

section

variable {qt : Qt D} {entry : QVariant D} {r : Reading D} (h : Accepts qt entry r)
include h

theorem Accepts.localtimeOf_eq :
    localtimeOf entry = unit 'T' :: (r.hour ++ unit ':' :: r.minute) := by
  unfold localtimeOf
  rw [h.localtime]

theorem Accepts.hourOf_eq : hourOf (localtimeOf entry) = r.hour := by
  rw [h.localtimeOf_eq]
  show (r.hour ++ _).take 2 = r.hour
  rw [← h.hour, take_left]

theorem Accepts.minuteOf_eq : minuteOf (localtimeOf entry) = r.minute := by
  have hfront : 4 = (unit 'T' :: (r.hour ++ [unit ':'])).length := by
    rw [length_cons, List.length_append, h.hour]
    rfl
  have hsplit : localtimeOf entry = (unit 'T' :: (r.hour ++ [unit ':'])) ++ r.minute := by
    rw [h.localtimeOf_eq]
    simp
  unfold minuteOf
  rw [hsplit, hfront, drop_left]
  exact take_of_length_le h.minute.le

theorem Accepts.foreign_iff : Foreign (localtimeOf entry) ↔ Foreign r.hour ∨ Foreign r.minute := by
  rw [h.localtimeOf_eq, foreign_cons (by decide), foreign_append, foreign_cons (by decide)]

theorem Accepts.isTimeOfDay_iff : IsTimeOfDay (localtimeOf entry) ↔ InDay (localtimeOf entry) := by
  have hlength : ∀ n < 60, (numberTwo n).length = 2 := by decide +kernel
  obtain ⟨a, b, hhour⟩ := length_eq_two.mp h.hour
  obtain ⟨c, d, hminute⟩ := length_eq_two.mp h.minute
  have hhh := h.hh
  have hmm := h.mm
  have hhours := numberTwo_eq_iff (hhour ▸ hhh) (show 24 ≤ 60 by decide)
  have hminutes := numberTwo_eq_iff (hminute ▸ hmm) (show 60 ≤ 60 by decide)
  rw [← hhour] at hhours
  rw [← hminute] at hminutes
  constructor
  · rintro ⟨i, hi, j, hj, heq⟩
    rw [h.localtimeOf_eq, cons_inj_right] at heq
    obtain ⟨hh, hm⟩ := append_inj heq (by rw [h.hour, hlength i (by omega)])
    obtain ⟨hhplain, hhminus, hhlt⟩ := hhours.mp ⟨i, hi, hh⟩
    obtain ⟨hmplain, hmminus, hmlt⟩ := hminutes.mp ⟨j, hj, tail_eq_of_cons_eq hm⟩
    refine ⟨fun hforeign => (h.foreign_iff.mp hforeign).elim hhplain hmplain, ?_, ?_, ?_⟩
    · rw [h.localtimeOf_eq]
      simp only [mem_cons, mem_append, not_or]
      exact ⟨by decide, hhminus, by decide, hmminus⟩
    · rw [h.hourOf_eq, hhh]
      exact hhlt
    · rw [h.minuteOf_eq, hmm]
      exact hmlt
  · rintro ⟨hplain, hunsigned, hhlt, hmlt⟩
    rw [h.foreign_iff, not_or] at hplain
    rw [h.localtimeOf_eq] at hunsigned
    simp only [mem_cons, mem_append, not_or] at hunsigned
    rw [h.hourOf_eq, hhh] at hhlt
    rw [h.minuteOf_eq, hmm] at hmlt
    obtain ⟨i, hi, hh⟩ := hhours.mpr ⟨hplain.1, hunsigned.2.1, hhlt⟩
    obtain ⟨j, hj, hm⟩ := hminutes.mpr ⟨hplain.2, hunsigned.2.2.2, hmlt⟩
    exact ⟨i, hi, j, hj, by rw [h.localtimeOf_eq, hh, hm]⟩

theorem Accepts.time_eq_iff : unit 'T' :: r.time = localtimeOf entry ↔
    Rewritable (localtimeOf entry) := by
  obtain ⟨a, b, hhour⟩ := length_eq_two.mp h.hour
  obtain ⟨c, d, hminute⟩ := length_eq_two.mp h.minute
  have hhh := argTwo_eq_iff (hhour ▸ h.hh)
  have hmm := argTwo_eq_iff (hminute ▸ h.mm)
  rw [← hhour] at hhh
  rw [← hminute] at hmm
  have hsplit : unit 'T' :: r.time = localtimeOf entry ↔ argTwo r.hh = r.hour ∧ argTwo r.mm =
      r.minute := by
    rw [h.localtimeOf_eq, cons_inj_right]
    unfold Reading.time
    constructor
    · intro heq
      -- both numbers take two characters at least, and four are there
      have hlength := congrArg List.length heq
      simp only [List.length_append, length_cons, h.hour, h.minute] at hlength
      have hleft := two_le_length_argTwo r.hh
      have hright := two_le_length_argTwo r.mm
      obtain ⟨hh, hm⟩ := append_inj heq (by rw [h.hour]; omega)
      exact ⟨hh, tail_eq_of_cons_eq hm⟩
    · rintro ⟨hh, hm⟩
      rw [hh, hm]
  rw [hsplit, hhh, hmm]
  constructor
  · rintro ⟨⟨hhplain, hhzero⟩, hmplain, hmzero⟩
    refine ⟨fun hforeign => (h.foreign_iff.mp hforeign).elim hhplain hmplain, ?_, ?_⟩
    · rwa [h.hourOf_eq]
    · rwa [h.minuteOf_eq]
  · rintro ⟨hplain, hhzero, hmzero⟩
    rw [h.foreign_iff, not_or] at hplain
    rw [h.hourOf_eq] at hhzero
    rw [h.minuteOf_eq] at hmzero
    exact ⟨⟨hplain.1, hhzero⟩, hplain.2, hmzero⟩

end

/-- An entry is the same in both: its localtime, and its setpoint as a number. -/
structure SameTransition (qt : Qt D) (entry entry' : QVariant D) : Prop where
  localtime : value entry'.toMap "localtime" = value entry.toMap "localtime"
  heatsetpoint : ∃ d n, value entry.toMap "heatsetpoint" = .double d ∧
    value entry'.toMap "heatsetpoint" = .int n ∧ d = qt.ofInt n

/-- A schedule is read back with its keys and transitions, in their order. -/
def ReadBack (qt : Qt D) (schedule : List (QString × QVariant D)) (s : QString) : Prop :=
  ∃ schedule', deserialiseThermostatSchedule s = some schedule' ∧
    List.Forall₂ (fun e e' => e'.1 = e.1 ∧
      List.Forall₂ (SameTransition qt) e.2.toList e'.2.toList) schedule schedule'

def WholeSetpoint (qt : Qt D) (entry : QVariant D) : Prop :=
  ∃ n, 500 ≤ n ∧ n ≤ 3000 ∧ value entry.toMap "heatsetpoint" = .double (qt.ofInt n)

/-- A `W` and what has neither another one nor a `/` -/
def IsKey (key : QString) : Prop :=
  ∃ days, key = unit 'W' :: days ∧ unit 'W' ∉ days ∧ unit '/' ∉ days

/-- `QVariant::toInt` of a whole `double` -/
def IntegersKept (qt : Qt D) : Prop :=
  ∀ n : Int, -2 ^ 31 ≤ n → n < 2 ^ 31 → qt.toInt (.double (qt.ofInt n)) = some n

theorem Accepts.sameTransition_iff (hqt : IntegersKept qt) {entry : QVariant D}
    (h : Accepts qt entry r) : SameTransition qt entry r.result ↔ Rewritable (localtimeOf entry) ∧
      WholeSetpoint qt entry := by
  have hne : ofLatin1 "localtime" ≠ ofLatin1 "heatsetpoint" := by decide
  have hlocaltime : value r.result.toMap "localtime" = .string (unit 'T' :: r.time) := by
    unfold value Reading.result QVariant.toMap
    rw [lookup_insert, if_neg hne, lookup_insert, if_pos rfl]
    rfl
  have hsetpoint : value r.result.toMap "heatsetpoint" = .int r.heatsetpoint := by
    unfold value Reading.result QVariant.toMap
    rw [lookup_insert, if_pos rfl]
    rfl
  have htime : QVariant.string (unit 'T' :: r.time) = value entry.toMap "localtime" ↔
      Rewritable (localtimeOf entry) := by
    rw [← h.time_eq_iff, h.localtime, h.localtimeOf_eq, QVariant.string.injEq]
  have hlow := h.low
  have hhigh := h.high
  constructor
  · rintro ⟨hsame, d, n, hd, hn, rfl⟩
    rw [hsetpoint, QVariant.int.injEq] at hn
    subst hn
    exact ⟨htime.mp (hlocaltime ▸ hsame), r.heatsetpoint, hlow, hhigh, hd⟩
  · rintro ⟨hrewritable, n, hnlow, hnhigh, hn⟩
    refine ⟨hlocaltime.trans (htime.mpr hrewritable), qt.ofInt n, n, hn, ?_, rfl⟩
    have hd : r.setpoint = qt.ofInt n := QVariant.double.inj (h.setpoint.symm.trans hn)
    have hint := h.heatsetpoint
    rw [hd, hqt n (by omega) (by omega), some_inj] at hint
    rw [hsetpoint, hint]

/-! ## Keys -/

def scheduleText (entries : List (QString × List (Reading D))) : QString :=
  entries.flatMap fun e => e.1 ++ unit '/' :: readingsText e.2

/-- A schedule is accepted with readings. -/
def AcceptsAll (qt : Qt D) (schedule : List (QString × QVariant D))
    (entries : List (QString × List (Reading D))) : Prop :=
  List.Forall₂ (fun e k => k.1 = e.1 ∧ List.Forall₂ (Accepts qt) e.2.toList k.2) schedule entries

theorem accepts_schedule {schedule : List (QString × QVariant D)}
    (h : serialiseThermostatSchedule qt schedule = some s) :
    ∃ entries, AcceptsAll qt schedule entries ∧ s = scheduleText entries := by
  obtain ⟨texts, htexts, rfl⟩ := map_eq_some_iff.mp h
  have hall := forall₂_of_mapM htexts
  clear htexts h
  induction hall with
  | nil => exact ⟨[], .nil, rfl⟩
  | @cons e text schedule texts he _ ih =>
    obtain ⟨transitions, htransitions, rfl⟩ := map_eq_some_iff.mp he
    obtain ⟨readings, hreadings, rfl⟩ := accepts_transitions htransitions
    obtain ⟨entries, hentries, htext⟩ := ih
    refine ⟨(e.1, readings) :: entries, .cons ⟨rfl, hreadings⟩ hentries, ?_⟩
    rw [flatten_cons, htext]
    rfl

theorem not_mem_readingsText {c : Char} (readings : List (Reading D)) (hT : unit c ≠ unit 'T')
    (hc : unit c ≠ unit '-' ∧ unit c ≠ unit ':' ∧ unit c ≠ unit '|' ∧
      ¬ (0x30 ≤ (unit c).toNat ∧ (unit c).toNat ≤ 0x39)) : unit c ∉ readingsText readings := by
  intro hmem
  obtain ⟨r, -, hmem⟩ := mem_flatMap.mp hmem
  rcases mem_cons.mp hmem with heq | hmem
  · exact hT heq
  · exact not_mem_body r hc hmem

/-- The parts of the text between the letters `W` -/
def entryPart (e : QString × List (Reading D)) : QString :=
  e.1.tail ++ unit '/' :: readingsText e.2

theorem split_scheduleText {entries : List (QString × List (Reading D))}
    (h : ∀ e ∈ entries, IsKey e.1) :
    split (scheduleText entries) 'W' = entries.map entryPart := by
  have hparts : parts (unit 'W') (scheduleText entries) = ([], entries.map entryPart) := by
    induction entries with
    | nil => rfl
    | cons e entries ih =>
      obtain ⟨he, hentries⟩ := forall_mem_cons.mp h
      obtain ⟨days, hkey, hdays, -⟩ := he
      have hpart : unit 'W' ∉ entryPart e := by
        unfold entryPart
        rw [hkey, tail_cons, mem_append, mem_cons, not_or, not_or]
        exact ⟨hdays, by decide, not_mem_readingsText e.2 (by decide) (by decide)⟩
      have htext : scheduleText (e :: entries) = unit 'W' ::
          (entryPart e ++ scheduleText entries) := by
        unfold scheduleText entryPart
        rw [flatMap_cons, hkey]
        rfl
      rw [htext, parts_cons_self, parts_append_of_not_mem hpart, ih hentries]
      simp
  have hfilter : (entries.map entryPart).filter (fun part => decide (part ≠ [])) =
      entries.map entryPart := by
    rw [filter_eq_self]
    intro part hpart
    obtain ⟨e, -, rfl⟩ := mem_map.mp hpart
    simp [entryPart]
  unfold split
  rw [hparts, filter_cons]
  simpa using hfilter

/-- What is read of entries with keys -/
def readEntry (e : QString × List (Reading D)) : QString × QVariant D :=
  (e.1, .list (e.2.map Reading.result))

theorem deserialise_entries {schedule : List (QString × QVariant D)}
    {entries : List (QString × List (Reading D))} (hall : AcceptsAll qt schedule entries)
    (hkeys : ∀ e ∈ schedule, IsKey e.1) {front : List (QString × QVariant D)}
    (hsorted : (front.map Prod.fst ++ schedule.map Prod.fst).Pairwise (· < ·)) :
    deserialiseEntries (entries.map entryPart) front = some (front ++ entries.map readEntry) := by
  unfold AcceptsAll at hall
  induction hall generalizing front with
  | nil =>
    rw [map_nil, map_nil, append_nil]
    rfl
  | @cons e k schedule entries he _ ih =>
    obtain ⟨hkey, hreadings⟩ := he
    obtain ⟨hplain, hkeys⟩ := forall_mem_cons.mp hkeys
    obtain ⟨days, hdays, -, hslash⟩ := hplain
    have hparts : parts (unit '/') (entryPart k) = (days, [readingsText k.2]) := by
      unfold entryPart
      rw [hkey, hdays, tail_cons, parts_append_of_not_mem hslash, parts_cons_self,
        parts_of_not_mem (not_mem_readingsText k.2 (by decide) (by decide)), append_nil]
    have hlast : insert e.1 (.list (k.2.map Reading.result)) front = front ++
        [(e.1, .list (k.2.map Reading.result))] := by
      refine insert_last _ fun key hmem => ?_
      exact (pairwise_append.mp hsorted).2.2 key hmem e.1 mem_cons_self
    have hrest : ((front ++ [(e.1, QVariant.list (k.2.map Reading.result))]).map Prod.fst ++
        schedule.map Prod.fst).Pairwise (· < ·) := by
      simpa using hsorted
    rw [map_cons, deserialiseEntries, hparts]
    simp only [deserialise_readingsText hreadings]
    rw [← hdays, hlast, ih hkeys hrest, map_cons, append_assoc]
    unfold readEntry
    rw [hkey]
    rfl

theorem isKey_of_deserialise {list : List QString} {front schedule : List (QString × QVariant D)}
    (hlist : ∀ entry ∈ list, unit 'W' ∉ entry)
    (h : deserialiseEntries list front = some schedule) :
    ∀ key ∈ schedule.map Prod.fst, key ∈ front.map Prod.fst ∨ IsKey key := by
  induction list generalizing front with
  | nil =>
    rw [← some_inj.mp h]
    exact fun key hkey => .inl hkey
  | cons entry list ih =>
    obtain ⟨hentry, hlist⟩ := forall_mem_cons.mp hlist
    rw [deserialiseEntries] at h
    split at h
    · rename_i days transitions hparts
      split at h
      · exact nomatch h
      · rename_i values _
        intro key hkey
        refine (ih hlist h key hkey).elim (fun hfront => ?_) .inr
        refine (keys_insert _ _ front key hfront).elim (fun heq => .inr ?_) .inl
        have hfirst : days = (parts (unit '/') entry).1 := by rw [hparts]
        refine ⟨days, heq, fun hW => ?_, ?_⟩
        · exact hentry ((parts_front (unit '/') entry).subset (hfirst ▸ hW))
        · rw [hfirst]
          exact not_mem_of_mem_splitAll (s := entry) mem_cons_self
    · exact nomatch h

theorem keys_eq {α β : Type} {l : List (QString × α)} {l' : List (QString × β)}
    (h : List.Forall₂ (fun e e' => e'.1 = e.1) l l') : l'.map Prod.fst = l.map Prod.fst := by
  induction h with
  | nil => rfl
  | cons hkey _ ih => rw [map_cons, map_cons, hkey, ih]

section

variable {qt : Qt D} {schedule : List (QString × QVariant D)}
  {entries : List (QString × List (Reading D))}

theorem exists_accepts {transitions : List (QVariant D)} {readings : List (Reading D)}
    (h : List.Forall₂ (Accepts qt) transitions readings) :
    ∀ t ∈ transitions, ∃ r, Accepts qt t r := by
  induction h with
  | nil => exact fun t ht => nomatch ht
  | cons hr _ ih => exact forall_mem_cons.mpr ⟨⟨_, hr⟩, ih⟩

variable (hqt : IntegersKept qt)
include hqt

theorem same_transitions_iff {transitions : List (QVariant D)} {readings : List (Reading D)}
    (h : List.Forall₂ (Accepts qt) transitions readings) :
    List.Forall₂ (SameTransition qt) transitions (readings.map Reading.result) ↔ ∀ t ∈
      transitions, Rewritable (localtimeOf t) ∧ WholeSetpoint qt t := by
  induction h with
  | nil => exact iff_of_true .nil fun t ht => nomatch ht
  | cons hr _ ih =>
    rw [map_cons, forall₂_cons, forall_mem_cons, hr.sameTransition_iff hqt, ih]

theorem same_schedule_iff (hall : AcceptsAll qt schedule entries) :
    List.Forall₂ (fun e e' => e'.1 = e.1 ∧
        List.Forall₂ (SameTransition qt) e.2.toList e'.2.toList) schedule
      (entries.map readEntry) ↔
      ∀ e ∈ schedule, ∀ t ∈ e.2.toList, Rewritable (localtimeOf t) ∧ WholeSetpoint qt t := by
  unfold AcceptsAll at hall
  induction hall with
  | nil => exact iff_of_true .nil fun e he => nomatch he
  | cons he _ ih =>
    rw [map_cons, forall₂_cons, forall_mem_cons, ih, ← same_transitions_iff hqt he.2]
    exact and_congr_left' (and_iff_right he.1)

theorem readBack_iff (hsorted : (schedule.map Prod.fst).Pairwise (· < ·))
    (hall : AcceptsAll qt schedule entries) : ReadBack qt schedule (scheduleText entries) ↔ ∀ e ∈
      schedule, IsKey e.1 ∧ ∀ t ∈ e.2.toList, Rewritable (localtimeOf t) ∧ WholeSetpoint qt t := by
  have hsplit : (∀ e ∈ schedule, IsKey e.1 ∧ ∀ t ∈ e.2.toList, Rewritable (localtimeOf t) ∧
      WholeSetpoint qt t) ↔
        (∀ e ∈ schedule, IsKey e.1) ∧ ∀ e ∈ schedule, ∀ t ∈ e.2.toList, Rewritable (localtimeOf t) ∧
          WholeSetpoint qt t := by
    simp only [imp_and, forall_and]
  have hnames : entries.map Prod.fst = schedule.map Prod.fst :=
    keys_eq (hall.imp fun _ _ h => h.1)
  have hread (hkeys : ∀ e ∈ schedule, IsKey e.1) :
      deserialiseThermostatSchedule (scheduleText entries) = some (entries.map readEntry) := by
    have hentries : ∀ k ∈ entries, IsKey k.1 := by
      refine forall_mem_map.mp ?_
      rw [hnames]
      exact forall_mem_map.mpr hkeys
    unfold deserialiseThermostatSchedule
    rw [split_scheduleText hentries]
    exact deserialise_entries hall hkeys hsorted
  rw [hsplit, ← same_schedule_iff hqt hall]
  clear hsplit
  constructor
  · rintro ⟨schedule', hschedule', hsame⟩
    have hparts : ∀ entry ∈ split (scheduleText entries) 'W', unit 'W' ∉ entry :=
      fun entry hentry => not_mem_of_mem_splitAll (mem_filter.mp hentry).1
    have hall' := isKey_of_deserialise hparts hschedule'
    have hkeys : ∀ e ∈ schedule, IsKey e.1 := by
      have hsameKeys : schedule'.map Prod.fst = schedule.map Prod.fst :=
        keys_eq (hsame.imp fun _ _ h => h.1)
      refine forall_mem_map.mp ?_
      rw [← hsameKeys]
      exact fun key hkey => (hall' key hkey).elim (fun hnil => nomatch hnil) id
    rw [hread hkeys, some_inj] at hschedule'
    exact ⟨hkeys, hschedule' ▸ hsame⟩
  · rintro ⟨hkeys, hsame⟩
    exact ⟨_, hread hkeys, hsame⟩

end

/-- **The text of a schedule.**  An accepted list has times of the day alone exactly if no localtime
of it has a sign, white space, or a number that is no hour or no minute.  An accepted schedule is
read back exactly if its keys are a `W` with neither another one nor a `/` behind it, its
localtimes have no plus, no white space and no minus in front of a zero, and its setpoints are whole
numbers. -/
theorem scheduleText_iff {qt : Qt D} (hqt : IntegersKept qt) {transitions : List (QVariant D)}
    {text : QString} (htransitions : serialiseThermostatTransitions qt transitions = some text)
    {schedule : List (QString × QVariant D)} {s : QString}
    (hsorted : (schedule.map Prod.fst).Pairwise (· < ·))
    (hschedule : serialiseThermostatSchedule qt schedule = some s) :
    ((∀ t ∈ transitions, IsTimeOfDay (localtimeOf t)) ↔ ∀ t ∈ transitions, InDay (localtimeOf t)) ∧
      (ReadBack qt schedule s ↔ ∀ e ∈ schedule, IsKey e.1 ∧ ∀ t ∈
        e.2.toList, Rewritable (localtimeOf t) ∧ WholeSetpoint qt t) := by
  obtain ⟨readings, hreadings, -⟩ := accepts_transitions htransitions
  obtain ⟨entries, hentries, rfl⟩ := accepts_schedule hschedule
  refine ⟨forall₂_congr fun t ht => ?_, readBack_iff hqt hsorted hentries⟩
  obtain ⟨r, hr⟩ := exists_accepts hreadings t ht
  exact hr.isTimeOfDay_iff

def transitionOf (localtime : String) (heatsetpoint : Int) : QVariant Int :=
  .map [(ofLatin1 "heatsetpoint", .double heatsetpoint),
    (ofLatin1 "localtime", .string (ofLatin1 localtime))]

def workday : List (QVariant Int) := [transitionOf "T06:00" 2000, transitionOf "T22:00" 1700]

def week : List (QString × QVariant Int) :=
  [(ofLatin1 "W124", .list workday), (ofLatin1 "W3", .list [transitionOf "T08:30" 1850])]

theorem week_rewritable : ∀ e ∈ week, ∀ t ∈ e.2.toList, Rewritable (localtimeOf t) := by
  decide +kernel

theorem wholeSetpoint_transitionOf (localtime : String) (hlow : 500 ≤ n) (hhigh : n ≤ 3000) :
    WholeSetpoint Qt.whole (transitionOf localtime n) :=
  ⟨n, hlow, hhigh, rfl⟩

theorem week_readBack : ((∀ t ∈ workday, IsTimeOfDay (localtimeOf t)) ↔ ∀ t ∈
      workday, InDay (localtimeOf t)) ∧
    ReadBack Qt.whole week (ofLatin1 "W124/T06:00|2000T22:00|1700W3/T08:30|1850") := by
  have htransitions : serialiseThermostatTransitions Qt.whole workday =
      some (ofLatin1 "T06:00|2000T22:00|1700") := by decide +kernel
  have hschedule : serialiseThermostatSchedule Qt.whole week =
      some (ofLatin1 "W124/T06:00|2000T22:00|1700W3/T08:30|1850") := by decide +kernel
  have hsorted : (week.map Prod.fst).Pairwise (· < ·) := by decide +kernel
  obtain ⟨htimes, hread⟩ :=
    scheduleText_iff (fun n _ _ => rfl) htransitions hsorted hschedule
  refine ⟨htimes, hread.mpr fun e he => ⟨?_, fun t ht => ⟨week_rewritable e he t ht, ?_⟩⟩⟩
  · rcases mem_pair.mp he with rfl | rfl
    · exact ⟨ofLatin1 "124", by decide, by decide, by decide⟩
    · exact ⟨ofLatin1 "3", by decide, by decide, by decide⟩
  · rcases mem_pair.mp he with rfl | rfl
    · rcases mem_pair.mp ht with rfl | rfl
      · exact wholeSetpoint_transitionOf _ (by decide) (by decide)
      · exact wholeSetpoint_transitionOf _ (by decide) (by decide)
    · obtain rfl := mem_singleton.mp ht
      exact wholeSetpoint_transitionOf _ (by decide) (by decide)

/-- **No time of the day is accepted**, `T99:99`. -/
theorem ninetyNine_accepted :
    serialiseThermostatTransitions Qt.whole [transitionOf "T99:99" 2000] =
        some (ofLatin1 "T99:99|2000") ∧
      ¬ IsTimeOfDay (localtimeOf (transitionOf "T99:99" 2000)) := by
  constructor
  · decide +kernel
  · unfold IsTimeOfDay
    decide +kernel

end Thermostat
end DeconzRest

import DeconzRest.Zcl.TuyaSchedule

/-!
# Schedules for Tuya thermostats

`sendTuyaRequestThermostatSetWeeklySchedule` puts the hour, the minute and the setpoint of each
transition into the data of a raw datapoint, each as the text of a hexadecimal number.  A report
has them as octets.
-/

namespace DeconzRest
namespace Tuya

open QString List Option
open Thermostat (ScheduleTransition transitionsText)

/-- `QByteArray::number` in base 16 -/
def number16 (n : UInt8) : List UInt8 :=
  (Nat.toDigits 16 n.toNat).map fun c => UInt8.ofNat c.toNat

/-- The data of an entry; none where the function returns false. -/
def entryData (entry : QString) : Option (List UInt8) :=
  match parts (unit '|') entry with
  | (time, [setpoint]) =>
    let hh := UInt8.ofNat ((toUInt (time.take 2)).getD 0)
    let mm := UInt8.ofNat ((toUInt ((time.drop 3).take 2)).getD 0)
    let heatSetpoint := UInt8.ofNat (((toInt setpoint).getD 0) % 256).toNat
    some (number16 hh ++ (number16 mm ++ number16 heatSetpoint))
  | _ => none

/-- `sendTuyaRequestThermostatSetWeeklySchedule`: the identifier and the data that are handed to
`sendTuyaRequest`, with the type `DP_TYPE_RAW`. -/
def setWeeklySchedule (weekdays : UInt8) (transitions : QString) (dpIdentifier : UInt8) :
    Option (UInt8 × List UInt8) :=
  let list := split transitions 'T'
  let dpIdentifier :=
    if dpIdentifier = 0x65 then dpIdentifier -- DP_IDENTIFIER_THERMOSTAT_SCHEDULE_1
    else if dpIdentifier = 0x6D then dpIdentifier -- DP_IDENTIFIER_THERMOSTAT_SCHEDULE_4
    else if weekdays = 3 then 0x71 -- DP_IDENTIFIER_THERMOSTAT_SCHEDULE_3
    else dpIdentifier
  (list.mapM entryData).map fun data => (dpIdentifier, data.flatten)

/-! ## Entries of a text -/

def entryBody (t : ScheduleTransition) : QString :=
  numberTwo t.hours ++ (unit ':' :: numberTwo t.minutes ++ unit '|' :: number t.heatSetpoint)

theorem text_eq (t : ScheduleTransition) : t.text = unit 'T' :: entryBody t := by
  unfold ScheduleTransition.text entryBody
  simp

theorem not_mem_numberTwo {c : Char} (hc : ¬ (0x30 ≤ (unit c).toNat ∧ (unit c).toNat ≤ 0x39))
    (n : Nat) : unit c ∉ numberTwo n := fun hmem => hc (mem_numberTwo hmem)

theorem not_mem_entryBody (t : ScheduleTransition) : unit 'T' ∉ entryBody t := by
  intro hmem
  rcases mem_append.mp hmem with hmem | hmem
  · exact not_mem_numberTwo (by decide) _ hmem
  · rcases mem_append.mp hmem with hmem | hmem
    · rcases mem_cons.mp hmem with heq | hmem
      · exact absurd heq (by decide)
      · exact not_mem_numberTwo (by decide) _ hmem
    · rcases mem_cons.mp hmem with heq | hmem
      · exact absurd heq (by decide)
      · rcases mem_number_int hmem with heq | hdigit
        · exact absurd heq (by decide)
        · exact absurd hdigit (by decide)

theorem numberTwo_spec : ∀ n < 60, (numberTwo n).length = 2 ∧ toUInt (numberTwo n) = some n := by
  decide +kernel

def timeText (t : ScheduleTransition) : QString :=
  numberTwo t.hours ++ unit ':' :: numberTwo t.minutes

theorem parts_entryBody (t : ScheduleTransition) :
    parts (unit '|') (entryBody t) = (timeText t, [number t.heatSetpoint]) := by
  have htime : unit '|' ∉ timeText t := by
    intro hmem
    rcases mem_append.mp hmem with hmem | hmem
    · exact not_mem_numberTwo (by decide) _ hmem
    · rcases mem_cons.mp hmem with heq | hmem
      · exact absurd heq (by decide)
      · exact not_mem_numberTwo (by decide) _ hmem
  have hnumber : unit '|' ∉ number t.heatSetpoint := by
    intro hmem
    rcases mem_number_int hmem with heq | hdigit
    · exact absurd heq (by decide)
    · exact absurd hdigit (by decide)
  have hbody : entryBody t = timeText t ++ unit '|' :: number t.heatSetpoint := by
    unfold entryBody timeText
    simp
  rw [hbody, parts_append_of_not_mem htime, parts_cons_self, parts_of_not_mem hnumber]
  simp

theorem timeText_parts {t : ScheduleTransition} (hhours : t.hours < 60) :
    (timeText t).take 2 = numberTwo t.hours ∧ (timeText t).drop 3 = numberTwo t.minutes := by
  have hlength := (numberTwo_spec t.hours hhours).1
  unfold timeText
  constructor
  · rw [← hlength, take_left]
  · have hfront : 3 = (numberTwo t.hours ++ [unit ':']).length := by
      rw [List.length_append, hlength]
      rfl
    rw [append_cons, hfront, drop_left]

theorem readTime_timeText {t : ScheduleTransition} (hhours : t.hours < 60)
    (hminutes : t.minutes < 60) :
    toUInt ((timeText t).take 2) = some t.hours ∧ toUInt (((timeText t).drop 3).take 2) =
      some t.minutes := by
  obtain ⟨-, hhour⟩ := numberTwo_spec t.hours hhours
  obtain ⟨hlength, hminute⟩ := numberTwo_spec t.minutes hminutes
  obtain ⟨hfront, hback⟩ := timeText_parts hhours
  rw [hfront, hback, take_of_length_le hlength.le]
  exact ⟨hhour, hminute⟩

theorem split_transitionsText (ts : List ScheduleTransition) :
    split (transitionsText ts) 'T' = ts.map entryBody := by
  have hparts : parts (unit 'T') (transitionsText ts) = ([], ts.map entryBody) := by
    induction ts with
    | nil => rfl
    | cons t ts ih =>
      have htext : transitionsText (t :: ts) = unit 'T' :: (entryBody t ++ transitionsText ts) := by
        unfold transitionsText
        rw [flatMap_cons, text_eq]
        rfl
      rw [htext, parts_cons_self, parts_append_of_not_mem (not_mem_entryBody t), ih]
      simp
  have hfilter : (ts.map entryBody).filter (fun part => decide (part ≠ [])) = ts.map entryBody := by
    rw [filter_eq_self]
    intro body hbody
    obtain ⟨t, -, rfl⟩ := mem_map.mp hbody
    simp [entryBody]
  unfold split
  rw [hparts, filter_cons]
  simpa using hfilter

def TransitionOctets.Valid (t : TransitionOctets) : Prop := t.hour < 24 ∧ t.minut < 60

def TransitionOctets.hexTexts (t : TransitionOctets) : List UInt8 :=
  number16 t.hour ++ (number16 t.minut ++ number16 t.heatSetpoint)

theorem entryData_body {t : TransitionOctets} (h : t.Valid) :
    entryData (entryBody t.transition) = some t.hexTexts := by
  have hhour : t.hour.toNat < 60 := Nat.lt_trans (UInt8.lt_iff_toNat_lt.mp h.1) (by decide)
  obtain ⟨hhours, hminutes⟩ : toUInt ((timeText t.transition).take 2) = some t.hour.toNat ∧
      toUInt (((timeText t.transition).drop 3).take 2) = some t.minut.toNat :=
    readTime_timeText hhour (UInt8.lt_iff_toNat_lt.mp h.2)
  have hsetpoint := toInt_number (Nat.lt_trans t.heatSetpoint.toNat_lt (by decide))
  have hnumber : number t.transition.heatSetpoint = number ((t.heatSetpoint.toNat : Nat) : Int) :=
    rfl
  unfold entryData
  rw [parts_entryBody]
  simp only [hhours, hminutes, hnumber, hsetpoint, getD_some, UInt8.ofNat_toNat]
  unfold TransitionOctets.hexTexts
  congr 4
  refine UInt8.toNat.inj ?_
  have hlt := t.heatSetpoint.toNat_lt
  rw [UInt8.toNat_ofNat']
  omega

theorem setWeeklySchedule_eq (weekdays dpIdentifier : UInt8) {ts : List TransitionOctets}
    (h : ∀ t ∈ ts, t.Valid) :
    (setWeeklySchedule weekdays (transitionsText (ts.map TransitionOctets.transition))
      dpIdentifier).map Prod.snd = some (ts.flatMap TransitionOctets.hexTexts) := by
  have hdata : ((ts.map TransitionOctets.transition).map entryBody).mapM entryData =
      some (ts.map TransitionOctets.hexTexts) := by
    induction ts with
    | nil => rfl
    | cons t ts ih =>
      obtain ⟨ht, hts⟩ := forall_mem_cons.mp h
      rw [map_cons, map_cons, mapM_cons, entryData_body ht, ih hts]
      rfl
  unfold setWeeklySchedule
  simp only [split_transitionsText, hdata, map_some]
  rw [flatMap_def]

/-- The transitions that the handler of a report reads, without the text that it builds -/
def readEntries (dp : UInt16) : Nat → DataStream → List ScheduleTransition × DataStream
  | 0, stream => ([], stream)
  | n + 1, stream =>
    let (entry, stream) := readEntry dp stream
    let (entries, stream) := readEntries dp n stream
    (entry :: entries, stream)

/-- What is sent is read back as the same transitions, and has three octets for each. -/
def ReadBack (weekdays dpIdentifier : UInt8) (ts : List TransitionOctets) : Prop :=
  ∃ request, setWeeklySchedule weekdays (transitionsText (ts.map TransitionOctets.transition))
      dpIdentifier = some request ∧
    request.2.length = 3 * ts.length ∧
    readEntries 0x0070 ts.length { bytes := request.2 } =
      (ts.map TransitionOctets.transition, { bytes := [] })

theorem hours_readEntry {dp : UInt16} (hdp : isDaily dp = false) (c : UInt8) (rest : List UInt8) :
    (readEntry dp { bytes := c :: rest }).1.hours = c.toNat := by
  unfold readEntry
  rw [if_neg (by rw [hdp]; exact Bool.false_ne_true)]
  simp only [DataStream.read8_cons]

theorem number16_head (n : UInt8) : ∃ c rest, number16 n = c :: rest ∧ 0x30 ≤ c.toNat := by
  have hdigit : ∀ d < 16, 0x30 ≤ (UInt8.ofNat (Nat.digitChar d).toNat).toNat := by decide
  have hlt := n.toNat_lt
  unfold number16
  by_cases hsmall : n.toNat < 16
  · rw [Nat.toDigits_of_lt_base hsmall]
    exact ⟨_, [], rfl, hdigit _ hsmall⟩
  · rw [Nat.toDigits_of_base_le (by decide) (Nat.le_of_not_lt hsmall),
      Nat.toDigits_of_lt_base (by omega : n.toNat / 16 < 16)]
    exact ⟨_, _, rfl, hdigit (n.toNat / 16) (by omega)⟩

/-- **The data of a request** has the layout of a report only without any transition. -/
theorem scheduleReadBack_iff (weekdays dpIdentifier : UInt8) (ts : List TransitionOctets)
    (h : ∀ t ∈ ts, t.Valid) : ReadBack weekdays dpIdentifier ts ↔ ts = [] := by
  constructor
  · rintro ⟨request, hrequest, -, hread⟩
    have hdata := setWeeklySchedule_eq weekdays dpIdentifier h
    rw [hrequest, map_some, some_inj] at hdata
    cases ts with
    | nil => rfl
    | cons t ts =>
      obtain ⟨c, rest, hnumber, hdigit⟩ := number16_head t.hour
      have hhour := UInt8.lt_iff_toNat_lt.mp (h t mem_cons_self).1
      have hfront : request.2 = c :: (rest ++ (number16 t.minut ++ number16 t.heatSetpoint) ++
          ts.flatMap TransitionOctets.hexTexts) := by
        rw [hdata, flatMap_cons, TransitionOctets.hexTexts, hnumber]
        rfl
      rw [hfront, length_cons, readEntries] at hread
      have hfirst := congrArg (fun r => (r.1.head?).map ScheduleTransition.hours) hread
      have heq : (readEntry 0x0070 { bytes := c :: _ }).1.hours = t.hour.toNat :=
        some_inj.mp hfirst
      rw [hours_readEntry rfl] at heq
      have hlt : t.hour.toNat < 24 := hhour
      omega
  · rintro rfl
    exact ⟨_, rfl, rfl, rfl⟩

def sevenOClock : List TransitionOctets := [⟨7, 0, 21⟩]

theorem sevenOClock_valid : ∀ t ∈ sevenOClock, t.Valid := by
  intro t ht
  rw [mem_singleton.mp ht]
  exact ⟨by decide, by decide⟩

theorem sevenOClock_not_readBack : ¬ ReadBack 124 0x70 sevenOClock := fun h =>
  absurd ((scheduleReadBack_iff 124 0x70 sevenOClock sevenOClock_valid).mp h) (cons_ne_nil _ _)

/-- It is sent as the four octets 37 30 31 35, in hexadecimal. -/
theorem sevenOClock_sent : ¬ ∀ ts : List TransitionOctets, (∀ t ∈ ts, t.Valid) →
    ReadBack 124 0x70 ts := by
  intro hall
  obtain ⟨request, hrequest, hlength, -⟩ := hall sevenOClock sevenOClock_valid
  have hsent : setWeeklySchedule 124
      (transitionsText (sevenOClock.map TransitionOctets.transition)) 0x70 =
        some (0x70, [0x37, 0x30, 0x31, 0x35]) := by decide +kernel
  rw [hsent] at hrequest
  rw [← some_inj.mp hrequest] at hlength
  exact absurd hlength (by decide)

end Tuya
end DeconzRest

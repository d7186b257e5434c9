import DeconzRest.Lib.DataStream
import DeconzRest.Thermostat.Schedule

/-!
# Schedules of Tuya thermostats

`handleTuyaClusterIndication` takes a report with more than four bytes of data for a schedule, and
passes it to `updateThermostatSchedule` transition by transition, each time with all transitions
read so far.  How many it reads is computed from the length of the data, in three ways; only the
one for a single group of days with three bytes for a transition is the number of transitions
(`schedule_report_iff`).
-/

namespace DeconzRest
namespace Tuya

open QString List
open Thermostat (ScheduleTransition transitionsText)

/-! ## The handler -/

/-- What is read and passed on; a call of `updateThermostatSchedule` has weekdays and
transitions. -/
structure ScheduleState where
  stream : DataStream
  transitions : QString := []
  calls : List (UInt8 × QString) := []
deriving DecidableEq, Repr

def isDaily (dp : UInt16) : Bool := 0x007B ≤ dp && dp ≤ 0x0081

def readEntry (dp : UInt16) (stream : DataStream) : ScheduleTransition × DataStream :=
  if isDaily dp then
    let (minut16, stream) := stream.read16
    let (heatSetpoint16, stream) := stream.read16
    let hour := minut16.toNat / 60 % 256
    (⟨hour, (minut16.toNat - 60 * hour) % 256, (heatSetpoint16.toNat / 10 % 256 : Nat)⟩, stream)
  else
    let (hour, stream) := stream.read8
    let (minut, stream) := stream.read8
    let (heatSetpoint, stream) := stream.read8
    (⟨hour.toNat, minut.toNat, (heatSetpoint.toNat : Nat)⟩, stream)

def blockLoop (dp : UInt16) (listday : List UInt8) (part : Nat) :
    Nat → ScheduleState → ScheduleState
  | 0, s => s
  | blocklength + 1, s =>
    let (entry, stream) := readEntry dp s.stream
    let transitions := s.transitions ++ entry.text
    let calls :=
      match listday[part - 1]? with
      | some days => s.calls ++ [(days, transitions)]
      | none => s.calls
    blockLoop dp listday part blocklength ⟨stream, transitions, calls⟩

/-- The outer loop; `blocklength` is not set again. -/
def partLoop (dp : UInt16) (listday : List UInt8) : Nat → Nat → ScheduleState → ScheduleState
  | 0, _, s => s
  | part + 1, blocklength, s =>
    partLoop dp listday part 0 (blockLoop dp listday (part + 1) blocklength s)

def dailyDays : List UInt8 := [1, 64, 32, 46, 8, 4, 2]

/-- What the switch over `dp` sets -/
structure ScheduleLayout where
  part : Nat := 0
  listday : List UInt8 := []
  valuesToRead : Nat := 0
  blocklength : Nat := 0
  /-- The first octet is the mode. -/
  hasMode : Bool := false
deriving DecidableEq, Repr

/-- The switch over `dp` -/
def layout (dp : UInt16) (length : Nat) : ScheduleLayout :=
  if dp = 0x0070 then -- work days (6)
    { part := 1, listday := [124], valuesToRead := 3, blocklength := length / 3 }
  else if dp = 0x0071 then -- holiday = Not working day (6)
    { part := 1, listday := [3], valuesToRead := 3, blocklength := length / 3 }
  else if dp = 0x0065 then -- Moe thermostat W124 (4) + W002 (4) + W001 (4)
    { part := length / 3, listday := [124, 2, 1], valuesToRead := 3, blocklength := length / 3 }
  else if isDaily dp then
    { part := 1, listday := (dailyDays[dp.toNat - 0x007B]?).toList, valuesToRead := 2,
      blocklength := (length - 1) / 2, hasMode := true }
  else {}

/-- The part for schedules, behind the header -/
def readSchedule (dp : UInt16) (length size : Nat) (stream : DataStream) : ScheduleState :=
  let l := layout dp length
  let stream := if l.hasMode then stream.read8.2 else stream
  let scheduledatalength := if l.hasMode then (size - 7) % 256 else (size - 6) % 256
  if scheduledatalength < l.part * l.blocklength * l.valuesToRead then { stream }
  else partLoop dp l.listday l.part l.blocklength { stream }

/-- `handleTuyaClusterIndication`, for the payload of a reporting, query or status search command;
what is no schedule is not passed to `updateThermostatSchedule`. -/
def handleTuyaClusterIndication (payload : List UInt8) : ScheduleState :=
  let stream : DataStream := { bytes := payload }
  if payload.length < 7 then { stream }
  else
    let (_status, stream) := stream.read8
    let (_transid, stream) := stream.read8
    let (dp, stream) := stream.read16
    let (_fn, stream) := stream.read8
    let (length, stream) := stream.read8
    if 4 < length then readSchedule dp length.toNat payload.length stream
    else { stream := stream.discard length.toNat }

/-! ## Reports -/

structure TransitionOctets where
  hour : UInt8
  minut : UInt8
  heatSetpoint : UInt8
deriving DecidableEq, Repr

namespace TransitionOctets

def octets (t : TransitionOctets) : List UInt8 := [t.hour, t.minut, t.heatSetpoint]

def transition (t : TransitionOctets) : ScheduleTransition :=
  ⟨t.hour.toNat, t.minut.toNat, (t.heatSetpoint.toNat : Nat)⟩

end TransitionOctets

structure DailyTransition where
  minut : UInt16
  heatSetpoint : UInt16
deriving DecidableEq, Repr

namespace DailyTransition

def octets (t : DailyTransition) : List UInt8 :=
  writeLE 2 t.minut.toNat ++ writeLE 2 t.heatSetpoint.toNat

def transition (t : DailyTransition) : ScheduleTransition :=
  ⟨t.minut.toNat / 60, t.minut.toNat % 60, (t.heatSetpoint.toNat / 10 : Nat)⟩

end DailyTransition

inductive ScheduleReport where
  | workDays (transitions : List TransitionOctets)
  | holidays (transitions : List TransitionOctets)
  /-- Work days, Saturday and Sunday, with equally many transitions -/
  | groups (weekdays saturday sunday : List TransitionOctets)
  /-- The schedule of one day, Sunday is the first -/
  | daily (day : Fin 7) (mode : UInt8) (transitions : List DailyTransition)
deriving DecidableEq, Repr

namespace ScheduleReport

def dp : ScheduleReport → UInt16
  | .workDays _ => 0x0070
  | .holidays _ => 0x0071
  | .groups _ _ _ => 0x0065
  | .daily day _ _ => .ofNat (0x007B + day)

def data : ScheduleReport → List UInt8
  | .workDays transitions | .holidays transitions => transitions.flatMap TransitionOctets.octets
  | .groups weekdays saturday sunday =>
    (weekdays ++ saturday ++ sunday).flatMap TransitionOctets.octets
  | .daily _ mode transitions => mode :: transitions.flatMap DailyTransition.octets

/-- The days of Monday to Sunday are the bits 64 to 1. -/
def dayMask (day : Fin 7) : UInt8 := [1, 64, 32, 16, 8, 4, 2][day]

def days : ScheduleReport → List (UInt8 × List ScheduleTransition)
  | .workDays transitions => [(124, transitions.map TransitionOctets.transition)]
  | .holidays transitions => [(3, transitions.map TransitionOctets.transition)]
  | .groups weekdays saturday sunday =>
    [(124, weekdays.map TransitionOctets.transition), (2, saturday.map TransitionOctets.transition),
      (1, sunday.map TransitionOctets.transition)]
  | .daily day _ transitions => [(dayMask day, transitions.map DailyTransition.transition)]

/-- The length of the data fits, and the three groups are of the same size. -/
def WellFormed (report : ScheduleReport) : Prop :=
  report.data.length < 256 ∧
    match report with
    | .groups weekdays saturday sunday =>
      weekdays.length = saturday.length ∧ saturday.length = sunday.length
    | _ => True

def payload (status transid fn : UInt8) (report : ScheduleReport) : List UInt8 :=
  status :: transid :: (writeLE 2 report.dp.toNat ++ fn :: .ofNat report.data.length :: report.data)

end ScheduleReport

/-- What is passed to `updateThermostatSchedule` in the end for the weekdays -/
def lastPassed (calls : List (UInt8 × QString)) (days : UInt8) : Option QString :=
  ((calls.filter fun call => call.1 == days).getLast?).map Prod.snd

/-- The days of the report and no others have got their transitions in the end, and nothing was
read behind the payload. -/
structure Decodes (report : ScheduleReport) (s : ScheduleState) : Prop where
  passed : ∀ group ∈ report.days, lastPassed s.calls group.1 = some (transitionsText group.2)
  only : ∀ call ∈ s.calls, call.1 ∈ report.days.map Prod.fst
  inside : s.stream.readPastEnd = false

def OneGroup : ScheduleReport → Prop
  | .workDays transitions | .holidays transitions => 2 ≤ transitions.length
  | .groups _ _ _ | .daily _ _ _ => False

section Header

variable (status transid fn : UInt8) (report : ScheduleReport)

theorem length_payload : (report.payload status transid fn).length = 6 + report.data.length := by
  unfold ScheduleReport.payload
  rw [length_cons, length_cons, List.length_append, length_writeLE, length_cons, length_cons]
  omega

theorem toNat_length {report : ScheduleReport} (h : report.data.length < 256) :
    (UInt8.ofNat report.data.length).toNat = report.data.length := by
  rw [UInt8.toNat_ofNat']
  exact Nat.mod_eq_of_lt h

variable {report}

theorem handle_long (h : report.data.length < 256) (hlong : 4 < report.data.length) :
    handleTuyaClusterIndication (report.payload status transid fn) =
      readSchedule report.dp report.data.length (6 + report.data.length)
        { bytes := report.data } := by
  have hfour : 4 < UInt8.ofNat report.data.length := by
    rw [UInt8.lt_iff_toNat_lt, toNat_length h]
    exact hlong
  unfold handleTuyaClusterIndication
  rw [length_payload, if_neg (by omega)]
  unfold ScheduleReport.payload
  simp only [DataStream.read8_cons, DataStream.read16_writeLE, toNat_length h, if_pos hfour]

theorem handle_short (h : report.data.length < 256) (hshort : report.data.length ≤ 4) :
    (handleTuyaClusterIndication (report.payload status transid fn)).calls = [] := by
  have hfour : ¬ 4 < UInt8.ofNat report.data.length := by
    rw [UInt8.lt_iff_toNat_lt, toNat_length h]
    exact Nat.not_lt_of_le hshort
  unfold handleTuyaClusterIndication
  split
  · rfl
  · unfold ScheduleReport.payload
    simp only [DataStream.read8_cons, DataStream.read16_writeLE, if_neg hfour]

end Header

theorem not_decodes_of_calls {report : ScheduleReport} {s : ScheduleState} (h : s.calls = []) :
    ¬ Decodes report s := by
  have hsome : ∃ group, group ∈ report.days := by
    cases report with
    | workDays _ | holidays _ | groups _ _ _ | daily _ _ _ => exact ⟨_, mem_cons_self⟩
  obtain ⟨group, hgroup⟩ := hsome
  intro hdecodes
  have hpassed := hdecodes.passed group hgroup
  rw [h] at hpassed
  exact absurd hpassed (Option.some_ne_none _).symm

/-! ## Three octets for a transition -/

section Octets

variable {dp : UInt16} (transitions : List TransitionOctets)

theorem readEntry_octets (hdp : isDaily dp = false) (t : TransitionOctets) (rest : List UInt8)
    (pastEnd : Bool) :
    readEntry dp ⟨t.octets ++ rest, pastEnd⟩ = (t.transition, ⟨rest, pastEnd⟩) := by
  unfold readEntry TransitionOctets.octets
  rw [if_neg (by rw [hdp]; exact Bool.false_ne_true)]
  simp only [cons_append, nil_append, DataStream.read8_cons]
  rfl

theorem length_octets :
    (transitions.flatMap TransitionOctets.octets).length = 3 * transitions.length := by
  induction transitions with
  | nil => rfl
  | cons t transitions ih =>
    rw [flatMap_cons, List.length_append, ih, length_cons]
    show 3 + 3 * transitions.length = _
    omega

theorem blockLoop_octets (hdp : isDaily dp = false) (days : UInt8) (rest : List UInt8)
    (pastEnd : Bool) (before : QString) (calls : List (UInt8 × QString))
    (hcalls : ∀ call ∈ calls, call.1 = days)
    (hlast : transitions = [] → calls.getLast?.map Prod.snd = some before) :
    ∃ after, blockLoop dp [days] 1 transitions.length
        ⟨⟨transitions.flatMap TransitionOctets.octets ++ rest, pastEnd⟩, before, calls⟩ =
      ⟨⟨rest, pastEnd⟩, before ++ transitionsText (transitions.map TransitionOctets.transition),
        after⟩ ∧
      (∀ call ∈ after, call.1 = days) ∧
      after.getLast?.map Prod.snd =
        some (before ++ transitionsText (transitions.map TransitionOctets.transition)) := by
  induction transitions generalizing before calls with
  | nil =>
    refine ⟨calls, ?_, hcalls, ?_⟩
    · show _ = ScheduleState.mk _ (before ++ []) _
      rw [append_nil]
      rfl
    · show _ = some (before ++ [])
      rw [append_nil]
      exact hlast rfl
  | cons t transitions ih =>
    have htext : before ++ transitionsText ((t :: transitions).map TransitionOctets.transition) =
        (before ++ t.transition.text) ++
          transitionsText (transitions.map TransitionOctets.transition) := by
      rw [append_assoc]
      rfl
    rw [length_cons, flatMap_cons, append_assoc, blockLoop, readEntry_octets hdp, htext]
    refine ih _ (calls ++ [(days, before ++ t.transition.text)]) ?_ ?_
    · intro call hcall
      rcases mem_append.mp hcall with hcall | hcall
      · exact hcalls call hcall
      · rw [mem_singleton.mp hcall]
    · intro _
      rw [List.getLast?_concat]
      rfl

end Octets

theorem readSchedule_octets {dp : UInt16} {days : UInt8} {transitions : List TransitionOctets}
    (hdp : isDaily dp = false)
    (hlayout : ∀ length, layout dp length =
      { part := 1, listday := [days], valuesToRead := 3, blocklength := length / 3 })
    (hfits : 3 * transitions.length < 256) (hne : transitions ≠ []) :
    ∃ calls, readSchedule dp (3 * transitions.length) (6 + 3 * transitions.length)
        { bytes := transitions.flatMap TransitionOctets.octets } =
      ⟨{ bytes := [] }, transitionsText (transitions.map TransitionOctets.transition), calls⟩ ∧
      (∀ call ∈ calls, call.1 = days) ∧
      calls.getLast?.map Prod.snd =
        some (transitionsText (transitions.map TransitionOctets.transition)) := by
  obtain ⟨calls, hloop, hdays, hlast⟩ := blockLoop_octets transitions hdp days [] false [] []
    (fun _ hcall => absurd hcall not_mem_nil) (fun hnil => absurd hnil hne)
  rw [append_nil, nil_append] at hloop
  refine ⟨calls, ?_, hdays, hlast⟩
  have hblock : 3 * transitions.length / 3 = transitions.length :=
    Nat.mul_div_cancel_left _ (by decide)
  unfold readSchedule
  simp only [hlayout, hblock, Bool.false_eq_true, if_false]
  rw [if_neg (by omega)]
  exact hloop

theorem decodes_of_oneGroup {report : ScheduleReport} {days : UInt8}
    {transitions : List ScheduleTransition} (hreport : report.days = [(days, transitions)])
    {calls : List (UInt8 × QString)} {text : QString} (hdays : ∀ call ∈ calls, call.1 = days)
    (hlast : calls.getLast?.map Prod.snd = some (transitionsText transitions)) :
    Decodes report ⟨{ bytes := [] }, text, calls⟩ where
  passed := by
    intro group hgroup
    rw [hreport] at hgroup
    rw [mem_singleton.mp hgroup]
    unfold lastPassed
    rw [filter_eq_self.mpr fun call hcall => beq_iff_eq.mpr (hdays call hcall)]
    exact hlast
  only := by
    intro call hcall
    rw [hreport]
    exact mem_singleton.mpr (hdays call hcall)
  inside := rfl

theorem readSchedule_groups {n : Nat} (hn : 2 ≤ n) (hfits : 3 * n < 256) (stream : DataStream) :
    (readSchedule 0x0065 (3 * n) (6 + 3 * n) stream).calls = [] := by
  have hblock : 3 * n / 3 = n := Nat.mul_div_cancel_left _ (by decide)
  have hlayout : layout 0x0065 (3 * n) =
      { part := n, listday := [124, 2, 1], valuesToRead := 3, blocklength := n } := by
    unfold layout
    rw [hblock]
    rfl
  have hsize : (6 + 3 * n - 6) % 256 = 3 * n := by omega
  -- `part` and `blocklength` are both the number of all transitions
  have hsquare : 2 * n ≤ n * n := Nat.mul_le_mul_right n hn
  unfold readSchedule
  simp only [hlayout, Bool.false_eq_true, if_false, hsize]
  rw [if_pos (Nat.lt_of_lt_of_le (by omega) (Nat.mul_le_mul_right 3 hsquare))]

section Daily

theorem blockLoop_past {dp : UInt16} (hdp : isDaily dp = true) (listday : List UInt8) (part : Nat)
    {blocklength : Nat} {s : ScheduleState}
    (h : s.stream.readPastEnd = true ∨ s.stream.bytes.length < 4 * blocklength) :
    (blockLoop dp listday part blocklength s).stream.readPastEnd = true := by
  induction blocklength generalizing s with
  | zero =>
    rcases h with h | h
    · exact h
    · exact absurd h (Nat.not_lt_zero _)
  | succ blocklength ih =>
    have hentry : (readEntry dp s.stream).2 = (s.stream.read16.2).read16.2 := by
      unfold readEntry
      rw [if_pos hdp]
    rw [blockLoop]
    refine ih ?_
    show (readEntry dp s.stream).2.readPastEnd = true ∨ (readEntry dp s.stream).2.bytes.length < _
    rw [hentry]
    rcases h with h | h
    · exact .inl (DataStream.readPastEnd_read (DataStream.readPastEnd_read h))
    · rcases DataStream.read_past_or_length 2 s.stream with hpast | hfirst
      · exact .inl (DataStream.readPastEnd_read hpast)
      · rcases DataStream.read_past_or_length 2 (s.stream.read 2).2 with hpast | hsecond
        · exact .inl hpast
        -- both words were there, and four bytes are gone
        · refine .inr ?_
          show ((s.stream.read 2).2.read 2).2.bytes.length < _
          omega

theorem length_daily (transitions : List DailyTransition) :
    (transitions.flatMap DailyTransition.octets).length = 4 * transitions.length := by
  induction transitions with
  | nil => rfl
  | cons t transitions ih =>
    rw [flatMap_cons, List.length_append, ih, length_cons]
    show 4 + 4 * transitions.length = _
    omega

theorem isDaily_day : ∀ day : Fin 7, isDaily (.ofNat (0x007B + day)) = true ∧
    (.ofNat (0x007B + day) : UInt16) ≠ 0x0070 ∧ (.ofNat (0x007B + day) : UInt16) ≠ 0x0071 ∧
      (.ofNat (0x007B + day) : UInt16) ≠ 0x0065 := by
  decide

theorem layout_daily (day : Fin 7) (length : Nat) :
    ∃ listday, layout (.ofNat (0x007B + day)) length =
      { part := 1, listday, valuesToRead := 2, blocklength := (length - 1) / 2,
        hasMode := true } := by
  obtain ⟨hdaily, hwork, hholiday, hgroups⟩ := isDaily_day day
  unfold layout
  rw [if_neg hwork, if_neg hholiday, if_neg hgroups, if_pos hdaily]
  exact ⟨_, rfl⟩

theorem readSchedule_daily (day : Fin 7) (mode : UInt8) {transitions : List DailyTransition}
    (hne : transitions ≠ []) (hfits : 1 + 4 * transitions.length < 256) :
    (readSchedule (.ofNat (0x007B + day)) (1 + 4 * transitions.length)
        (6 + (1 + 4 * transitions.length))
        { bytes := mode :: transitions.flatMap DailyTransition.octets }).stream.readPastEnd =
      true := by
  obtain ⟨listday, hlayout⟩ := layout_daily day (1 + 4 * transitions.length)
  have hpos := length_pos_of_ne_nil hne
  have hblock : (1 + 4 * transitions.length - 1) / 2 = 2 * transitions.length := by omega
  have hsize : (6 + (1 + 4 * transitions.length) - 7) % 256 = 4 * transitions.length := by omega
  unfold readSchedule
  simp only [hlayout, hblock, if_true, hsize, DataStream.read8_cons]
  -- there is one part
  rw [if_neg (by omega), partLoop, partLoop]
  refine blockLoop_past (isDaily_day day).1 _ _ (.inr ?_)
  show (transitions.flatMap DailyTransition.octets).length < _
  rw [length_daily]
  omega

end Daily

/-! ## All reports -/

section Reports

variable (status transid fn : UInt8)

/-- A report for one group of days with three octets for a transition -/
theorem octets_report_iff {report : ScheduleReport} {days : UInt8}
    {transitions : List TransitionOctets} (hfits : report.data.length < 256)
    (hdata : report.data = transitions.flatMap TransitionOctets.octets)
    (hgroup : report.days = [(days, transitions.map TransitionOctets.transition)])
    (hdp : isDaily report.dp = false)
    (hlayout : ∀ length, layout report.dp length =
      { part := 1, listday := [days], valuesToRead := 3, blocklength := length / 3 }) :
    Decodes report (handleTuyaClusterIndication (report.payload status transid fn)) ↔ 2 ≤
      transitions.length := by
  have hlength : report.data.length = 3 * transitions.length := by rw [hdata, length_octets]
  by_cases hshort : report.data.length ≤ 4
  · refine iff_of_false (not_decodes_of_calls (handle_short _ _ _ hfits hshort)) ?_
    omega
  · refine iff_of_true ?_ (by omega)
    have hne : transitions ≠ [] := by
      rintro rfl
      exact hshort (by rw [hlength]; decide)
    obtain ⟨calls, hread, hdays, hlast⟩ :=
      readSchedule_octets hdp hlayout (by rw [← hlength]; exact hfits) hne
    rw [handle_long _ _ _ hfits (Nat.lt_of_not_le hshort), hlength, hdata, hread]
    exact decodes_of_oneGroup hgroup hdays hlast

theorem groups_not_decoded {weekdays saturday sunday : List TransitionOctets}
    (hfits : (ScheduleReport.groups weekdays saturday sunday).data.length < 256) :
    ¬ Decodes (.groups weekdays saturday sunday) (handleTuyaClusterIndication
      ((ScheduleReport.groups weekdays saturday sunday).payload status transid fn)) := by
  have hlength : (ScheduleReport.groups weekdays saturday sunday).data.length =
      3 * (weekdays ++ saturday ++ sunday).length := length_octets _
  by_cases hshort : (ScheduleReport.groups weekdays saturday sunday).data.length ≤ 4
  · exact not_decodes_of_calls (handle_short _ _ _ hfits hshort)
  · rw [handle_long _ _ _ hfits (Nat.lt_of_not_le hshort), hlength]
    exact not_decodes_of_calls (readSchedule_groups (by omega) (by omega) _)

theorem daily_not_decoded {day : Fin 7} {mode : UInt8} {transitions : List DailyTransition}
    (hfits : (ScheduleReport.daily day mode transitions).data.length < 256) :
    ¬ Decodes (.daily day mode transitions) (handleTuyaClusterIndication
      ((ScheduleReport.daily day mode transitions).payload status transid fn)) := by
  have hlength : (ScheduleReport.daily day mode transitions).data.length = 1 +
      4 * transitions.length := by
    rw [← length_daily, Nat.add_comm]
    rfl
  by_cases hshort : (ScheduleReport.daily day mode transitions).data.length ≤ 4
  · exact not_decodes_of_calls (handle_short _ _ _ hfits hshort)
  · have hne : transitions ≠ [] := by
      rintro rfl
      exact hshort (by rw [hlength]; decide)
    intro hdecodes
    have hinside := hdecodes.inside
    rw [handle_long _ _ _ hfits (Nat.lt_of_not_le hshort), hlength] at hinside
    have hpast := readSchedule_daily day mode hne (by omega)
    exact absurd (hpast.symm.trans hinside) (by decide)

end Reports

/-- **Schedule reports**: what is passed on in the end is what a report has for its days, and
nothing is read behind it, exactly if the report is for one group of days, with three octets for a
transition, and has at least two transitions. -/
theorem schedule_report_iff (status transid fn : UInt8) (report : ScheduleReport)
    (h : report.WellFormed) :
    Decodes report (handleTuyaClusterIndication (report.payload status transid fn)) ↔
      OneGroup report := by
  cases report with
  | workDays transitions =>
    exact octets_report_iff status transid fn h.1 rfl rfl rfl fun _ => rfl
  | holidays transitions =>
    exact octets_report_iff status transid fn h.1 rfl rfl rfl fun _ => rfl
  | groups weekdays saturday sunday =>
    exact iff_of_false (groups_not_decoded status transid fn h.1) id
  | daily day mode transitions =>
    exact iff_of_false (daily_not_decoded status transid fn h.1) id

def holidaysReport : ScheduleReport := .holidays [⟨7, 0, 21⟩, ⟨22, 0, 16⟩]

theorem holidaysReport_decoded :
    Decodes holidaysReport (handleTuyaClusterIndication (holidaysReport.payload 0 1 0)) :=
  (schedule_report_iff 0 1 0 holidaysReport ⟨by decide, trivial⟩).mpr (Nat.le_refl 2)

def groupsReport : ScheduleReport :=
  .groups [⟨6, 0, 20⟩, ⟨8, 0, 16⟩, ⟨17, 0, 21⟩, ⟨22, 0, 16⟩]
    [⟨8, 0, 20⟩, ⟨12, 0, 21⟩, ⟨17, 0, 21⟩, ⟨22, 0, 16⟩]
    [⟨8, 0, 20⟩, ⟨12, 0, 21⟩, ⟨17, 0, 21⟩, ⟨22, 0, 16⟩]

/-- None of them is passed on. -/
theorem groupsReport_not_decoded : ¬ ∀ report : ScheduleReport, report.WellFormed →
    Decodes report (handleTuyaClusterIndication (report.payload 0 1 0)) := by
  intro hall
  have hpassed := (hall groupsReport ⟨by decide, rfl, rfl⟩).passed _ mem_cons_self
  exact absurd hpassed (by decide)

end Tuya
end DeconzRest

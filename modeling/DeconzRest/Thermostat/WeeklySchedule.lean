import DeconzRest.Thermostat.ScheduleReads
import DeconzRest.Zcl.TuyaScheduleRequest

/-!
# The payload of a weekly schedule

`addTaskThermostatSetWeeklySchedule` writes transitions, and the handler of a Get Weekly Schedule
Response reads them.  A response has a mode with one bit for heat setpoints and one for cool
setpoints.  With the second one the loop of the handler ends behind its first transition.
-/

namespace DeconzRest
namespace Thermostat

open QString List
open Tasks (TaskItem)

/-- A time of the day, and a heat setpoint that a `qint16` can have -/
structure ScheduleTransition.Valid (t : ScheduleTransition) : Prop where
  hours : t.hours < 24
  minutes : t.minutes < 60
  low : -0x8000 ≤ t.heatSetpoint
  high : t.heatSetpoint < 0x8000

def ScheduleTransition.timeOctets (t : ScheduleTransition) : List UInt8 :=
  writeLE 2 (60 * t.hours + t.minutes)

def ScheduleTransition.heatOctets (t : ScheduleTransition) : List UInt8 :=
  writeLE 2 (t.heatSetpoint % 0x10000).toNat

theorem get_writeLE {size n : Nat} (hn : n < 256 ^ size) (rest : List UInt8) :
    DataStream.get ⟨writeLE size n ++ rest, false⟩ size = (n, ⟨rest, false⟩) := by
  unfold DataStream.get
  simp only [readLE_writeLE_of_lt hn rest]

section

variable {t : ScheduleTransition} (ht : t.Valid)
include ht

theorem transitionOctets_entryBody :
    transitionOctets (Tuya.entryBody t) = some (t.timeOctets ++ t.heatOctets) := by
  obtain ⟨hhours, hminutes⟩ := Tuya.readTime_timeText
    (Nat.lt_trans ht.hours (by decide)) ht.minutes
  have hlow := ht.low
  have hhigh := ht.high
  have hsetpoint : toInt (number t.heatSetpoint) = some t.heatSetpoint :=
    toInt_number_int (by omega) (by omega)
  unfold transitionOctets
  rw [Tuya.parts_entryBody]
  simp only [hhours, hminutes, hsetpoint, Option.getD_some]
  rfl

theorem get_timeOctets (rest : List UInt8) :
    DataStream.get ⟨t.timeOctets ++ rest, false⟩ 2 = (60 * t.hours + t.minutes, ⟨rest, false⟩) := by
  have hhours := ht.hours
  have hminutes := ht.minutes
  exact get_writeLE (by omega) rest

theorem get_heatOctets (rest : List UInt8) : ∃ heatSetpoint,
    DataStream.get ⟨t.heatOctets ++ rest, false⟩ 2 = (heatSetpoint, ⟨rest, false⟩) ∧
      int16 heatSetpoint = t.heatSetpoint := by
  have hlow := ht.low
  have hhigh := ht.high
  refine ⟨(t.heatSetpoint % 0x10000).toNat, get_writeLE (by omega) rest, ?_⟩
  unfold int16
  split <;> omega

end

/-! ## Responses -/

/-- A transition of a response; the cool setpoint is there if the mode has its bit. -/
structure ResponseEntry where
  transition : ScheduleTransition
  coolSetpoint : UInt16

def ResponseEntry.octets (mode : UInt8) (e : ResponseEntry) : List UInt8 :=
  e.transition.timeOctets ++ (e.transition.heatOctets ++ if mode &&& 0x02 ≠
    0 then writeLE 2 e.coolSetpoint.toNat else [])

def responsePayload (dayOfWeek mode : UInt8) (entries : List ResponseEntry) : List UInt8 :=
  UInt8.ofNat entries.length :: dayOfWeek :: mode :: entries.flatMap (ResponseEntry.octets mode)

/-- The transitions that the handler reads in a response: with cool setpoints the first one -/
def readIn (mode : UInt8) (transitions : List ScheduleTransition) : List ScheduleTransition :=
  if mode &&& 0x02 ≠ 0 then transitions.take 1 else transitions

section

variable {mode : UInt8} (hheat : mode &&& 0x01 ≠ 0)
include hheat

theorem readTransitions_cons {e : ResponseEntry} (he : e.transition.Valid) (count : Nat)
    (rest : List UInt8) (transitions : List ScheduleTransition) :
    readTransitions mode (count + 1) ⟨e.octets mode ++ rest, false⟩ transitions = if mode &&& 0x02 ≠
      0 then (transitions ++ [e.transition], ⟨rest, false⟩)
      else readTransitions mode count ⟨rest, false⟩ (transitions ++ [e.transition]) := by
  have hminutes := he.minutes
  have hhour : (60 * e.transition.hours + e.transition.minutes) / 60 = e.transition.hours := by
    omega
  have hminute : (60 * e.transition.hours + e.transition.minutes) % 60 = e.transition.minutes := by
    omega
  unfold ResponseEntry.octets
  rw [readTransitions, append_assoc, append_assoc]
  simp only [get_timeOctets he, if_pos hheat, hhour, hminute]
  by_cases hcool : mode &&& 0x02 ≠ 0
  · obtain ⟨heatSetpoint, hget, hheatSetpoint⟩ :=
      get_heatOctets he (writeLE 2 e.coolSetpoint.toNat ++ rest)
    have hlt : e.coolSetpoint.toNat < 256 ^ 2 := e.coolSetpoint.toNat_lt
    simp only [if_pos hcool, hget, hheatSetpoint, get_writeLE hlt rest]
  · obtain ⟨heatSetpoint, hget, hheatSetpoint⟩ := get_heatOctets he rest
    simp only [if_neg hcool, nil_append, hget, hheatSetpoint]

theorem readTransitions_entries {entries : List ResponseEntry}
    (hentries : ∀ e ∈ entries, e.transition.Valid) (transitions : List ScheduleTransition) :
    ∃ stream, readTransitions mode entries.length
        ⟨entries.flatMap (ResponseEntry.octets mode), false⟩ transitions =
      (transitions ++ readIn mode (entries.map ResponseEntry.transition), stream) ∧ stream.pastEnd =
        false := by
  induction entries generalizing transitions with
  | nil =>
    refine ⟨⟨[], false⟩, ?_, rfl⟩
    unfold readIn
    rw [map_nil, take_nil, ite_self, append_nil]
    rfl
  | cons e entries ih =>
    obtain ⟨he, hentries⟩ := forall_mem_cons.mp hentries
    rw [flatMap_cons, length_cons, readTransitions_cons hheat he]
    unfold readIn at ih ⊢
    by_cases hcool : mode &&& 0x02 ≠ 0
    · rw [if_pos hcool, if_pos hcool]
      exact ⟨_, rfl, rfl⟩
    · obtain ⟨stream, hread, hend⟩ := ih hentries (transitions ++ [e.transition])
      rw [if_neg hcool] at hread
      rw [if_neg hcool, if_neg hcool]
      refine ⟨stream, hread.trans ?_, hend⟩
      rw [append_assoc]
      rfl

theorem weeklyScheduleResponse_payload (dayOfWeek : UInt8) {entries : List ResponseEntry}
    (hentries : ∀ e ∈ entries, e.transition.Valid) (hcount : entries.length < 256) :
    weeklyScheduleResponse (responsePayload dayOfWeek mode entries) =
      some (dayOfWeek, readIn mode (entries.map ResponseEntry.transition)) := by
  have hoctet (c : UInt8) (rest : List UInt8) :
      DataStream.get ⟨c :: rest, false⟩ 1 = (c.toNat, ⟨rest, false⟩) := by
    have hread : readLE 1 (c :: rest) = some (c.toNat, rest) := by
      rw [readLE, readLE]
      rfl
    unfold DataStream.get
    simp only [hread]
  have hlength : (UInt8.ofNat entries.length).toNat = entries.length := by
    rw [UInt8.toNat_ofNat']
    exact Nat.mod_eq_of_lt hcount
  obtain ⟨stream, hread, hend⟩ := readTransitions_entries hheat hentries []
  unfold weeklyScheduleResponse responsePayload
  simp only [hoctet, hlength, UInt8.ofNat_toNat, hread, hend]
  rfl

end

/-! ## The store -/

/-- The task of a weekly schedule, read as a response, is its weekdays and its transitions. -/
def RoundTrips {Addr : Type} (task : TaskItem Addr) (zclSeq weekdays : UInt8)
    (transitions : List ScheduleTransition) : Prop :=
  ∃ sent, addTaskThermostatSetWeeklySchedule task zclSeq weekdays (transitionsText transitions) =
      some sent ∧
    (ScheduleCall.response sent.zclFrame.payload).update.map
        (fun update => (update.1, transitionsText update.2)) =
      some (weekdays, transitionsText transitions)

/-- A response puts these transitions into every store. -/
def StoresAll (payload : List UInt8) (dayOfWeek : UInt8) (transitions : List ScheduleTransition) :
    Prop :=
  ∀ text, scheduleStep (some text) (.response payload) =
    updateThermostatSchedule text (convertWeekdayBitmap dayOfWeek) (transitionsText transitions)

theorem convertWeekdayBitmap_twice_iff (weekdays : UInt8) :
    convertWeekdayBitmap (convertWeekdayBitmap weekdays) = weekdays ↔ weekdays < 128 := by
  have hall : ∀ n < 256, convertWeekdayBitmap (convertWeekdayBitmap (UInt8.ofNat n)) =
      UInt8.ofNat n ↔ UInt8.ofNat n < 128 := by decide +kernel
  have hone := hall weekdays.toNat weekdays.toNat_lt
  rwa [UInt8.ofNat_toNat] at hone

theorem addTask_payload {Addr : Type} (task : TaskItem Addr) (zclSeq weekdays : UInt8)
    {transitions : List ScheduleTransition} (hvalid : ∀ t ∈ transitions, t.Valid) :
    ∃ sent, addTaskThermostatSetWeeklySchedule task zclSeq weekdays (transitionsText transitions) =
        some sent ∧
      sent.zclFrame.payload = responsePayload (convertWeekdayBitmap weekdays) 0x01
        (transitions.map fun t => ⟨t, 0⟩) := by
  have hoctets : (transitions.map Tuya.entryBody).mapM transitionOctets =
      some (transitions.map fun t => t.timeOctets ++ t.heatOctets) := by
    induction transitions with
    | nil => rfl
    | cons t transitions ih =>
      obtain ⟨ht, hvalid⟩ := forall_mem_cons.mp hvalid
      rw [map_cons, mapM_cons, transitionOctets_entryBody ht, ih hvalid]
      rfl
  have hentry (t : ScheduleTransition) :
      ResponseEntry.octets 0x01 ⟨t, 0⟩ = t.timeOctets ++ t.heatOctets := by
    unfold ResponseEntry.octets
    rw [if_neg (by decide), append_nil]
  unfold addTaskThermostatSetWeeklySchedule
  simp only [Tuya.split_transitionsText, hoctets, Option.map_some]
  refine ⟨_, rfl, ?_⟩
  rw [Tasks.TaskItem.build_payload]
  unfold responsePayload
  rw [length_map, length_map, flatMap_map, flatMap_def]
  simp only [hentry]

theorem roundTrips_iff {Addr : Type} (task : TaskItem Addr) (zclSeq weekdays : UInt8)
    {transitions : List ScheduleTransition} (hvalid : ∀ t ∈ transitions, t.Valid)
    (hcount : transitions.length < 256) :
    RoundTrips task zclSeq weekdays transitions ↔ weekdays < 128 := by
  obtain ⟨sent, hsent, hpayload⟩ := addTask_payload task zclSeq weekdays hvalid
  have hentries : ∀ e ∈ transitions.map fun t => ResponseEntry.mk t 0, e.transition.Valid := by
    intro e he
    obtain ⟨t, ht, rfl⟩ := mem_map.mp he
    exact hvalid t ht
  have hread : weeklyScheduleResponse sent.zclFrame.payload =
      some (convertWeekdayBitmap weekdays, transitions) := by
    rw [hpayload, weeklyScheduleResponse_payload (by decide) _ hentries
      (by rwa [length_map]), map_map]
    unfold readIn
    rw [if_neg (by decide)]
    exact congrArg (fun ts => some (convertWeekdayBitmap weekdays, ts)) (map_id transitions)
  unfold RoundTrips ScheduleCall.update
  rw [← convertWeekdayBitmap_twice_iff]
  simp only [hsent, Option.some_inj, exists_eq_left', hread, Option.map_some, Prod.mk.injEq,
    and_true]

theorem update_empty (newWeekdays : UInt8) {t : QString} (hclean : Clean t) (hne : t ≠ []) :
    updateThermostatSchedule [] newWeekdays t = some (storeText [(newWeekdays, t)]) := by
  have hentries : ∀ e ∈ [(newWeekdays, t)], Clean e.2 := by simpa using hclean
  have hmerged : mergeEntries newWeekdays t [] = [(newWeekdays, t)] := if_neg hne
  have hread : readEntries newWeekdays (split [] 'W') [] = some [] := rfl
  unfold updateThermostatSchedule
  rw [hread, Option.map_some, hmerged, trimmed_storeText hentries]

theorem update_empty_inj {newWeekdays : UInt8} {ts ts' : List ScheduleTransition} (hne : ts ≠ [])
    (hne' : ts' ≠ []) (heq : updateThermostatSchedule [] newWeekdays (transitionsText ts) =
      updateThermostatSchedule [] newWeekdays (transitionsText ts')) :
    transitionsText ts = transitionsText ts' := by
  rw [update_empty _ (clean_transitionsText ts) (mt transitionsText_eq_nil_iff.mp hne),
    update_empty _ (clean_transitionsText ts') (mt transitionsText_eq_nil_iff.mp hne'),
    Option.some_inj] at heq
  unfold storeText entryText at heq
  simpa using heq

theorem storesAll_iff {mode : UInt8} (hheat : mode &&& 0x01 ≠ 0) (dayOfWeek : UInt8)
    {entries : List ResponseEntry} (hentries : ∀ e ∈ entries, e.transition.Valid)
    (hcount : entries.length < 256) :
    StoresAll (responsePayload dayOfWeek mode entries) dayOfWeek
        (entries.map ResponseEntry.transition) ↔
      mode &&& 0x02 = 0 ∨ entries.length ≤ 1 := by
  have hstep (text : QString) : scheduleStep (some text)
      (.response (responsePayload dayOfWeek mode entries)) =
        updateThermostatSchedule text (convertWeekdayBitmap dayOfWeek)
          (transitionsText (readIn mode (entries.map ResponseEntry.transition))) := by
    unfold scheduleStep ScheduleCall.update
    simp only [weeklyScheduleResponse_payload hheat dayOfWeek hentries hcount, Option.map_some,
      Option.bind_some]
  unfold StoresAll
  simp only [hstep]
  unfold readIn
  by_cases hcool : mode &&& 0x02 = 0
  · rw [if_neg (not_not_intro hcool)]
    exact iff_of_true (fun _ => rfl) (.inl hcool)
  · rw [if_pos hcool, or_iff_right hcool]
    match entries with
    | [] | [_] => exact iff_of_true (fun _ => rfl) (by simp)
    | e :: e' :: entries =>
      -- the texts of one transition and of more differ in their length
      refine iff_of_false (fun hstores => ?_) (by simp)
      have htext := congrArg List.length
        (update_empty_inj (by simp) (by simp) (hstores []))
      simp [transitionsText, ScheduleTransition.text] at htext

/-- **The codec of weekly schedules.**  What is written is read back, and what is announced is
stored, exactly if the weekdays have no eighth bit and a response with cool setpoints announces no
more than one transition. -/
theorem weeklySchedule_iff {Addr : Type} (task : TaskItem Addr) (zclSeq weekdays : UInt8)
    {transitions : List ScheduleTransition} (hvalid : ∀ t ∈ transitions, t.Valid)
    (hcount : transitions.length < 256) {mode : UInt8} (hheat : mode &&& 0x01 ≠ 0)
    (dayOfWeek : UInt8) {entries : List ResponseEntry}
    (hentries : ∀ e ∈ entries, e.transition.Valid) (hannounced : entries.length < 256) :
    RoundTrips task zclSeq weekdays transitions ∧
        StoresAll (responsePayload dayOfWeek mode entries) dayOfWeek
          (entries.map ResponseEntry.transition) ↔
      weekdays < 128 ∧ (mode &&& 0x02 = 0 ∨ entries.length ≤ 1) :=
  and_congr (roundTrips_iff task zclSeq weekdays hvalid hcount)
    (storesAll_iff hheat dayOfWeek hentries hannounced)

def twoTransitions : List ScheduleTransition := [⟨6, 0, 2000⟩, ⟨22, 0, 1700⟩]

theorem twoTransitions_valid : ∀ t ∈ twoTransitions, t.Valid := by
  intro t ht
  simp only [twoTransitions, mem_cons, not_mem_nil, or_false] at ht
  rcases ht with rfl | rfl <;> exact ⟨by decide, by decide, by decide, by decide⟩

def twoEntries : List ResponseEntry := twoTransitions.map fun t => ⟨t, 2600⟩

theorem twoEntries_valid : ∀ e ∈ twoEntries, e.transition.Valid := by
  intro e he
  obtain ⟨t, ht, rfl⟩ := mem_map.mp he
  exact twoTransitions_valid t ht

/-- Heat setpoints alone -/
theorem heatSetpoints_stored : RoundTrips (ScheduleReads.taskTo 0) 0 0x7C twoTransitions ∧
    StoresAll (responsePayload 0x3E 0x01 twoEntries) 0x3E
      (twoEntries.map ResponseEntry.transition) :=
  (weeklySchedule_iff (ScheduleReads.taskTo 0) 0 0x7C twoTransitions_valid (by decide) (by decide) 0x3E
    twoEntries_valid (by decide)).mpr ⟨by decide, .inl (by decide)⟩

/-- **Behind a cool setpoint the transitions are lost**: the second of two is not stored. -/
theorem second_lost :
    scheduleStep emptySchedule (.response (responsePayload 0x3E 0x03 twoEntries)) =
        updateThermostatSchedule [] (convertWeekdayBitmap 0x3E) (ofLatin1 "T06:00|2000") ∧
      ¬ StoresAll (responsePayload 0x3E 0x03 twoEntries) 0x3E
        (twoEntries.map ResponseEntry.transition) := by
  constructor
  · decide +kernel
  · intro hstores
    have hcool := (storesAll_iff (by decide) 0x3E twoEntries_valid (by decide)).mp hstores
    exact absurd hcool (by decide)

end Thermostat
end DeconzRest

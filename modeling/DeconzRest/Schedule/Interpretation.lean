import DeconzRest.Schedule.Steps
import DeconzRest.Schedule.Stored

/-!
# A time in a new schedule and in one that is there

`jsonToSchedule` and `setScheduleAttributes` have a copy each of what reads the text of a time.  The
copies are compared in the fields that say when a schedule is due (`Timing`).  A new schedule begins
without any of them; a request for a schedule that is there writes over what was set before, and
leaves what its kind of text has no value for.
-/

namespace DeconzRest
namespace Schedules

open QString RuleRequest Option

variable {D : Type} (env : ScheduleEnv D)

structure Timing where
  type : ScheduleType := .invalid
  timeout : Int := 0
  recurring : Nat := 0
  weekBitmap : UInt8 := 0
  datetime : Option Int := none
  endtime : Option Int := none
deriving DecidableEq

def timing (s : Schedule D) : Timing :=
  ⟨s.type, s.timeout, s.recurring, s.weekBitmap, s.datetime, s.endtime⟩

/-- What `jsonToSchedule` reads for a request; `none` when it refuses the body. -/
def createdTiming (schedules : List (Schedule D)) (now : Int) (rand : Nat) (json : QString) :
    Option Timing :=
  match jsonToSchedule env schedules now rand true json {} with
  | .ok s => some (timing s)
  | .error _ => none

/-- What `setScheduleAttributes` makes of a schedule; `none` when the answer is not "200 OK". -/
def updatedTiming (schedules : List (Schedule D)) (now : Int) (rand : Nat) (id content : QString) :
    Option Timing :=
  let updated := setScheduleAttributes env schedules now rand id content
  if updated.2.httpStatus = httpStatusOk then
    (findSchedule schedules id).bind fun i => updated.1[i]?.map timing
  else
    none

/-! ## The bodies -/

/-- A body for a new schedule that is enabled, with a text as its time -/
structure Creates (json : QString) (times : QString × TimeSpec) : Prop where
  parsed : (parseContent env.qt json).2 = true
  command : (readCommand env (parseContent env.qt json).1.toMap).isSome = true
  enabled : readStatus (parseContent env.qt json).1.toMap = ofLatin1 "enabled"
  times : readTimes (parseContent env.qt json).1.toMap = times

def timeKey : TimeSpec → String
  | .utc => "time"
  | .localTime => "localtime"

/-- A body for a schedule that is there, with a text as its time and nothing else -/
structure Moves (content : QString) (times : QString × TimeSpec) : Prop where
  parsed : (parseContent env.qt content).2 = true
  keys : (parseContent env.qt content).1.toMap.map Prod.fst = [ofLatin1 (timeKey times.2)]
  text : QVariant.text? (parseContent env.qt content).1.toMap (timeKey times.2) = some times.1

def timeBody (times : QString × TimeSpec) : List (QString × QVariant D) :=
  [(ofLatin1 (timeKey times.2), .string times.1)]

variable {env} in
variable {times : QString × TimeSpec}

theorem Moves.toMap_eq {content : QString} (hmoves : Moves env content times) :
    (parseContent env.qt content).1.toMap = timeBody times := by
  obtain ⟨-, hkeys, htext⟩ := hmoves
  generalize (parseContent env.qt content).1.toMap = map at hkeys htext
  obtain ⟨⟨key, v⟩, rfl⟩ : ∃ entry, map = [entry] :=
    List.length_eq_one_iff.mp (by simpa using congrArg List.length hkeys)
  obtain rfl : key = ofLatin1 (timeKey times.2) := by simpa using hkeys
  unfold QVariant.text? QVariant.value at htext
  rw [List.lookup_cons, beq_self_eq_true] at htext
  cases v with
  | string text =>
    obtain rfl : text = times.1 := some_inj.mp htext
    rfl
  | _ => exact nomatch htext

theorem lookup_timeBody (times : QString × TimeSpec) (key : String) :
    (timeBody times : List (QString × QVariant D)).lookup (ofLatin1 key) = if ofLatin1 key =
      ofLatin1 (timeKey times.2) then some (.string times.1) else none := by
  unfold timeBody
  rw [List.lookup_cons, List.lookup_nil]
  by_cases hkey : ofLatin1 key = ofLatin1 (timeKey times.2)
  · rw [if_pos hkey, beq_iff_eq.mpr hkey]
  · rw [if_neg hkey, beq_eq_false_iff_ne.mpr hkey]

theorem text?_timeBody (times : QString × TimeSpec) (key : String) :
    QVariant.text? (timeBody times : List (QString × QVariant D)) key = if ofLatin1 key =
      ofLatin1 (timeKey times.2) then some times.1 else none := by
  unfold QVariant.text? QVariant.value
  rw [lookup_timeBody]
  by_cases hkey : ofLatin1 key = ofLatin1 (timeKey times.2)
  · rw [if_pos hkey, if_pos hkey]
    rfl
  · rw [if_neg hkey, if_neg hkey]
    rfl

theorem readTimes_timeBody (times : QString × TimeSpec) :
    readTimes (timeBody times : List (QString × QVariant D)) = times := by
  have hne : ofLatin1 "localtime" ≠ ofLatin1 (timeKey .utc) := by decide
  obtain ⟨text, timeSpec⟩ := times
  unfold readTimes
  rw [text?_timeBody, text?_timeBody]
  cases timeSpec with
  | utc =>
    dsimp only
    rw [if_neg hne]
    exact congrArg (fun time => (Option.getD time [], TimeSpec.utc)) (if_pos rfl)
  | localTime =>
    dsimp only
    rw [if_pos (show ofLatin1 "localtime" = ofLatin1 (timeKey .localTime) from rfl)]

theorem not_contains_timeBody (times : QString × TimeSpec) {key : String}
    (hkey : key ∈ ["name", "description", "status", "activation", "command", "autodelete"]) :
    QVariant.contains (timeBody times : List (QString × QVariant D)) key = false := by
  have hother : ∀ key ∈ ["name", "description", "status", "activation", "command", "autodelete"],
      ofLatin1 key ≠ ofLatin1 (timeKey times.2) := by
    cases times.2 <;> decide
  unfold QVariant.contains
  rw [lookup_timeBody, if_neg (hother key hkey)]
  rfl

theorem setAttributes_timeBody (id : QString) (times : QString × TimeSpec) (s : Schedule D) :
    setAttributes env id (timeBody times) s = (s, { httpStatus := httpStatusNotFound }) := by
  have hset : ∀ a ∈ attributes env, ∀ st, a.set env id (timeBody times) st = st := by
    intro a ha st
    have hkey : a.key ∈ ["name", "description", "status", "activation", "command", "autodelete"] :=
      List.mem_map_of_mem ha
    unfold Attribute.set
    rw [not_contains_timeBody times hkey]
    rfl
  unfold setAttributes
  generalize attributes env = blocks at hset
  induction blocks with
  | nil => rfl
  | cons a blocks ih =>
    rw [List.foldl_cons, hset a List.mem_cons_self]
    exact ih fun b hb => hset b (List.mem_cons_of_mem a hb)

theorem rereadTimes_timeBody (times : QString × TimeSpec) (s : Schedule D) :
    rereadTimes s (timeBody times) = timeBody times := by
  have hne : ofLatin1 "status" ≠ ofLatin1 (timeKey times.2) := by
    cases times.2 <;> decide
  have hnot : ¬ enables (timeBody times : List (QString × QVariant D)) := by
    unfold enables
    rw [text?_timeBody, if_neg hne]
    exact (some_ne_none _).symm
  unfold rereadTimes
  rw [if_neg hnot]

def Timing.timer (clock : SystemClock) (now : Int) (timeSpec : TimeSpec) (timeout : Int)
    (recurring : Nat) (k : Timing) : Timing :=
  { k with
    type := if 0 < timeout then .timer else k.type
    timeout := timeout
    recurring := recurring
    endtime := some (timerEnd clock now timeSpec timeout) }

/-- What a text without its random part makes of the timing of a schedule that is enabled -/
def Timing.set (clock : SystemClock) (now : Int) (timeSpec : TimeSpec) (time : QString)
    (read : TimeText) (randomMax rand : Nat) (k : Timing) : Timing :=
  match read with
  | .repeating times t =>
    k.timer clock now timeSpec ((t.total + randomTime randomMax rand : Nat) : Int) times
  | .timer t => k.timer clock now timeSpec ((t.total + randomTime randomMax rand : Nat) : Int) 1
  | .weekly weekBitmap t =>
    { k with
      type := .recurringTime
      weekBitmap := weekBitmap
      datetime := some (weeklyDatetime clock now timeSpec t (randomOfDay randomMax rand)) }
  | .weeklyRandom | .unmatched => k
  | .absolute =>
    let datetime := absoluteDatetime clock now timeSpec time (randomTime randomMax rand)
    { k with
      type := if datetime.isSome = true then .absoluteTime else k.type
      datetime := datetime
      endtime := datetime.map clock.instant }

section timing

variable {env} {now : Int} {timeSpec : TimeSpec} {time : QString} {randomMax rand : Nat}
  {s s' : Schedule D}

theorem timing_startTimer (henabled : isEnabled s = true) (timeout : Int) (recurring : Nat) :
    timing (startTimer env now timeSpec timeout recurring s) =
      (timing s).timer env.clock now timeSpec timeout recurring := by
  unfold timing startTimer Timing.timer
  rw [if_pos henabled]

theorem timing_startTime (henabled : isEnabled s = true) :
    timing (startTime env now timeSpec time randomMax rand s) =
      (timing s).set env.clock now timeSpec time (readTime env.clock time) randomMax rand := by
  unfold startTime Timing.set
  cases readTime env.clock time with
  | repeating times t => exact timing_startTimer henabled _ times
  | timer t => exact timing_startTimer henabled _ 1
  | weekly | weeklyRandom | unmatched | absolute => rfl

theorem timing_moveTime {map : List (QString × QVariant D)} (henabled : isEnabled s = true)
    (h : moveTime env now timeSpec time randomMax rand map s = .ok s') :
    timing s' = (timing s).set env.clock now timeSpec time (readTime env.clock time).dropSeconds
      randomMax rand := by
  unfold moveTime at h
  unfold Timing.set TimeText.dropSeconds
  cases hread : readTime env.clock time with
  | repeating times t =>
    rw [hread] at h
    rw [← Except.ok.inj h]
    exact timing_startTimer henabled _ times
  | timer t =>
    rw [hread] at h
    rw [← Except.ok.inj h]
    exact timing_startTimer henabled _ 1
  | weekly | weeklyRandom =>
    rw [hread] at h
    cases h
    rfl
  | unmatched =>
    rw [hread] at h
    exact nomatch h
  | absolute =>
    rw [hread] at h
    simp only at h ⊢
    cases hdatetime : absoluteDatetime env.clock now timeSpec time (randomTime randomMax rand) with
    | some w =>
      rw [hdatetime] at h
      rw [← Except.ok.inj h]
      rfl
    | none =>
      rw [hdatetime] at h
      simp only at h
      split at h <;> exact nomatch h

end timing

/-! ## Both copies -/

/-- The timing of a new schedule, or none -/
def Timing.accepted (k : Timing) : Option Timing := if k.type = .invalid then none else some k

variable {env} {schedules : List (Schedule D)} {now : Int} {rand : Nat}

theorem createdTiming_eq {json : QString} (hbody : Creates env json times) :
    createdTiming env schedules now rand json = if times.1 =
      [] then none
      else (cutRandom env.clock times.1).bind fun cut =>
        (({} : Timing).set env.clock now times.2 cut.1 (readTime env.clock cut.1) cut.2
          rand).accepted := by
  obtain ⟨hparsed, hcommand, henabled, htimes⟩ := hbody
  obtain ⟨command, hcommand⟩ := isSome_iff_exists.mp hcommand
  have hcontains := contains_of_readCommand hcommand
  have hmap : (parseContent env.qt json).1.toMap ≠ [] := by
    intro hnil
    rw [hnil] at hcontains
    exact nomatch hcontains
  have hgood : ¬ ((parseContent env.qt json).2 = false ∨ (parseContent env.qt json).1.toMap =
      []) := by
    rw [hparsed]
    exact fun hbad => hmap (hbad.resolve_left Bool.false_ne_true.symm)
  unfold createdTiming jsonToSchedule
  simp only
  rw [if_neg hgood, hcommand, htimes]
  simp only
  by_cases hempty : times.1 = []
  · rw [if_pos hempty, if_pos hempty]
    split <;> rename_i hresult
    · split at hresult <;> exact nomatch hresult
    · rfl
  · have hcontains' := contains_of_readTimes (htimes ▸ hempty)
    rw [if_neg (not_not_intro ⟨hcontains, hcontains'⟩), if_neg hempty, if_neg hempty]
    cases hcut : cutRandom env.clock times.1 with
    | none => rfl
    | some cut =>
      obtain ⟨time, randomMax⟩ := cut
      generalize hfresh :
        readParameters schedules (parseContent env.qt json).1.toMap command {} = fresh
      have hnone : timing fresh = {} := by rw [← hfresh]; rfl
      have hstatus : isEnabled fresh = true := by
        rw [← hfresh]
        exact beq_iff_eq.mpr henabled
      have hset : timing (startTime env now times.2 time randomMax rand fresh) = _ :=
        timing_startTime hstatus
      rw [hnone] at hset
      simp only [bind_some]
      rw [← hset]
      by_cases htype : (startTime env now times.2 time randomMax rand fresh).type = .invalid
      · rw [if_pos htype]
        exact (if_pos htype).symm
      · rw [if_neg htype]
        exact (if_neg htype).symm

variable (now rand) in
theorem setScheduleAttributes_of_moves {id content : QString} {i : Nat} {s : Schedule D}
    (hmoves : Moves env content times) (hfind : findSchedule schedules id = some i)
    (hget : schedules[i]? = some s) :
    setScheduleAttributes env schedules now rand id content =
      (schedules.set i (updateSchedule env id now rand (timeBody times) s).1,
        (updateSchedule env id now rand (timeBody times) s).2) := by
  have hgood : ¬ ((parseContent env.qt content).2 = false ∨ (parseContent env.qt content).1.toMap =
      []) := by
    rw [hmoves.parsed, hmoves.toMap_eq]
    exact fun hbad => hbad.elim Bool.false_ne_true.symm (List.cons_ne_nil _ _)
  unfold setScheduleAttributes
  simp only [hfind, if_neg hgood, hget]
  rw [hmoves.toMap_eq]

theorem updatedTiming_eq {id content : QString} {i : Nat} {s : Schedule D}
    (hmoves : Moves env content times) (hfind : findSchedule schedules id = some i)
    (hget : schedules[i]? = some s) (henabled : isEnabled s = true) :
    updatedTiming env schedules now rand id content = if times.1 =
      [] then none
      else (cutRandom env.clock times.1).bind fun cut =>
        if isTimeText env cut.1 = true then
          some ((timing s).set env.clock now times.2 cut.1 (readTime env.clock cut.1).dropSeconds
            cut.2 rand)
        else none := by
  have hlt : i < schedules.length := (List.getElem?_eq_some_iff.mp hget).1
  unfold updatedTiming
  rw [setScheduleAttributes_of_moves now rand hmoves hfind hget, hfind]
  simp only [bind_some, List.getElem?_set_self hlt, map_some]
  unfold updateSchedule setTimes
  rw [setAttributes_timeBody, rereadTimes_timeBody, readTimes_timeBody]
  by_cases hempty : times.1 = []
  · simp only [if_pos hempty]
    rfl
  · simp only [if_neg hempty]
    cases hcut : cutRandom env.clock times.1 with
    | none => rfl
    | some cut =>
      obtain ⟨time, randomMax⟩ := cut
      simp only [bind_some]
      have htext := moveTime_isTimeText env now times.2 time randomMax rand (timeBody times)
        { s with lastTriggerDatetime := none }
      cases hmove : moveTime env now times.2 time randomMax rand (timeBody times)
          { s with lastTriggerDatetime := none } with
      | error description =>
        rw [hmove] at htext
        rw [show isTimeText env time = false from htext]
        rfl
      | ok s' =>
        rw [hmove] at htext
        have henabled' : isEnabled { s with lastTriggerDatetime := none } = true := henabled
        have htiming : timing s' = _ := timing_moveTime henabled' hmove
        rw [show isTimeText env time = true from htext]
        obtain ⟨text, localtext, jsonMap, hstored⟩ := storeTexts_fst env id (timeBody times) s'
          { httpStatus := httpStatusNotFound }
        refine Eq.trans (if_pos rfl) (congrArg some ?_)
        simp only [if_true, hstored]
        exact htiming

/-! ## Where they agree -/

/-- A text without its random part that both copies read alike.  A timer of no seconds is refused
for a new schedule only, and so is the text of a weekly time with another `A` in it; the seconds of
a `PT` text count for a new schedule only. -/
def TimeText.ReadAlike (clock : SystemClock) (time : QString) (randomMax : Nat) (k : Timing) :
    TimeText → Prop
  | .unmatched => True
  | .weeklyRandom => False
  | .repeating _ t => 0 < t.total + randomMax ∧ k.weekBitmap = 0 ∧ k.datetime = none
  | .timer t => t.seconds = 0 ∧ 0 < t.total + randomMax ∧ k.weekBitmap = 0 ∧ k.datetime = none
  | .weekly _ _ => k.timeout = 0 ∧ k.recurring = 0 ∧ k.endtime = none
  | .absolute => clock.fromIso time = none ∨ (k.timeout = 0 ∧ k.recurring = 0 ∧ k.weekBitmap = 0)

/-- A text that both copies read alike, for a schedule with a timing -/
def ReadAlike (clock : SystemClock) (text : QString) (k : Timing) : Prop :=
  text = [] ∨ ∀ cut, cutRandom clock text = some cut →
    (readTime clock cut.1).ReadAlike clock cut.1 cut.2 k

/-- A timer in a new schedule, and one of perhaps fewer seconds in a schedule that is there -/
theorem timer_alike_iff {clock : SystemClock} {now : Int} {timeSpec : TimeSpec}
    {total total' random recurring : Nat} (hle : total' ≤ total) (k : Timing) :
    (({} : Timing).timer clock now timeSpec ((total + random : Nat) : Int) recurring).accepted =
        some (k.timer clock now timeSpec ((total' + random : Nat) : Int) recurring) ↔
      total' = total ∧ 0 < total + random ∧ k.weekBitmap = 0 ∧ k.datetime = none := by
  unfold Timing.accepted Timing.timer
  by_cases hpos : 0 < total + random
  · have htimer : (0 : Int) < ((total + random : Nat) : Int) := by omega
    have htype : ScheduleType.timer ≠ .invalid := by decide
    rw [if_pos htimer, if_neg htype, some_inj, Timing.mk.injEq]
    constructor
    · rintro ⟨-, htotal, -, hweek, hdatetime, -⟩
      exact ⟨by omega, hpos, hweek.symm, hdatetime.symm⟩
    · rintro ⟨rfl, -, hweek, hdatetime⟩
      exact ⟨(if_pos htimer).symm, rfl, rfl, hweek.symm, hdatetime.symm, rfl⟩
  · have htimer : ¬ (0 : Int) < ((total + random : Nat) : Int) := by omega
    rw [if_neg htimer, if_pos rfl]
    exact iff_of_false (some_ne_none _).symm fun h => hpos h.2.1

theorem set_alike_iff {timeSpec : TimeSpec} {time : QString} {randomMax : Nat} (k : Timing) :
    (({} : Timing).set env.clock now timeSpec time (readTime env.clock time) randomMax
        rand).accepted =
      (if isTimeText env time = true then
        some (k.set env.clock now timeSpec time (readTime env.clock time).dropSeconds randomMax
          rand)
        else none) ↔ (readTime env.clock time).ReadAlike env.clock time randomMax k := by
  have hseconds (total : Nat) : 0 < total + randomTime randomMax rand ↔ 0 < total + randomMax := by
    have hrandom := randomTime_pos_iff randomMax rand
    omega
  unfold isTimeText
  cases hread : readTime env.clock time with
  | repeating times t =>
    refine (timer_alike_iff le_rfl k).trans ?_
    rw [hseconds, eq_self_iff_true, true_and]
    rfl
  | timer t =>
    have hsplit : t.total = ({ t with seconds := 0 } : Hms).total + t.seconds := rfl
    have hle : ({ t with seconds := 0 } : Hms).total ≤ t.total := by omega
    have htotal : ({ t with seconds := 0 } : Hms).total = t.total ↔ t.seconds = 0 := by omega
    refine (timer_alike_iff hle k).trans ?_
    rw [hseconds, htotal]
    rfl
  | weekly weekBitmap t =>
    refine (some_inj.trans (Timing.mk.injEq ..).to_iff).trans ?_
    constructor
    · rintro ⟨-, htimeout, hrecurring, -, -, hend⟩
      exact ⟨htimeout.symm, hrecurring.symm, hend.symm⟩
    · rintro ⟨htimeout, hrecurring, hend⟩
      exact ⟨rfl, htimeout.symm, hrecurring.symm, rfl, rfl, hend.symm⟩
  | weeklyRandom =>
    refine iff_of_false ?_ id
    exact (some_ne_none _).symm
  | unmatched => exact iff_of_true rfl trivial
  | absolute =>
    unfold Timing.set TimeText.dropSeconds TimeText.ReadAlike absoluteDatetime
    simp only
    cases env.clock.fromIso time with
    | none => exact iff_of_true rfl (.inl rfl)
    | some w =>
      refine (some_inj.trans (Timing.mk.injEq ..).to_iff).trans ?_
      rw [or_iff_right (some_ne_none w)]
      constructor
      · rintro ⟨-, htimeout, hrecurring, hweek, -, -⟩
        exact ⟨htimeout.symm, hrecurring.symm, hweek.symm⟩
      · rintro ⟨htimeout, hrecurring, hweek⟩
        exact ⟨rfl, htimeout.symm, hrecurring.symm, hweek.symm, rfl, rfl⟩

/-- **The copies of a text of a time.**  A new schedule and one that is there, both enabled, take
the same from it, or refuse it both, exactly if it is read alike. -/
theorem interpretedAlike_iff {schedules' : List (Schedule D)} {json id content : QString} {i : Nat}
    {s : Schedule D} {times : QString × TimeSpec} (hcreates : Creates env json times)
    (hmoves : Moves env content times) (hfind : findSchedule schedules' id = some i)
    (hget : schedules'[i]? = some s) (henabled : isEnabled s = true) :
    createdTiming env schedules now rand json = updatedTiming env schedules' now rand id content ↔
      ReadAlike env.clock times.1 (timing s) := by
  rw [createdTiming_eq hcreates, updatedTiming_eq hmoves hfind hget henabled]
  unfold ReadAlike
  by_cases hempty : times.1 = []
  · rw [if_pos hempty, if_pos hempty]
    exact iff_of_true rfl (.inl hempty)
  · rw [if_neg hempty, if_neg hempty, or_iff_right hempty]
    cases cutRandom env.clock times.1 with
    | none => exact iff_of_true rfl fun _ h => nomatch h
    | some cut =>
      simp only [bind_some, some_inj, forall_eq']
      exact set_alike_iff (timing s)

def newTimer (time : String) : QString :=
  ["\x7b\"command\":", "\x7b\"address\":\"/api/k/lights/1/state\",", "\"body\":\x7b\x7d,",
    "\"method\":\"PUT\"\x7d,", "\"time\":\"", time, "\"\x7d"].flatMap ofLatin1

def otherTime (time : String) : QString :=
  ["\x7b\"time\":\"", time, "\"\x7d"].flatMap ofLatin1

def oneTimer : List (Schedule Int) := (createSchedule greenwich [] 0 0 (newTimer "PT00:00:10")).1

/-- A repeating timer is read alike. -/
theorem repeating_interpretedAlike :
    createdTiming greenwich [] 0 0 (newTimer "R02/PT00:00:10") =
      updatedTiming greenwich oneTimer 0 0 (ofLatin1 "1") (otherTime "R02/PT00:00:10") := by
  have hfields : oneTimer[0]?.map (fun s => (isEnabled s, s.weekBitmap, s.datetime)) =
      some (true, 0, none) := by decide +kernel
  obtain ⟨s, hget, hfields⟩ := map_eq_some_iff.mp hfields
  simp only [Prod.mk.injEq] at hfields
  obtain ⟨henabled, hweek, hdatetime⟩ := hfields
  have hcreates : Creates greenwich (newTimer "R02/PT00:00:10")
      (ofLatin1 "R02/PT00:00:10", .utc) :=
    ⟨by decide +kernel, by decide +kernel, by decide +kernel, by decide +kernel⟩
  have hmoves : Moves greenwich (otherTime "R02/PT00:00:10")
      (ofLatin1 "R02/PT00:00:10", .utc) :=
    ⟨by decide +kernel, by decide +kernel, by decide +kernel⟩
  have hcut : cutRandom greenwich.clock (ofLatin1 "R02/PT00:00:10") =
      some (ofLatin1 "R02/PT00:00:10", 0) := by decide +kernel
  have hread : readTime greenwich.clock (ofLatin1 "R02/PT00:00:10") =
      .repeating 2 ⟨0, 0, 10⟩ := by decide +kernel
  refine (interpretedAlike_iff hcreates hmoves (by decide +kernel) hget henabled).mpr (.inr ?_)
  intro cut hcut'
  obtain rfl := some_inj.mp (hcut.symm.trans hcut')
  simp only [hread]
  exact ⟨by decide, hweek, hdatetime⟩

/-- **The seconds of `PT00:00:10` are lost** where the timer is there already. -/
theorem seconds_lost :
    oneTimer.map isEnabled = [true] ∧
      createdTiming greenwich [] 0 0 (newTimer "PT00:00:10") =
        some ⟨.timer, 10, 1, 0, none, some 10000⟩ ∧
      updatedTiming greenwich oneTimer 0 0 (ofLatin1 "1") (otherTime "PT00:00:10") =
        some ⟨.timer, 0, 1, 0, none, some 0⟩ := by
  decide +kernel

end Schedules
end DeconzRest

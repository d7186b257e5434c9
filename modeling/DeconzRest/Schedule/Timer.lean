import DeconzRest.Lib.FirstServed
import DeconzRest.Schedule.Requests

/-!
# `scheduleTimerFired`

Once a second the schedules are visited in their order, up to the first one that is
triggered.  A timer is rearmed, counted down or put to its end when its time has come, in
front of the check that it is not five seconds late; so it can lose a turn without being
triggered.

The command of a schedule goes to the handlers of lights, groups and sensors, which do not
touch the schedules: what leaves this module is the request that they get.
-/

namespace DeconzRest
namespace Schedules

open QString RuleRequest FirstServed QDateTime

variable {D : Type} (env : ScheduleEnv D)

structure Command where
  method : QString
  address : QString
  content : QString
deriving DecidableEq, Repr

/-- `0MTWTFSS`: the bit of a day, where Monday is 1. -/
def dayBit (day : Nat) : UInt8 := UInt8.ofNat (1 <<< (7 - day))

def isToday (now : Int) (s : Schedule D) : Prop :=
  s.weekBitmap &&& dayBit (dayOfWeek env.clock.zone now) ≠ 0

instance (now : Int) (s : Schedule D) : Decidable (isToday env now s) :=
  inferInstanceAs (Decidable (_ ≠ _))

/-- The clock time of `datetime`; -1 as for a null `QTime`. -/
def clockTime (s : Schedule D) : Int := s.datetime.elim QTime.null timeOfDay

def hasFired (now : Int) (s : Schedule D) : Prop :=
  s.lastTriggerDatetime.map date = some (date (env.clock.wall now)) ∧ clockTime s ≤
    timeOfDay (env.clock.wall now)

instance (now : Int) (s : Schedule D) : Decidable (hasFired env now s) :=
  inferInstanceAs (Decidable (_ ∧ _))

/-- `now.time().secsTo(i->datetime.time())` -/
def weeklyDiff (now : Int) (s : Schedule D) : Int :=
  match s.datetime with
  | some w => QTime.secsTo (timeOfDay (env.clock.wall now)) (timeOfDay w)
  | none => 0

/-- `now.secsTo(i->datetime)`, when the schedule has an end -/
def absoluteDiff (now : Int) (s : Schedule D) : Int :=
  match s.endtime, s.datetime with
  | some _, some w => secsTo now (env.clock.instant w)
  | _, _ => 0

/-- `now.secsTo(i->endtime)`, when the schedule has an end -/
def timerDiff (now : Int) (s : Schedule D) : Int :=
  match s.endtime with
  | some e => secsTo now e
  | none => 0

/-! ## What happens to a schedule -/

def disable (s : Schedule D) : Schedule D :=
  let map := QVariant.insert s.jsonMap "status" (.string (ofLatin1 "disabled"))
  { s with status := ofLatin1 "disabled", jsonMap := map, jsonString := jsonText env map }

/-- What a timer loses when its time has come: it is rearmed unless this is its last turn,
and its turns are counted. -/
def takeTurn (now : Int) (s : Schedule D) : Schedule D :=
  if s.recurring = 1 then
    if s.autodelete = true then { s with state := .deleted } else disable env s
  else
    { s with
      endtime := s.endtime.map fun _ => addSecs now s.timeout
      recurring := s.recurring - 1 }

/-- An absolute time or a timer that is too late -/
def giveUp (s : Schedule D) : Schedule D :=
  let s := disable env s
  if s.autodelete = true then { s with state := .deleted } else s

/-- The clock time is randomized again; `datetime` is the present time when the text is no
weekly time. -/
def randomizeAgain (now : Int) (rand : Nat) (s : Schedule D) : Schedule D :=
  if (s.type = .recurringTime ∨ s.type = .timer) ∧ (unit 'A' ∈ s.time ∨ unit 'A' ∈ s.localtime) then
    let (time, timeSpec) :=
      if unit 'A' ∈ s.localtime then (s.localtime, TimeSpec.localTime) else (s.time, TimeSpec.utc)
    let randomMax := (matchHms env.clock (splitRandom time).2).elim 0 Hms.total
    let present :=
      match timeSpec with
      | .utc => now
      | .localTime => env.clock.wall now
    { s with
      datetime :=
        match matchWeekly env.clock (splitRandom time).1 with
        | some (_, t) => some (weeklyDatetime env.clock now timeSpec t (randomOfDay randomMax rand))
        | none => some present }
  else
    s

/-- An absolute time is used up when it is triggered. -/
def useUp (s : Schedule D) : Schedule D :=
  if s.type = .absoluteTime then
    if s.autodelete = true then { s with state := .deleted } else disable env s
  else
    s

/-- The command of a triggered schedule; one without method or address removes the schedule. -/
def runCommand (s : Schedule D) : Schedule D × Option Command :=
  let cmd := (QVariant.value s.jsonMap "command").toMap
  if isCommand cmd = false then
    (s, none)
  else
    let method := (QVariant.value cmd "method").toString env.qt
    let address := (QVariant.value cmd "address").toString env.qt
    let content := jsonText env (QVariant.value cmd "body").toMap
    if method = [] ∨ address = [] ∨ content = [] then
      ({ s with state := .deleted }, none)
    else
      (s, some ⟨method, address, content⟩)

/-- The branch of a schedule that is triggered -/
def trigger (now : Int) (rand : Nat) (s : Schedule D) : Schedule D × Option Command :=
  runCommand env (randomizeAgain env now rand
    (useUp env { s with lastTriggerDatetime := some (env.clock.wall now) }))

/-- What follows from `diff` -/
def settle (now : Int) (rand : Nat) (diff : Int) (s : Schedule D) :
    Visit (Schedule D) (Option Command) :=
  if diff ≤ -5 then
    if s.type = .recurringTime then .pass s else .pass (giveUp env s)
  else if diff ≤ 0 then
    .serve (trigger env now rand s).1 (trigger env now rand s).2
  else
    .pass s

/-- One turn of the loop of `scheduleTimerFired` -/
def visit (now : Int) (rand : Nat) (s : Schedule D) : Visit (Schedule D) (Option Command) :=
  if isActive s then
    match s.type with
    | .absoluteTime => settle env now rand (absoluteDiff env now s) s
    | .timer =>
      if ∃ e, s.endtime = some e ∧ now < e then
        .pass s
      else
        settle env now rand (timerDiff now s) (takeTurn env now s)
    | .recurringTime =>
      if isToday env now s ∧ ¬ hasFired env now s ∧ weeklyDiff env now s ≤ 0 then
        settle env now rand (weeklyDiff env now s) s
      else
        .pass s
    | .invalid => .pass { s with state := .deleted }
  else
    .pass s

/-- `DeRestPluginPrivate::scheduleTimerFired`: the schedules, and which of them was triggered
with what command -/
def scheduleTimerFired (schedules : List (Schedule D)) (now : Int) (rand : Nat) :
    List (Schedule D) × Option (Nat × Option Command) :=
  serveFirst (visit env now rand) schedules

/-- The schedules and the time of the last tick -/
structure ScheduleSystem (D : Type) where
  lastTick : Int
  schedules : List (Schedule D)

/-- What happens to the schedules.  A request comes some milliseconds behind the last tick,
and a number of `U_rand32` is drawn where one is needed. -/
inductive Action where
  | tick (rand : Nat)
  | create (ms : Fin 1000) (rand : Nat) (content : QString)
  | update (ms : Fin 1000) (rand : Nat) (id content : QString)
  | delete (id : QString)

instance neZero_thousand : NeZero 1000 :=
  ⟨by decide⟩

/-- The time of a tick: `SCHEDULE_CHECK_PERIOD` behind the one before it -/
def ScheduleSystem.nextTick (sys : ScheduleSystem D) : Int := sys.lastTick + 1000

def ScheduleSystem.at (sys : ScheduleSystem D) (ms : Fin 1000) : Int :=
  sys.lastTick + ((ms : Nat) : Int)

def step (sys : ScheduleSystem D) (act : Action) : ScheduleSystem D :=
  match act with
  | .tick rand =>
    ⟨sys.nextTick, (scheduleTimerFired env sys.schedules sys.nextTick rand).1⟩
  | .create ms rand content =>
    { sys with schedules := (createSchedule env sys.schedules (sys.at ms) rand content).1 }
  | .update ms rand id content =>
    { sys with
      schedules := (setScheduleAttributes env sys.schedules (sys.at ms) rand id content).1 }
  | .delete id => { sys with schedules := (deleteSchedule env sys.schedules id).1 }

def triggered (sys : ScheduleSystem D) (act : Action) : Option (Nat × Option Command) :=
  match act with
  | .tick rand => (scheduleTimerFired env sys.schedules sys.nextTick rand).2
  | _ => none

end Schedules
end DeconzRest

import DeconzRest.Json.Value
import DeconzRest.Rule.Requests
import DeconzRest.Schedule.Time

/-!
# Schedules and `jsonToSchedule`

`jsonToSchedule` makes a schedule of the text of a request, or of the text in the database
when the gateway starts.  What it takes from the map are functions of the map (`readName`,
`readStatus`, `readTimes`); the errors of a request all have status 400.

`starttime` and `etag` are only shown by the requests that read schedules, and
`currentTimeout` by nothing; they are left out.  The entry `etag` of the map is there.
-/

namespace DeconzRest

/-- `Schedule::Type` -/
inductive ScheduleType where
  | invalid
  | absoluteTime
  | recurringTime
  | timer
deriving DecidableEq, Repr

/-- `Schedule::State` -/
inductive ScheduleState where
  | normal
  | deleted
deriving DecidableEq, Repr

/-- `Schedule`.  `datetime` and `lastTriggerDatetime` are local dates and times, `endtime` is
a point in time. -/
structure Schedule (D : Type) where
  type : ScheduleType := .invalid
  state : ScheduleState := .normal
  id : QString := []
  name : QString := []
  description : QString := []
  command : QString := []
  time : QString := []
  localtime : QString := []
  status : QString := QString.ofLatin1 "enabled"
  activation : QString := QString.ofLatin1 "start"
  autodelete : Bool := true
  datetime : Option Int := none
  lastTriggerDatetime : Option Int := none
  jsonString : QString := []
  jsonMap : List (QString × QVariant D) := []
  weekBitmap : UInt8 := 0
  recurring : Nat := 0
  endtime : Option Int := none
  timeout : Int := 0

/-- What the schedules use of Qt and of the system -/
structure ScheduleEnv (D : Type) where
  qt : Qt D
  clock : SystemClock

namespace QVariant

variable {D : Type}

/-- `map[key] = value` -/
def insert (map : List (QString × QVariant D)) (key : String) (value : QVariant D) :
    List (QString × QVariant D) := Json.insert (QString.ofLatin1 key) value map

theorem insert_insert (map : List (QString × QVariant D)) (key : String) (v w : QVariant D) :
    insert (insert map key w) key v = insert map key v := Json.insert_insert _ v w map

theorem value_insert (map : List (QString × QVariant D)) (key other : String)
    (v : QVariant D) : value (insert map key v) other = if QString.ofLatin1 other =
      QString.ofLatin1 key then v else value map other := by
  unfold value insert
  rw [Json.lookup_insert]
  split <;> rfl

def text? (map : List (QString × QVariant D)) (key : String) : Option QString :=
  match value map key with
  | .string s => some s
  | _ => none

end QVariant

namespace Schedules

open QString RuleRequest

variable {D : Type} (env : ScheduleEnv D)

def jsonText (map : List (QString × QVariant D)) : QString :=
  QString.fromUtf8 (Json.serialize env.qt (.map map))

/-- `Schedule::status` is "enabled". -/
def isEnabled (s : Schedule D) : Bool := s.status == ofLatin1 "enabled"

/-- What the loop of the timer looks at -/
def isActive (s : Schedule D) : Prop := s.state = .normal ∧ isEnabled s = true

instance (s : Schedule D) : Decidable (isActive s) := inferInstanceAs (Decidable (_ ∧ _))

/-- An error under `/schedules` -/
def scheduleError (id : Int) (description : QString) : QVariant D :=
  errorToMap env.qt id (ofLatin1 "/schedules") description

/-- `invalid value, %1, for ` and what the value is for -/
def invalidValue (value : QVariant D) (what : String) : QString :=
  QString.arg (ofLatin1 ("invalid value, %1, for " ++ what)) (value.toString env.qt)

/-- The name, with a number behind it when another schedule has it -/
def readName (schedules : List (Schedule D)) (map : List (QString × QVariant D)) : QString :=
  match (QVariant.text? map "name").filter fun name => decide (name.length ≤ 32) with
  | some name =>
    if schedules.any fun s => s.name == name then
      name ++ QString.arg (ofLatin1 " %1") (QString.number ((schedules.length + 1 : Nat) : Int))
    else
      name
  | none => []

def readDescription (map : List (QString × QVariant D)) : QString :=
  ((QVariant.text? map "description").filter fun text => decide (text.length ≤ 64)).getD []

/-- A command has an address, a method and a body. -/
def isCommand (cmd : List (QString × QVariant D)) : Bool :=
  !cmd.isEmpty && QVariant.contains cmd "address" && QVariant.contains cmd "method" &&
    QVariant.contains cmd "body"

def readCommand (map : List (QString × QVariant D)) : Option QString :=
  match QVariant.value map "command" with
  | .map cmd => if isCommand cmd = true then some (jsonText env cmd) else none
  | _ => none

/-- One of two texts, or what is there without it -/
def readChoice (map : List (QString × QVariant D)) (key : String) (first second : String) :
    QString :=
  ((QVariant.text? map key).filter fun text =>
    text == ofLatin1 first || text == ofLatin1 second).getD (ofLatin1 first)

def readStatus (map : List (QString × QVariant D)) : QString :=
  readChoice map "status" "enabled" "disabled"

def readActivation (map : List (QString × QVariant D)) : QString :=
  readChoice map "activation" "start" "end"

def readAutodelete (map : List (QString × QVariant D)) : Bool :=
  match QVariant.value map "autodelete" with
  | .bool b => b
  | _ => true

/-- The text that counts and what time it is: `localtime` overwrites `time`. -/
def readTimes (map : List (QString × QVariant D)) : QString × TimeSpec :=
  match QVariant.text? map "localtime" with
  | some localtime => (localtime, .localTime)
  | none => ((QVariant.text? map "time").getD [], .utc)

/-- A timer that starts now; a timer of no seconds leaves the type as it is. -/
def startTimer (now : Int) (timeSpec : TimeSpec) (timeout : Int) (recurring : Nat)
    (s : Schedule D) : Schedule D :=
  { s with
    timeout := timeout
    recurring := recurring
    endtime :=
      if isEnabled s = true then some (timerEnd env.clock now timeSpec timeout) else s.endtime
    type := if 0 < timeout then .timer else s.type }

def setWeekly (now : Int) (timeSpec : TimeSpec) (weekBitmap : UInt8) (t : Hms) (random : Nat)
    (s : Schedule D) : Schedule D :=
  { s with
    type := .recurringTime
    weekBitmap := weekBitmap
    datetime := some (weeklyDatetime env.clock now timeSpec t random) }

/-- The absolute time of `jsonToSchedule`: an invalid one leaves no type. -/
def startAbsolute (datetime : Option Int) (s : Schedule D) : Schedule D :=
  { s with
    datetime := datetime
    time :=
      if s.time = [] then datetime.elim [] fun w => env.clock.toText (env.clock.instant w)
      else s.time
    localtime := if s.localtime = [] then datetime.elim [] env.clock.toText else s.localtime
    endtime := datetime.map env.clock.instant
    type := if datetime.isSome = true then .absoluteTime else s.type }

/-- The time of `jsonToSchedule`, without its random part -/
def startTime (now : Int) (timeSpec : TimeSpec) (time : QString) (randomMax rand : Nat)
    (s : Schedule D) : Schedule D :=
  let random := randomTime randomMax rand
  match readTime env.clock time with
  | .repeating times t => startTimer env now timeSpec ((t.total + random : Nat) : Int) times s
  | .timer t => startTimer env now timeSpec ((t.total + random : Nat) : Int) 1 s
  | .weekly weekBitmap t =>
    setWeekly env now timeSpec weekBitmap t (randomOfDay randomMax rand) s
  | .weeklyRandom | .unmatched => s
  | .absolute => startAbsolute env (absoluteDatetime env.clock now timeSpec time random) s

/-- Everything that `jsonToSchedule` reads in front of the time -/
def readParameters (schedules : List (Schedule D)) (map : List (QString × QVariant D))
    (command : QString) (schedule : Schedule D) : Schedule D :=
  { schedule with
    name := readName schedules map
    description := readDescription map
    command := command
    status := readStatus map
    activation := readActivation map
    autodelete := readAutodelete map
    time := (QVariant.text? map "time").getD []
    localtime := (QVariant.text? map "localtime").getD [] }

/-- The map that `jsonToSchedule` keeps -/
def keptMap (now : Int) (created : Bool) (map : List (QString × QVariant D)) :
    List (QString × QVariant D) :=
  let map := QVariant.insert map "etag" (.string (env.clock.etag now))
  if created = true then QVariant.insert map "created" (.string (env.clock.toText now)) else map

/-- `DeRestPluginPrivate::jsonToSchedule`, into a schedule that has an id at most; `created`
when it is for a request.  The error is the entry of the answer, which only a request gets. -/
def jsonToSchedule (schedules : List (Schedule D)) (now : Int) (rand : Nat) (created : Bool)
    (json : QString) (schedule : Schedule D) : Except (QVariant D) (Schedule D) :=
  let parsed := parseContent env.qt json
  let map := parsed.1.toMap
  if parsed.2 = false ∨ map = [] then
    .error (scheduleError env errInvalidJson (ofLatin1 "body contains invalid JSON"))
  else if ¬ (QVariant.contains map "command" = true ∧
      (QVariant.contains map "time" = true ∨ QVariant.contains map "localtime" = true)) then
    .error (scheduleError env errMissingParameter (ofLatin1 "missing parameters in body"))
  else
    match readCommand env map with
    | none =>
      .error (scheduleError env errInvalidValue
        (invalidValue env (QVariant.value map "command") "parameter command"))
    | some command =>
      let times := readTimes map
      if times.1 = [] then
        .error (scheduleError env errMissingParameter
          (ofLatin1 "missing parameter time or localtime"))
      else
        match cutRandom env.clock times.1 with
        | none =>
          .error (scheduleError env errInvalidValue
            (invalidValue env (QVariant.value map "time") "random part of parameter time"))
        | some (time, randomMax) =>
          let s := startTime env now times.2 time randomMax rand
            (readParameters schedules map command schedule)
          if s.type = .invalid then
            .error (scheduleError env errInvalidValue
              (invalidValue env (QVariant.value map "time") "parameter time"))
          else
            let map := keptMap env now created map
            .ok { s with jsonString := jsonText env map, jsonMap := map }

/-- `sqliteLoadAllSchedulesCallback`, for a row of id and text: one whose id is there already
is passed over, and so is a text that `jsonToSchedule` refuses. -/
def loadSchedule (now : Int) (schedules : List (Schedule D)) (row : QString × QString × Nat) :
    List (Schedule D) :=
  if (schedules.any fun s => s.id == row.1) = true then
    schedules
  else
    match jsonToSchedule env schedules now row.2.2 false row.2.1 { id := row.1 } with
    | .ok s => schedules ++ [s]
    | .error _ => schedules

end Schedules
end DeconzRest

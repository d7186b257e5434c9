import DeconzRest.Schedule.Schedule

/-!
# `createSchedule`, `setScheduleAttributes` and `deleteSchedule`

`setScheduleAttributes` writes each parameter of the body that passes its check to the
schedule and to its map (`Attribute`), and the time last.  A time that is refused ends the
request there: what was written before stays, and the text of the schedule is not made anew.

A schedule is never taken out of the list; a deleted one is marked.  Logging and the timer
that saves the database are left out.
-/

namespace DeconzRest
namespace Schedules

open QVariant (value contains)
open QString RuleRequest

variable {D : Type} (env : ScheduleEnv D)

def badRequest (error : QVariant D) : ApiResponse D :=
  ({} : ApiResponse D).answer error httpStatusBadRequest

def notAvailable (id : QString) : ApiResponse D :=
  ({} : ApiResponse D).answer
    (errorToMap env.qt errResourceNotAvailable (QString.arg (ofLatin1 "/schedules/%1") id)
      (QString.arg (ofLatin1 "resource, /schedules/%1, not available") id)) httpStatusNotFound

def searchId (found : Nat × Nat) (s : Schedule D) : Nat × Nat :=
  let id2 := (QString.toUInt s.id).getD 0
  let idmax := if found.2 < id2 then id2 else found.2
  if found.1 = id2 then ((idmax + 1) % 2 ^ 32, (idmax + 1) % 2 ^ 32) else (found.1, idmax)

def newId (schedules : List (Schedule D)) : QString :=
  QString.number ((schedules.foldl searchId (1, 0)).1 : Int)

/-- Without a name, a new schedule is called by its id. -/
def nameById (s : Schedule D) : Schedule D :=
  if s.name = [] then { s with name := QString.arg (ofLatin1 "Schedule %1") s.id } else s

/-- `DeRestPluginPrivate::createSchedule` -/
def createSchedule (schedules : List (Schedule D)) (now : Int) (rand : Nat) (content : QString) :
    List (Schedule D) × ApiResponse D :=
  match jsonToSchedule env schedules now rand true content {} with
  | .error error => (schedules, badRequest error)
  | .ok s =>
    let s := nameById { s with id := newId schedules }
    (schedules ++ [s], { list := [success (ofLatin1 "id") (.string s.id)] })

/-! ## `setScheduleAttributes` -/

/-- One block of `setScheduleAttributes`: which values the block looks at, which of them it
takes, and what it writes then -/
structure Attribute (D : Type) where
  key : String
  hasType : QVariant D → Bool
  valid : QVariant D → Bool
  write : QVariant D → Schedule D → Schedule D

def append (rsp : ApiResponse D) (entry : QVariant D) : ApiResponse D :=
  { rsp with list := rsp.list ++ [entry] }

/-- The block of a parameter: the schedule and the answer -/
def Attribute.set (id : QString) (map : List (QString × QVariant D)) (a : Attribute D)
    (st : Schedule D × ApiResponse D) : Schedule D × ApiResponse D :=
  let v := value map a.key
  if contains map a.key = true ∧ a.hasType v = true then
    if a.valid v = true then
      let s := a.write v st.1
      ({ s with jsonMap := QVariant.insert s.jsonMap a.key v },
        st.2.answer (success (QString.arg (ofLatin1 ("/schedules/%1/" ++ a.key)) id) v) httpStatusOk)
    else
      (st.1, append st.2 (errorToMap env.qt errInvalidValue
        (QString.arg (ofLatin1 "/schedules/%1") id) (invalidValue env v ("parameter " ++ a.key))))
  else
    st

def isString : QVariant D → Bool
  | .string _ => true
  | _ => false

def isMap : QVariant D → Bool
  | .map _ => true
  | _ => false

def isBool : QVariant D → Bool
  | .bool _ => true
  | _ => false

def isShort (v : QVariant D) : Bool :=
  decide (0 < (v.toString env.qt).length ∧ (v.toString env.qt).length ≤ 32)

def isChoice (first second : String) (v : QVariant D) : Bool :=
  v.toString env.qt == ofLatin1 first || v.toString env.qt == ofLatin1 second

def nameAttribute : Attribute D where
  key := "name"
  hasType := isString
  valid := isShort env
  write := fun v s => { s with name := v.toString env.qt }

def descriptionAttribute : Attribute D where
  key := "description"
  hasType := isString
  valid := isShort env
  write := fun v s => { s with description := v.toString env.qt }

/-- A schedule that is disabled loses its end. -/
def statusAttribute : Attribute D where
  key := "status"
  hasType := isString
  valid := isChoice env "enabled" "disabled"
  write := fun v s =>
    { s with
      status := v.toString env.qt
      endtime := if v.toString env.qt = ofLatin1 "disabled" then none else s.endtime }

def activationAttribute : Attribute D where
  key := "activation"
  hasType := isString
  valid := isChoice env "start" "end"
  write := fun v s => { s with activation := v.toString env.qt }

def commandAttribute : Attribute D where
  key := "command"
  hasType := isMap
  valid := fun v => isCommand v.toMap
  write := fun v s => { s with command := jsonText env v.toMap }

/-- A value that is no boolean is refused, where the other blocks pass over it. -/
def autodeleteAttribute : Attribute D where
  key := "autodelete"
  hasType := fun _ => true
  valid := isBool
  write := fun v s => { s with autodelete := v matches .bool true }

def attributes : List (Attribute D) :=
  [nameAttribute env, descriptionAttribute env, statusAttribute env, activationAttribute env,
    commandAttribute env, autodeleteAttribute]

/-- All blocks; the status of the answer is "404 Not Found" until one of them writes. -/
def setAttributes (id : QString) (map : List (QString × QVariant D)) (s : Schedule D) :
    Schedule D × ApiResponse D :=
  (attributes env).foldl (fun st a => a.set env id map st)
    (s, { httpStatus := httpStatusNotFound })

def enables (map : List (QString × QVariant D)) : Prop :=
  QVariant.text? map "status" = some (ofLatin1 "enabled")

instance (map : List (QString × QVariant D)) : Decidable (enables map) :=
  inferInstanceAs (Decidable (_ = _))

/-- The map behind the status: a random time is read again when the schedule is enabled. -/
def rereadTimes (s : Schedule D) (map : List (QString × QVariant D)) :
    List (QString × QVariant D) :=
  if enables map then
    let map :=
      if unit 'A' ∈ s.time then QVariant.insert map "time" (.string s.time) else map
    if unit 'A' ∈ s.localtime then QVariant.insert map "localtime" (.string s.localtime) else map
  else
    map

/-- The absolute time of `setScheduleAttributes` -/
def moveAbsolute (map : List (QString × QVariant D)) (w : Int) (s : Schedule D) : Schedule D :=
  { s with
    datetime := some w
    endtime := some (env.clock.instant w)
    time :=
      if contains map "time" = true then s.time
      else env.clock.toText (env.clock.instant w)
    localtime :=
      if contains map "localtime" = true then s.localtime else env.clock.toText w
    type := .absoluteTime }

/-- The time of `setScheduleAttributes`, without its random part: the schedule, or what the
error says is wrong.  The seconds of a `PT` text are `rx.cap(4)` there, a group that the
pattern does not have. -/
def moveTime (now : Int) (timeSpec : TimeSpec) (time : QString) (randomMax rand : Nat)
    (map : List (QString × QVariant D)) (s : Schedule D) : Except QString (Schedule D) :=
  let random := randomTime randomMax rand
  match readTime env.clock time with
  | .repeating times t =>
    .ok (startTimer env now timeSpec ((t.total + random : Nat) : Int) times s)
  | .timer t =>
    .ok (startTimer env now timeSpec
      ((({ t with seconds := 0 } : Hms).total + random : Nat) : Int) 1 s)
  | .weekly weekBitmap t =>
    .ok (setWeekly env now timeSpec weekBitmap t (randomOfDay randomMax rand) s)
  | .weeklyRandom => .ok s
  | .unmatched => .error (invalidValue env (value map "time") "parameter time")
  | .absolute =>
    match absoluteDatetime env.clock now timeSpec time random with
    | some w => .ok (moveAbsolute env map w s)
    | none =>
      if contains map "localtime" = true then
        .error (invalidValue env (value map "localtime") "parameter localtime")
      else
        .error (invalidValue env (value map "time") "parameter time")

/-- A text of the body behind the time: the schedule with its map, and the answer -/
def storeText (id : QString) (map : List (QString × QVariant D)) (key : String)
    (write : QString → Schedule D → Schedule D) (st : Schedule D × ApiResponse D) :
    Schedule D × ApiResponse D :=
  if contains map key = true then
    let text := (value map key).toString env.qt
    let s := write text st.1
    ({ s with jsonMap := QVariant.insert s.jsonMap key (.string text) },
      append st.2 (success (QString.arg (ofLatin1 ("/schedules/%1/" ++ key)) id)
        (value map key)))
  else
    st

def storeTexts (id : QString) (map : List (QString × QVariant D))
    (st : Schedule D × ApiResponse D) : Schedule D × ApiResponse D :=
  storeText env id map "time" (fun text s => { s with time := text })
    (storeText env id map "localtime" (fun text s => { s with localtime := text }) st)

/-- What `setScheduleAttributes` does with the time: the schedule, the answer, and whether
the request goes on -/
structure TimesSet (D : Type) where
  schedule : Schedule D
  rsp : ApiResponse D
  accepted : Bool

/-- The part of `setScheduleAttributes` about the time -/
def setTimes (id : QString) (now : Int) (rand : Nat) (map : List (QString × QVariant D))
    (st : Schedule D × ApiResponse D) : TimesSet D :=
  let times := readTimes map
  let refuse (s : Schedule D) (description : QString) : TimesSet D :=
    ⟨s, st.2.answer (scheduleError env errInvalidValue description) httpStatusBadRequest, false⟩
  if times.1 = [] then
    ⟨st.1, st.2, true⟩
  else
    let s := { st.1 with lastTriggerDatetime := none }
    match cutRandom env.clock times.1 with
    | none =>
      refuse s (invalidValue env (value map "time") "random part of parameter time")
    | some (time, randomMax) =>
      match moveTime env now times.2 time randomMax rand map s with
      | .error description => refuse s description
      | .ok s =>
        let stored := storeTexts env id map (s, st.2)
        ⟨stored.1, { stored.2 with httpStatus := httpStatusOk }, true⟩

def store (now : Int) (s : Schedule D) : Schedule D :=
  let map := QVariant.insert s.jsonMap "etag" (.string (env.clock.etag now))
  { s with jsonMap := map, jsonString := jsonText env map }

/-- `setScheduleAttributes`, behind the checks of the body -/
def updateSchedule (id : QString) (now : Int) (rand : Nat) (map : List (QString × QVariant D))
    (s : Schedule D) : Schedule D × ApiResponse D :=
  let st := setAttributes env id map s
  let written := setTimes env id now rand (rereadTimes s map) st
  if written.accepted = true then
    (store env now written.schedule, written.rsp)
  else
    (written.schedule, written.rsp)

def findSchedule (schedules : List (Schedule D)) (id : QString) : Option Nat :=
  schedules.findIdx? fun s => decide (s.state = .normal) && s.id == id

/-- `DeRestPluginPrivate::setScheduleAttributes` -/
def setScheduleAttributes (schedules : List (Schedule D)) (now : Int) (rand : Nat) (id : QString)
    (content : QString) : List (Schedule D) × ApiResponse D :=
  match findSchedule schedules id with
  | none => (schedules, notAvailable env id)
  | some i =>
    let parsed := parseContent env.qt content
    let map := parsed.1.toMap
    if parsed.2 = false ∨ map = [] then
      (schedules, badRequest (errorToMap env.qt errInvalidJson
        (QString.arg (ofLatin1 "/schedules/%1") id) (ofLatin1 "body contains invalid JSON")))
    else
      match schedules[i]? with
      | none => (schedules, notAvailable env id)
      | some s =>
        let updated := updateSchedule env id now rand map s
        (schedules.set i updated.1, updated.2)

/-- `DeRestPluginPrivate::deleteSchedule` -/
def deleteSchedule (schedules : List (Schedule D)) (id : QString) :
    List (Schedule D) × ApiResponse D :=
  match findSchedule schedules id with
  | none => (schedules, notAvailable env id)
  | some i =>
    (schedules.modify i fun s => { s with state := .deleted },
      { list := [.map [(ofLatin1 "success",
        .string (QString.arg (ofLatin1 "/schedules/%1 deleted.") id))]] })

end Schedules
end DeconzRest

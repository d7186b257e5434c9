import DeconzRest.Qt.Number
import DeconzRest.Qt.Parts
import DeconzRest.Qt.Time

/-!
# The time of a schedule

A schedule has its time as a text of one of four kinds: `R[nn]/PThh:mm:ss` and `PThh:mm:ss`
are timers, `Wbbb/Thh:mm:ss` is a clock time on days of the week, and anything else a date
and time.  Behind an `A` stands the greatest random delay, which is cut off first.

Points in time are milliseconds since the epoch.  A date and time without a zone is the same
number for a clock that shows it, as if that clock were in Greenwich; `SystemClock` has the
two ways between them that the system knows.  Within one request or tick, the calls of
`currentDateTime` give one and the same point in time.
-/

namespace DeconzRest

/-- What the system and Qt decide about dates and times.  Offsets from UTC are seconds. -/
structure SystemClock where
  /-- `offsetFromUtc` of the local time at a point in time -/
  offset : Int → Int
  /-- The offset from UTC that a local date and time is taken to have -/
  localOffset : Int → Int
  /-- `QDateTime::fromString(time, Qt::ISODate)`; `none` when it is invalid. -/
  fromIso : QString → Option Int
  /-- `QDateTime::toString("yyyy-MM-ddTHH:mm:ss")` -/
  toText : Int → QString
  /-- `QChar::isDigit` -/
  isDigit : QChar → Bool
  /-- The text that `updateEtag` makes of a point in time, without its quotes -/
  etag : Int → QString

namespace SystemClock

variable (clock : SystemClock)

def zone : TimeZone := fun ms => 1000 * clock.offset ms

def wall (ms : Int) : Int := QDateTime.wall clock.zone ms

def instant (w : Int) : Int := w - 1000 * clock.localOffset w

/-- `addSecs(toffset)`, `setOffsetFromUtc(toffset)` and `setTimeSpec(Qt::LocalTime)`: a UTC
date and time is put forward by the offset of now, and what it shows then is local time. -/
def toLocal (now utc : Int) : Int := utc + 1000 * clock.offset now

end SystemClock

namespace QDateTime

/-- `date()` of a date and time, as the number of a day -/
def date (w : Int) : Int := w / msecsPerDay

/-- `time()` of a date and time -/
def timeOfDay (w : Int) : Int := w % msecsPerDay

/-- `setTime(QTime(h, m, s))`: midnight when there is no such time. -/
def setTime (w : Int) (h m s : Nat) : Int :=
  date w * msecsPerDay + if h < 24 ∧ m < 60 ∧ s <
    60 then (((h * 60 + m) * 60 + s : Nat) : Int) * 1000 else 0

end QDateTime

/-- `QTime::secsTo`: milliseconds count for nothing. -/
def QTime.secsTo (t other : Int) : Int := other / 1000 - t / 1000

/-- `QString::contains` of a text -/
def QString.containsText (s t : QString) : Bool := s.tails.any fun rest => t.isPrefixOf rest

namespace Schedules

open QString

/-- Hours, minutes and seconds as a text has them, up to 99 each -/
structure Hms where
  hours : Nat
  minutes : Nat
  seconds : Nat
deriving DecidableEq, Repr

def Hms.total (t : Hms) : Nat := t.hours * 60 * 60 + t.minutes * 60 + t.seconds

variable (clock : SystemClock)

/-- `toInt` of the two digits that `\d\d` caught; digits of other scripts are no number. -/
def digitPair (a b : QChar) : Option Nat :=
  if clock.isDigit a = true ∧ clock.isDigit b = true then
    some ((QString.toUInt [a, b]).getD 0)
  else
    none

/-- `(\d\d):(\d\d):(\d\d)` -/
def matchHms (s : QString) : Option Hms :=
  match s with
  | [a, b, colon, c, d, colon', e, f] =>
    if colon = unit ':' ∧ colon' = unit ':' then
      match digitPair clock a b, digitPair clock c d, digitPair clock e f with
      | some hours, some minutes, some seconds => some ⟨hours, minutes, seconds⟩
      | _, _, _ => none
    else
      none
  | _ => none

/-- `[0-9]` -/
def isAsciiDigit (c : QChar) : Bool := (digitValue c).isSome

/-- A letter, some of the digits `0` to `9`, a text and a clock time -/
def matchNumbered (letter : Char) (least most : Nat) (text : String) (s : QString) :
    Option (Nat × Hms) :=
  match s with
  | [] => none
  | c :: rest =>
    let digits := rest.takeWhile isAsciiDigit
    let behind := rest.dropWhile isAsciiDigit
    if c = unit letter ∧ least ≤ digits.length ∧ digits.length ≤ most ∧
        startsWith behind (ofLatin1 text) = true then
      (matchHms clock (behind.drop text.length)).map fun t => ((QString.toUInt digits).getD 0, t)
    else
      none

/-- `R([0-9]{0,2})/PT(\d\d):(\d\d):(\d\d)`; no number is 0. -/
def matchRepeating : QString → Option (Nat × Hms) := matchNumbered clock 'R' 0 2 "/PT"

/-- `W([0-9]{1,3})/T(\d\d):(\d\d):(\d\d)` -/
def matchWeekly : QString → Option (Nat × Hms) := matchNumbered clock 'W' 1 3 "/T"

/-- `PT(\d\d):(\d\d):(\d\d)` -/
def matchTimer (s : QString) : Option Hms :=
  if startsWith s (ofLatin1 "PT") = true then matchHms clock (s.drop 2) else none

/-- `time.split("A")`: the text in front, unless there is more than one `A`, and the random
part behind the first `A`. -/
def splitRandom (time : QString) : QString × QString :=
  let ls := parts (unit 'A') time
  (if ls.2.length = 1 then ls.1 else time, ls.2.head?.getD [])

/-- The text in front of the random part and `randomMax`; `none` when the random part is no
clock time. -/
def cutRandom (time : QString) : Option (QString × Nat) :=
  if unit 'A' ∈ time then
    (matchHms clock (splitRandom time).2).map fun t => ((splitRandom time).1, t.total)
  else
    some (time, 0)

/-- `randomTime` for a number of `U_rand32` -/
def randomTime (randomMax rand : Nat) : Nat :=
  if randomMax = 0 then 0 else rand % (randomMax + 1 - 1) + 1

/-- A random time has to be smaller than 12 hours. -/
def randomOfDay (randomMax rand : Nat) : Nat := min (randomTime randomMax rand) 43200

theorem randomTime_pos_iff (randomMax rand : Nat) : 0 < randomTime randomMax rand ↔ 0 < randomMax := by
  unfold randomTime
  split <;> omega

/-- The branches by which both `jsonToSchedule` and `setScheduleAttributes` tell texts apart -/
inductive TimeText where
  /-- `R[nn]/PThh:mm:ss` -/
  | repeating (times : Nat) (t : Hms)
  /-- `PThh:mm:ss` -/
  | timer (t : Hms)
  /-- `Wbbb/Thh:mm:ss` -/
  | weekly (weekBitmap : UInt8) (t : Hms)
  /-- `W` with another `A` in it, a branch without code -/
  | weeklyRandom
  /-- It starts like a timer or a weekly time and does not match. -/
  | unmatched
  /-- Anything else: a date and time -/
  | absolute
deriving DecidableEq, Repr

def readTime (time : QString) : TimeText :=
  if startsWith time (ofLatin1 "R") = true ∧ containsText time (ofLatin1 "PT") = true then
    match matchRepeating clock time with
    | some (times, t) => .repeating times t
    | none => .unmatched
  else if startsWith time (ofLatin1 "PT") = true then
    match matchTimer clock time with
    | some t => .timer t
    | none => .unmatched
  else if startsWith time (ofLatin1 "W") = true ∧ unit 'T' ∈ time ∧ unit 'A' ∈ time then
    .weeklyRandom
  else if startsWith time (ofLatin1 "W") = true ∧ unit 'T' ∈ time then
    match matchWeekly clock time with
    | some (weekBitmap, t) => .weekly (UInt8.ofNat weekBitmap) t
    | none => .unmatched
  else
    .absolute

/-- `endtime` of a timer that is started now -/
def timerEnd (now : Int) (timeSpec : TimeSpec) (timeout : Int) : Int :=
  match timeSpec with
  | .utc => clock.instant (clock.toLocal now (QDateTime.addSecs now timeout))
  | .localTime => QDateTime.addSecs now timeout

/-- `datetime` of a weekly time that is set now: only the clock time of it counts. -/
def weeklyDatetime (now : Int) (timeSpec : TimeSpec) (t : Hms) (random : Nat) : Int :=
  match timeSpec with
  | .utc =>
    clock.toLocal now
      (QDateTime.addSecs (QDateTime.setTime now t.hours t.minutes t.seconds) random)
  | .localTime =>
    clock.wall (QDateTime.addSecs
      (clock.instant (QDateTime.setTime (clock.wall now) t.hours t.minutes t.seconds)) random)

/-- `datetime` of a date and time that is set now -/
def absoluteDatetime (now : Int) (timeSpec : TimeSpec) (time : QString) (random : Nat) :
    Option Int :=
  (clock.fromIso time).map fun w =>
    match timeSpec with
    | .utc => clock.toLocal now (QDateTime.addSecs w random)
    | .localTime => clock.wall (QDateTime.addSecs (clock.instant w) random)

end Schedules
end DeconzRest

import DeconzRest.Qt.Text
import Mathlib.Algebra.Ring.Int.Defs

/-!
# `QTime` and `QDateTime`

A `QTime` is its number of milliseconds since midnight, `-1` when it is null, as Qt
keeps it.  A valid `QDateTime` of the rule code is a point in time, the
milliseconds since the epoch; clock time and date of it depend on the time zone
of the system, which is the offset from UTC at every point in time.
-/

namespace DeconzRest

open QString

/-- The offset from UTC in milliseconds, at a point in time. -/
abbrev TimeZone := Int → Int

/-- `Qt::TimeSpec`, as far as it is used -/
inductive TimeSpec where
  | utc
  | localTime
deriving DecidableEq, Repr

def msecsPerDay : Int := 86400000

namespace QTime

/-- `QTime()` -/
def null : Int := -1

/-- `QTime::isValid` -/
def isValid (t : Int) : Bool := decide (0 ≤ t ∧ t < msecsPerDay)

def twoDigits (a b : QChar) : Option Nat := do
  let tens ← digitValue a
  let ones ← digitValue b
  return 10 * tens + ones

/-- `hh:mm:ss` -/
def clockTime (s : QString) : Int :=
  match s with
  | [a, b, colon, c, d, colon', e, f] =>
    match twoDigits a b, twoDigits c d, twoDigits e f with
    | some hours, some minutes, some seconds =>
      if colon = unit ':' ∧ colon' = unit ':' ∧ hours < 24 ∧ minutes < 60 ∧ seconds < 60 then
        ((hours * 60 + minutes) * 60 + seconds : Nat) * 1000
      else
        null
    | _, _, _ => null
  | _ => null

/-- `QTime::fromString` for a format that is a literal text and `hh:mm:ss`. -/
def fromString (s : QString) (literal : String) : Int :=
  if startsWith s (ofLatin1 literal) then
    clockTime (s.drop literal.length)
  else
    null

/-- `QTime(0,0,0).secsTo(t)` -/
def secondsFromMidnight (t : Int) : Int := t / 1000

end QTime

namespace QDateTime

/-- The reading of the clock on the wall, in milliseconds since a midnight long ago. -/
def wall (zone : TimeZone) (ms : Int) : Int := ms + zone ms

/-- `QDateTime::fromMSecsSinceEpoch(ms).time()` -/
def time (zone : TimeZone) (ms : Int) : Int := wall zone ms % msecsPerDay

/-- `QDateTime::fromMSecsSinceEpoch(ms).date().dayOfWeek()`: 1 is Monday, and the epoch
was a Thursday. -/
def dayOfWeek (zone : TimeZone) (ms : Int) : Nat :=
  ((wall zone ms / msecsPerDay + 3) % 7).toNat + 1

/-- `QDateTime::addSecs` -/
def addSecs (ms : Int) (seconds : Int) : Int := ms + 1000 * seconds

/-- `QDateTime::secsTo` -/
def secsTo (ms other : Int) : Int := (other - ms).tdiv 1000

theorem secsTo_future {ms other : Int} (h : ms ≤ other) :
    secsTo ms other = (other - ms) / 1000 := by
  unfold secsTo
  exact Int.tdiv_eq_ediv_of_nonneg (by omega)

theorem secsTo_past {ms other : Int} (h : other ≤ ms) :
    secsTo ms other = -((ms - other) / 1000) := by
  have hneg : other - ms = -(ms - other) := by omega
  unfold secsTo
  rw [hneg, Int.neg_tdiv, Int.tdiv_eq_ediv_of_nonneg (by omega)]

/-- Milliseconds do not count against whole seconds. -/
theorem secsTo_lt_iff {ms other : Int} {limit : Nat} (hlimit : 0 < limit) :
    secsTo ms other < limit ↔ other - ms < 1000 * (limit : Int) := by
  rcases Int.le_total ms other with h | h
  · rw [secsTo_future h]
    omega
  · rw [secsTo_past h]
    omega

theorem time_range (zone : TimeZone) (ms : Int) :
    0 ≤ time zone ms ∧ time zone ms < msecsPerDay := by
  unfold time msecsPerDay
  omega

theorem dayOfWeek_range (zone : TimeZone) (ms : Int) :
    1 ≤ dayOfWeek zone ms ∧ dayOfWeek zone ms ≤ 7 := by
  unfold dayOfWeek
  omega

theorem wall_eq (zone : TimeZone) (ms : Int) :
    wall zone ms = wall zone ms / msecsPerDay * msecsPerDay + time zone ms := by
  unfold time msecsPerDay
  omega

end QDateTime
end DeconzRest

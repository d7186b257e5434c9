import DeconzRest.Lib.Calendar

/-!
# The values of the time cluster

`getTime` takes the offset at the begin of the year for the standard time, and the two transitions
behind it for the begin and the end of the daylight saving time.  Times are seconds since 1970.
-/

namespace DeconzRest
namespace TimeCluster

open Option

/-- `QTimeZone::OffsetData` of a transition, without the standard offset -/
structure Transition where
  atUtc : Int
  daylightTimeOffset : Int
deriving DecidableEq, Repr

structure TimeZone where
  standardTimeOffset : Int
  transitions : List Transition
  sorted : transitions.Pairwise fun a b => a.atUtc < b.atUtc
  standard_range : -57600 ≤ standardTimeOffset ∧ standardTimeOffset ≤ 57600
  transition_range : ∀ x ∈ transitions, x.atUtc < 946684800 + 4294967296 ∧ -57600 ≤
    x.daylightTimeOffset ∧ x.daylightTimeOffset ≤ 57600

namespace TimeZone

/-- The offset that the last transition leads to -/
def daylightTimeOffset (z : TimeZone) (atUtc : Int) : Int :=
  match (z.transitions.filter fun x => x.atUtc ≤ atUtc).getLast? with
  | none => 0
  | some x => x.daylightTimeOffset

/-- `offsetFromUtc` -/
def offsetFromUtc (z : TimeZone) (atUtc : Int) : Int :=
  z.standardTimeOffset + z.daylightTimeOffset atUtc

/-- `nextTransition`; none stands for an invalid date. -/
def nextTransition (z : TimeZone) (after : Int) : Option Transition :=
  z.transitions.find? fun x => after < x.atUtc

/-- The first of January of `QDate::currentDate().year()`, at midnight in UTC -/
def yearStart (z : TimeZone) (now : Int) : Int :=
  let today := Calendar.dateOfDay ((now + z.offsetFromUtc now) / 86400)
  86400 * Calendar.dayOfDate { year := today.year, month := 1, day := 1 }

end TimeZone

/-- `quint32` -/
def u32 (n : Int) : Int := n % 4294967296

/-- What `getTime` writes -/
structure TimeValues where
  time : Int := 0xFFFFFFFF
  tz : Int := -1
  dstStart : Int := 0xFFFFFFFF
  dstEnd : Int := 0xFFFFFFFF
  dstShift : Int := -1
  standardTime : Int := 0xFFFFFFFF
  localTime : Int := 0xFFFFFFFF
deriving DecidableEq, Repr

/-- `secsTo`, which is 0 for an invalid date -/
def secsTo (epoch : Int) (date : Option Int) : Int := (date.map (· - epoch)).getD 0

/-- `getTime`; `unspecified` is the date of what `nextTransition` returns for an invalid one. -/
def getTime (z : TimeZone) (unspecified : Option Int) (epoch now : Int) : TimeValues :=
  let time := u32 (now - epoch)
  let tz := z.offsetFromUtc (z.yearStart now)
  if z.transitions.isEmpty then { time, tz, standardTime := time, localTime := time }
  else
    let dstStart := z.nextTransition (z.yearStart now)
    let dstEnd := dstStart.elim unspecified fun start =>
      (z.nextTransition start.atUtc).map (·.atUtc)
    let dstStartSecs := u32 (secsTo epoch (dstStart.map (·.atUtc)))
    let dstEndSecs := u32 (secsTo epoch dstEnd)
    -- an invalid transition has the smallest number as its offset
    let dstShift := dstStart.elim (-2147483648) (·.daylightTimeOffset)
    { time, tz, dstStart := dstStartSecs, dstEnd := dstEndSecs, dstShift
      standardTime := u32 (time + tz)
      localTime :=
        u32 (time + (tz + if time ≥ dstStartSecs ∧ time ≤ dstEndSecs then dstShift else 0)) }

/-- `J2000_EPOCH` -/
def j2000 : Int := 946684800

structure Moment where
  now : Int
  lower : 946684800 ≤ now
  upper : now < 4102444800

/-- The local time as a client computes it -/
def TimeValues.clientTime (v : TimeValues) : Int :=
  u32 (v.time + v.tz + if v.dstStart ≤ v.time ∧ v.time ≤ v.dstEnd then v.dstShift else 0)

/-- The values are those of the zone, and a client gets the same local time. -/
structure Right (z : TimeZone) (now : Int) (v : TimeValues) : Prop where
  standardTime : v.standardTime = u32 (v.time + z.standardTimeOffset)
  localTime : v.localTime = u32 (v.time + z.offsetFromUtc now)
  client : v.clientTime = v.localTime

/-- A zone without transitions is the one of UTC; in another one there is no daylight saving time at
the begin of the year, and none now but between the two transitions behind it. -/
def Fits (z : TimeZone) (unspecified : Option Int) (now : Int) : Prop :=
  if z.transitions = [] then z.standardTimeOffset = 0
  else
    z.daylightTimeOffset (z.yearStart now) = 0 ∧
      match z.nextTransition (z.yearStart now) with
      | none =>
        z.daylightTimeOffset now = 0 ∧ u32 (secsTo j2000 unspecified) < now - j2000
      | some start =>
        z.daylightTimeOffset now = if j2000 ≤ start.atUtc ∧ start.atUtc ≤
          now ∧ now ≤ ((z.nextTransition start.atUtc).map (·.atUtc)).getD j2000 then
            start.daylightTimeOffset
          else 0

theorem daylight_range (z : TimeZone) (t : Int) :
    -57600 ≤ z.daylightTimeOffset t ∧ z.daylightTimeOffset t ≤ 57600 := by
  unfold TimeZone.daylightTimeOffset
  split
  · decide
  · rename_i x hlast
    exact (z.transition_range x (List.mem_filter.mp (List.mem_of_getLast? hlast)).1).2

theorem year_lower {day : Int} (h : 10950 ≤ day) : 1990 ≤ (Calendar.dateOfDay day).year := by
  have hera : 0 ≤ (day + 719468) % 146097 ∧ (day + 719468) % 146097 < 146097 := by omega
  have hrange := Calendar.partsOfEra_range hera.1 hera.2
  have hsum := Calendar.daysBefore_partsOfEra hera.1 hera.2
  unfold Calendar.dateOfDay
  simp only
  unfold Calendar.daysBefore at hsum
  generalize (Calendar.partsOfEra ((day + 719468) % 146097)).1 = year at *
  generalize (Calendar.partsOfEra ((day + 719468) % 146097)).2 = dayOfYear at *
  split <;> omega

theorem newYear_lower {year : Int} (h : 1990 ≤ year) :
    7000 ≤ Calendar.dayOfDate { year := year, month := 1, day := 1 } := by
  unfold Calendar.dayOfDate Calendar.daysBefore Calendar.monthStart
  simp only
  omega

theorem yearStart_lower (z : TimeZone) (m : Moment) : 604800000 ≤ z.yearStart m.now := by
  have hlower := m.lower
  have hrange := daylight_range z m.now
  have hstandard := z.standard_range
  unfold TimeZone.yearStart TimeZone.offsetFromUtc
  have hday : 10950 ≤ (m.now + (z.standardTimeOffset + z.daylightTimeOffset m.now)) / 86400 := by
    omega
  have hyear := newYear_lower (year_lower hday)
  dsimp only
  omega

theorem find_range {z : TimeZone} {after : Int} {x : Transition}
    (h : z.nextTransition after = some x) : after < x.atUtc ∧ x.atUtc < 946684800 +
      4294967296 ∧ -57600 ≤ x.daylightTimeOffset ∧ x.daylightTimeOffset ≤ 57600 :=
  ⟨of_decide_eq_true (List.find?_some (p := fun x : Transition => decide (after < x.atUtc)) h),
    z.transition_range x (List.mem_of_find?_eq_some h)⟩

/-! ## The values -/

theorem u32_add_inj {t a b : Int} (ha : -2147600000 < a ∧ a < 2147400000)
    (hb : -200000 < b ∧ b < 200000) : u32 (t + a) = u32 (t + b) ↔ a = b := by
  unfold u32
  omega

/-- In a zone with transitions the offset at the begin of the year has to be the standard one, and
what is added to it now the present daylight offset. -/
theorem right_iff {z : TimeZone} {now time start finish shift : Int}
    (hshift : -2147483648 ≤ shift ∧ shift ≤ 57600) :
    Right z now
      { time
        tz := z.offsetFromUtc (z.yearStart now)
        dstStart := start
        dstEnd := finish
        dstShift := shift
        standardTime := u32 (time + z.offsetFromUtc (z.yearStart now))
        localTime := u32 (time + (z.offsetFromUtc (z.yearStart now) + if time ≥ start ∧ time ≤
          finish then shift else 0)) } ↔
      z.daylightTimeOffset (z.yearStart now) = 0 ∧ z.daylightTimeOffset now = if time ≥ start ∧
        time ≤ finish then shift else 0 := by
  have hbegin := daylight_range z (z.yearStart now)
  have hnow := daylight_range z now
  have hstandard := z.standard_range
  unfold TimeZone.offsetFromUtc
  constructor
  · intro h
    have hstandardTime := h.standardTime
    have hlocalTime := h.localTime
    have hadded : -2147483648 ≤ (if time ≥ start ∧ time ≤ finish then shift else 0) ∧
        (if time ≥ start ∧ time ≤ finish then shift else 0) ≤ 57600 := by
      split <;> omega
    unfold TimeZone.offsetFromUtc at hlocalTime
    generalize (if time ≥ start ∧ time ≤ finish then shift else 0) = added at hadded hlocalTime ⊢
    have hstd := (u32_add_inj (by omega) (by omega)).mp hstandardTime
    have hlocal := (u32_add_inj (by omega) (by omega)).mp hlocalTime
    omega
  · rintro ⟨hzero, hsame⟩
    refine ⟨?_, ?_, congrArg u32 (Int.add_assoc time _ _)⟩
    · show u32 _ = u32 _
      rw [hzero, Int.add_zero]
    · show u32 _ = u32 _
      rw [hzero, Int.add_zero, ← hsame]
      rfl

/-- **The time cluster.** -/
theorem getTime_right_iff (z : TimeZone) (unspecified : Option Int) (m : Moment) :
    Right z m.now (getTime z unspecified j2000 m.now) ↔ Fits z unspecified m.now := by
  have hlower := m.lower
  have hupper := m.upper
  have hyear := yearStart_lower z m
  have htime : u32 (m.now - j2000) = m.now - j2000 := by
    unfold u32 j2000
    omega
  unfold Fits getTime
  simp only [htime]
  cases htransitions : z.transitions with
  | nil =>
    have hnone (t : Int) : z.daylightTimeOffset t = 0 := by
      unfold TimeZone.daylightTimeOffset
      rw [htransitions]
      rfl
    have hstandard := z.standard_range
    rw [List.isEmpty_nil, if_pos rfl, if_pos rfl]
    constructor
    · intro h
      have hsame := h.standardTime
      simp only [u32, j2000] at hsame
      omega
    · intro hzero
      refine ⟨?_, ?_, ?_⟩
      · simp only [hzero, Int.add_zero, htime]
      · simp only [TimeZone.offsetFromUtc, hnone, hzero, Int.add_zero, htime]
      · simp only [TimeValues.clientTime, TimeZone.offsetFromUtc, hnone, hzero, Int.add_zero]
        rw [if_neg (by unfold j2000; omega), Int.add_zero, htime]
  | cons x rest =>
    rw [List.isEmpty_cons, if_neg Bool.false_ne_true, if_neg (List.cons_ne_nil _ _)]
    cases hstart : z.nextTransition (z.yearStart m.now) with
    | none =>
      have hnow := daylight_range z m.now
      refine (right_iff (by decide)).trans (and_congr_right fun _ => ?_)
      have hzero : u32 (secsTo j2000 none) = 0 := rfl
      simp only [map_none, Option.elim_none, hzero]
      unfold j2000
      split_ifs <;> omega
    | some start =>
      have hrange := find_range hstart
      have hshift : -2147483648 ≤ start.daylightTimeOffset ∧ start.daylightTimeOffset ≤ 57600 := by
        omega
      refine (right_iff hshift).trans (and_congr_right fun _ => ?_)
      have hspan : (m.now - j2000 ≥ u32 (secsTo j2000 (some start.atUtc)) ∧ m.now - j2000 ≤
          u32 (secsTo j2000 ((z.nextTransition start.atUtc).map (·.atUtc)))) ↔
          j2000 ≤ start.atUtc ∧ start.atUtc ≤ m.now ∧ m.now ≤
            ((z.nextTransition start.atUtc).map (·.atUtc)).getD j2000 := by
        unfold j2000
        cases hend : z.nextTransition start.atUtc with
        | none =>
          simp only [secsTo, u32, map_some, map_none, getD_some,
            getD_none]
          omega
        | some last =>
          have hlast := find_range hend
          simp only [secsTo, u32, map_some, getD_some]
          omega
      exact Iff.of_eq (congrArg _ (if_congr hspan rfl rfl))

def hourEast : TimeZone where
  standardTimeOffset := 3600
  transitions := []
  sorted := .nil
  standard_range := by decide
  transition_range := by decide

/-- The standard time of the zone is the one of UTC. -/
theorem hourEast_wrong : ¬ Right hourEast 1704067200 (getTime hourEast none j2000 1704067200) := by
  intro h
  exact absurd h.standardTime (by decide)

end TimeCluster
end DeconzRest

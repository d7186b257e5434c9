import DeconzRest.Rule.Evaluate
import Mathlib.Data.Nat.Find

/-!
# Rules at the ticks of the local time

Once a second the local time is set and an event about it is handled.  The item
keeps its previous value, so that the intervals `(previousNow, now]` of the ticks
follow each other without a gap (`tick_num`, `tick_numPrev`).

* `in` looks at the clock times of both ends of the interval only.
  `in_fires_iff` says when that is the same as the interval having the start time
  in it: not when it has midnight in it as well, and not when the tick is already
  behind the end of the window.
* `ddx` looks at points in time, and fires at the first tick that is not before
  the time that it waits for (`ddx_fires_once`).
-/

namespace DeconzRest
namespace RuleEngine

variable {D : Type}

/-- `localTime->setValue(QDateTime::currentDateTime())` -/
def tick (lt : RuleItem) (ms : Int) : RuleItem := lt.setDateTime ms ms

@[simp] theorem tick_num (lt : RuleItem) (ms : Int) : (tick lt ms).num = ms := rfl

@[simp] theorem tick_numPrev (lt : RuleItem) (ms : Int) : (tick lt ms).numPrev = lt.num := rfl

@[simp] theorem tick_isSet (lt : RuleItem) (ms : Int) : (tick lt ms).isSet = true := rfl

/-- `Event(RConfig, RConfigLocalTime, 0)` -/
def localTimeEvent : Event where
  resource := rConfig
  what := rConfigLocalTime

/-- The resources while the local time is `lt`. -/
def atLocalTime (res : Resources) (lt : RuleItem) : Resources :=
  res.setItem (res.config, rConfigLocalTime) lt

/-- The occasion of a local time event that is handled while the local time is `lt`. -/
def localTimeOccasion (res : Resources) (lt : RuleItem) (currentDateTime : Int) : Occasion where
  event := localTimeEvent
  eItem := (res.config, rConfigLocalTime)
  now := now (atLocalTime res lt).localTime currentDateTime
  previousNow := previousNow (atLocalTime res lt).localTime currentDateTime

theorem localTime_atLocalTime (res : Resources) (lt : RuleItem) :
    (atLocalTime res lt).localTime = some lt := by
  show (if (res.config, rConfigLocalTime) = (res.config, rConfigLocalTime) then some lt
    else res.items (res.config, rConfigLocalTime)) = some lt
  rw [if_pos rfl]

/-! ## `in` -/

/-- A condition `/config/localtime in W127/T<t0>/T<t1>`. -/
structure LocalTimeIn (c : RuleCondition D) (t0 t1 : Int) : Prop where
  op : c.op = .isIn
  resource : c.resource = some rConfig
  suffix : c.suffix = rConfigLocalTime
  weekDays : c.weekDays = 127
  time0 : c.time0 = t0
  time1 : c.time1 = t1

/-- The clock shows the time `t0` at some moment behind `previous` and not behind `now`. -/
def Passes (zone : TimeZone) (t0 previous now : Int) : Prop :=
  ∃ day : Int, QDateTime.wall zone previous < day * msecsPerDay + t0 ∧ day * msecsPerDay + t0 ≤
    QDateTime.wall zone now

/-- Both moments are on the same day, by the clock on the wall. -/
def SameDay (zone : TimeZone) (previous now : Int) : Prop :=
  QDateTime.wall zone previous / msecsPerDay = QDateTime.wall zone now / msecsPerDay

/-- The gateway is in the network, and the rule is not held back by its state or period. -/
def Armed (inNetwork : Bool) (rule : Rule D) (now : Int) : Prop :=
  inNetwork = true ∧ rule.state = .normal ∧ periodElapsed rule now = true

/-- Local time values that increase by less than a minute, each event with the value
before as its previous one. -/
def Ticking (zone : TimeZone) (currentDateTime : Int) (lt : RuleItem) (ticks : List Int) : Prop :=
  Transition.AllSteps tick
    (fun lt ms => QDateTime.wall zone lt.num < QDateTime.wall zone ms ∧ QDateTime.wall zone ms <
      QDateTime.wall zone lt.num + 60000 ∧
      previousNow (some (tick lt ms)) currentDateTime = lt.num) lt ticks

/-- `evaluateRule` at a local time event. -/
def firesAtTick (env : RuleEnv D) (inNetwork : Bool) (currentDateTime : Int) (res : Resources)
    (rule : Rule D) (lt : RuleItem) : Bool :=
  (evaluateRule env inNetwork (atLocalTime res lt) (localTimeOccasion res lt currentDateTime)
    rule).1

theorem weekDayEnabled_all {c : RuleCondition D} (h : c.weekDays = 127) {day : Nat}
    (hday : 1 ≤ day ∧ day ≤ 7) : c.weekDayEnabled day = true := by
  obtain ⟨hlow, hhigh⟩ := hday
  have hcases : day = 1 ∨ day = 2 ∨ day = 3 ∨ day = 4 ∨ day = 5 ∨ day = 6 ∨ day = 7 := by omega
  unfold RuleCondition.weekDayEnabled
  rw [h]
  rcases hcases with rfl | rfl | rfl | rfl | rfl | rfl | rfl <;> rfl

/-- At a tick a rule with the one condition comes down to the interval of the tick. -/
theorem firesAtTick_iff {c : RuleCondition D} {t0 t1 : Int} (hc : LocalTimeIn c t0 t1)
    (env : RuleEnv D) (inNetwork : Bool) (res : Resources) {lt : RuleItem}
    (hset : lt.isSet = true) (currentDateTime : Int) {rule : Rule D}
    (henabled : rule.isEnabled = true) (hconditions : rule.conditions = [c]) :
    firesAtTick env inNetwork currentDateTime res rule lt = true ↔
      Armed inNetwork rule lt.num ∧ inHolds env (localTimeOccasion res lt currentDateTime) c =
        true := by
  have hresource : (atLocalTime res lt).getResource c.resource c.id = some res.config := by
    rw [hc.resource]
    exact res.getResource_config c.id
  have hitem : (atLocalTime res lt).item res.config c.suffix = some lt := by
    rw [hc.suffix]
    exact localTime_atLocalTime res lt
  have hsensor : sensorOff (atLocalTime res lt) (res.config, c.suffix) = false := by
    have hfront : (atLocalTime res lt).resourcePrefix res.config = rConfig :=
      res.resourcePrefix_config
    have hno : ¬ (rConfig = rSensors ∧ c.suffix ≠ rConfigOn) := fun h => absurd h.1 (by decide)
    unfold sensorOff
    rw [hfront, decide_eq_false hno, Bool.false_and]
  have hnow : (localTimeOccasion res lt currentDateTime).now = lt.num := by
    show now (atLocalTime res lt).localTime currentDateTime = lt.num
    rw [localTime_atLocalTime]
    rfl
  have hoperator : operatorHolds env (atLocalTime res lt)
      (localTimeOccasion res lt currentDateTime) c (res.config, c.suffix) lt =
        inHolds env (localTimeOccasion res lt currentDateTime) c := by
    simp [operatorHolds, hc.op, hc.suffix]
  unfold firesAtTick Armed
  rw [evaluateRule_single hconditions hresource hitem hset hsensor inNetwork, hnow, hoperator,
    henabled]
  simp

/-- What the clock times of a tick say: the start time is between them, and the end time
not passed. -/
theorem inHolds_iff {c : RuleCondition D} {t0 t1 : Int} (hc : LocalTimeIn c t0 t1)
    (hne : t0 ≠ t1) (env : RuleEnv D) {o : Occasion} (ho : o.eItem.2 = rConfigLocalTime) :
    inHolds env o c = true ↔ QDateTime.time env.zone o.previousNow < t0 ∧ t0 ≤
      QDateTime.time env.zone o.now ∧ (t0 < t1 → QDateTime.time env.zone o.now ≤ t1) := by
  have hday := weekDayEnabled_all hc.weekDays (QDateTime.dayOfWeek_range env.zone o.now)
  unfold inHolds
  simp only [ho, true_and, hday, hc.time0, hc.time1]
  generalize QDateTime.time env.zone o.now = t
  generalize QDateTime.time env.zone o.previousNow = pt
  split
  · rename_i hedge
    constructor
    · intro habsurd
      exact absurd habsurd (by decide)
    · rintro ⟨hpt, ht, -⟩
      omega
  · rename_i hedge
    simp only [Bool.true_eq_false, if_false, Bool.or_eq_true, decide_eq_true_eq]
    omega

section Interval

variable {zone : TimeZone} {t0 previous now : Int}

theorem passes_of_times (hlt : QDateTime.wall zone previous < QDateTime.wall zone now)
    (h0 : 0 ≤ t0) (hprevious : QDateTime.time zone previous < t0)
    (hnow : t0 ≤ QDateTime.time zone now) : Passes zone t0 previous now := by
  refine ⟨QDateTime.wall zone now / msecsPerDay, ?_, ?_⟩
  · have hwall := QDateTime.wall_eq zone previous
    have hrange := QDateTime.time_range zone now
    have hwall' := QDateTime.wall_eq zone now
    unfold msecsPerDay at *
    omega
  · have hwall := QDateTime.wall_eq zone now
    omega

theorem sameDay_of_times (hlt : QDateTime.wall zone previous < QDateTime.wall zone now)
    (hminute : QDateTime.wall zone now < QDateTime.wall zone previous + 60000)
    (htimes : QDateTime.time zone previous < QDateTime.time zone now) :
    SameDay zone previous now := by
  have hwall := QDateTime.wall_eq zone previous
  have hwall' := QDateTime.wall_eq zone now
  have hrange := QDateTime.time_range zone now
  have hrange' := QDateTime.time_range zone previous
  unfold SameDay
  unfold msecsPerDay at *
  omega

theorem times_of_passes (hday : SameDay zone previous now) (h0 : 0 ≤ t0 ∧ t0 < msecsPerDay)
    (hpasses : Passes zone t0 previous now) :
    QDateTime.time zone previous < t0 ∧ t0 ≤ QDateTime.time zone now := by
  obtain ⟨day, hlow, hhigh⟩ := hpasses
  have hwall := QDateTime.wall_eq zone previous
  have hwall' := QDateTime.wall_eq zone now
  have hrange := QDateTime.time_range zone now
  have hrange' := QDateTime.time_range zone previous
  unfold SameDay at hday
  unfold msecsPerDay at *
  omega

end Interval

/-- What has to hold of a tick in whose interval the start time lies. -/
def StartSeen (zone : TimeZone) (inNetwork : Bool) (rule : Rule D) (t0 t1 previous now : Int) :
    Prop :=
  Armed inNetwork rule now ∧ SameDay zone previous now ∧ (t0 < t1 → QDateTime.time zone now ≤ t1)

theorem firesAtTick_passes {c : RuleCondition D} {t0 t1 : Int} (hc : LocalTimeIn c t0 t1)
    (hne : t0 ≠ t1) (h0 : 0 ≤ t0 ∧ t0 < msecsPerDay) (env : RuleEnv D) (inNetwork : Bool)
    (res : Resources) (currentDateTime : Int) {rule : Rule D} (henabled : rule.isEnabled = true)
    (hconditions : rule.conditions = [c]) {lt : RuleItem} {ms : Int}
    (hlt : QDateTime.wall env.zone lt.num < QDateTime.wall env.zone ms)
    (hminute : QDateTime.wall env.zone ms < QDateTime.wall env.zone lt.num + 60000)
    (hprevious : previousNow (some (tick lt ms)) currentDateTime = lt.num) :
    (firesAtTick env inNetwork currentDateTime res rule (tick lt ms) = true ↔
        Passes env.zone t0 lt.num ms) ↔
      (Passes env.zone t0 lt.num ms → StartSeen env.zone inNetwork rule t0 t1 lt.num ms) := by
  have hfires := firesAtTick_iff hc env inNetwork res (tick_isSet lt ms) currentDateTime henabled
    hconditions
  have ho : (localTimeOccasion res (tick lt ms) currentDateTime).eItem.2 = rConfigLocalTime := rfl
  have hnow : (localTimeOccasion res (tick lt ms) currentDateTime).now = ms := by
    show now (atLocalTime res (tick lt ms)).localTime currentDateTime = ms
    rw [localTime_atLocalTime]
    rfl
  have hbefore : (localTimeOccasion res (tick lt ms) currentDateTime).previousNow = lt.num := by
    show previousNow (atLocalTime res (tick lt ms)).localTime currentDateTime = lt.num
    rw [localTime_atLocalTime]
    exact hprevious
  rw [inHolds_iff hc hne env ho, hnow, hbefore, tick_num] at hfires
  rw [hfires]
  constructor
  · intro hexact hpasses
    obtain ⟨harmed, hfrom, hto, hend⟩ := hexact.mpr hpasses
    exact ⟨harmed, sameDay_of_times hlt hminute (by omega), hend⟩
  · intro hseen
    constructor
    · rintro ⟨-, hfrom, hto, -⟩
      exact passes_of_times hlt h0.1 hfrom hto
    · intro hpasses
      obtain ⟨harmed, hday, hend⟩ := hseen hpasses
      obtain ⟨hfrom, hto⟩ := times_of_passes hday h0 hpasses
      exact ⟨harmed, hfrom, hto, hend⟩

/-- **`in` fires once per window start**, over every run of ticks, exactly if no tick
with the start time in its interval has midnight in it too, is behind the end of the
window, or finds the rule held back.  `rules k` is the rule as it is at the `k`-th
event. -/
theorem in_fires_iff (env : RuleEnv D) (inNetwork : Bool) (currentDateTime : Int)
    (res : Resources) (c : RuleCondition D) (t0 t1 : Int) (hc : LocalTimeIn c t0 t1)
    (hne : t0 ≠ t1) (h0 : 0 ≤ t0 ∧ t0 < msecsPerDay) (rules : Nat → Rule D)
    (hrules : ∀ k, (rules k).isEnabled = true ∧ (rules k).conditions = [c]) (lt : RuleItem)
    (ticks : List Int) (hticks : Ticking env.zone currentDateTime lt ticks) :
    (∀ k (h : k < ticks.length),
        firesAtTick env inNetwork currentDateTime res (rules k)
            (Transition.stateAt tick lt ticks (k + 1)) = true ↔
          Passes env.zone t0 (Transition.stateAt tick lt ticks k).num ticks[k]) ↔
      ∀ k (h : k < ticks.length),
        Passes env.zone t0 (Transition.stateAt tick lt ticks k).num ticks[k] →
          StartSeen env.zone inNetwork (rules k) t0 t1 (Transition.stateAt tick lt ticks k).num
            ticks[k] := by
  have hone : ∀ k (h : k < ticks.length),
      (firesAtTick env inNetwork currentDateTime res (rules k)
            (Transition.stateAt tick lt ticks (k + 1)) = true ↔
          Passes env.zone t0 (Transition.stateAt tick lt ticks k).num ticks[k]) ↔
        (Passes env.zone t0 (Transition.stateAt tick lt ticks k).num ticks[k] →
          StartSeen env.zone inNetwork (rules k) t0 t1 (Transition.stateAt tick lt ticks k).num
            ticks[k]) := by
    intro k h
    obtain ⟨hlt, hminute, hprevious⟩ := hticks k h
    rw [Transition.stateAt_succ tick lt ticks h]
    exact firesAtTick_passes hc hne h0 env inNetwork res currentDateTime (hrules k).1 (hrules k).2
      hlt hminute hprevious
  constructor
  · intro hexact k h
    exact (hone k h).mp (hexact k h)
  · intro hseen k h
    exact (hone k h).mpr (hseen k h)

def onlyConfig : Resources where
  getResource := fun resource _ => if resource = some rConfig then some 0 else none
  config := 0
  getResource_config := fun _ => if_pos rfl
  resourcePrefix := fun _ => rConfig
  resourcePrefix_config := rfl
  items := fun _ => none

/-- `/config/localtime in T00:00:00/T06:00:00` -/
def fromMidnight : RuleCondition Int :=
  RuleCondition.ofMap RuleEnv.utc
    (RuleCondition.requestMap "/config/localtime" "in"
      (.string (QString.ofLatin1 "T00:00:00/T06:00:00")))

theorem fromMidnight_localTimeIn : LocalTimeIn fromMidnight 0 21600000 := by
  constructor <;> decide +kernel

def midnightRule : Rule Int := { conditions := [fromMidnight] }

def beforeMidnight : RuleItem := { num := 1727999999500, isSet := true }

def behindMidnight : Int := 1728000000500

theorem ticking_midnight : Ticking RuleEnv.utc.zone 0 beforeMidnight [behindMidnight] := by
  intro k hk
  obtain rfl : k = 0 := by simpa using hk
  show QDateTime.wall RuleEnv.utc.zone beforeMidnight.num <
      QDateTime.wall RuleEnv.utc.zone behindMidnight ∧
    QDateTime.wall RuleEnv.utc.zone behindMidnight <
      QDateTime.wall RuleEnv.utc.zone beforeMidnight.num + 60000 ∧
    previousNow (some (tick beforeMidnight behindMidnight)) 0 = beforeMidnight.num
  decide

theorem in_fires_iff_midnight :
    (∀ k (h : k < [behindMidnight].length),
        firesAtTick RuleEnv.utc true 0 onlyConfig midnightRule
            (Transition.stateAt tick beforeMidnight [behindMidnight] (k + 1)) = true ↔
          Passes RuleEnv.utc.zone 0
            (Transition.stateAt tick beforeMidnight [behindMidnight] k).num
            [behindMidnight][k]) ↔
      ∀ k (h : k < [behindMidnight].length),
        Passes RuleEnv.utc.zone 0 (Transition.stateAt tick beforeMidnight [behindMidnight] k).num
            [behindMidnight][k] →
          StartSeen RuleEnv.utc.zone true midnightRule 0 21600000
            (Transition.stateAt tick beforeMidnight [behindMidnight] k).num [behindMidnight][k] :=
  in_fires_iff RuleEnv.utc true 0 onlyConfig fromMidnight 0 21600000 fromMidnight_localTimeIn
    (by decide) (by decide) (fun _ => midnightRule) (fun _ => ⟨by decide, rfl⟩) beforeMidnight
    [behindMidnight] ticking_midnight

/-- **Midnight is missed.**  The window starts at midnight, the tick passes it, and the
rule does not fire. -/
theorem midnight_missed :
    LocalTimeIn fromMidnight 0 21600000 ∧
      Ticking RuleEnv.utc.zone 0 beforeMidnight [behindMidnight] ∧
      Passes RuleEnv.utc.zone 0 beforeMidnight.num behindMidnight ∧
      firesAtTick RuleEnv.utc true 0 onlyConfig midnightRule
        (tick beforeMidnight behindMidnight) = false := by
  refine ⟨fromMidnight_localTimeIn, ticking_midnight, ⟨20000, by decide, by decide⟩, ?_⟩
  rw [← Bool.not_eq_true]
  rw [firesAtTick_iff fromMidnight_localTimeIn RuleEnv.utc true onlyConfig
    (tick_isSet beforeMidnight behindMidnight) 0 (by decide) rfl]
  rintro ⟨-, hholds⟩
  rw [inHolds_iff fromMidnight_localTimeIn (by decide) RuleEnv.utc rfl] at hholds
  -- no clock time is before midnight
  have hbefore := (QDateTime.time_range RuleEnv.utc.zone
    (localTimeOccasion onlyConfig (tick beforeMidnight behindMidnight) 0).previousNow).1
  omega

/-! ## `ddx` -/

/-- The item of a `ddx` condition and the local time. -/
structure Waiting where
  item : RuleItem
  localTime : RuleItem

/-- What happens: a tick, whose event is handled, or another value for the item. -/
inductive WaitingAction where
  | tick (ms : Int)
  | set (rid : ResourceItemDescriptor) (now val : Int)

namespace Waiting

def step (s : Waiting) : WaitingAction → Waiting
  | .tick ms => { s with localTime := RuleEngine.tick s.localTime ms }
  | .set rid now val => { s with item := (s.item.setNumber rid now val).1 }

/-- The local time goes up, with the value before as the previous one, and the item does
not change. -/
def Still (currentDateTime : Int) (s : Waiting) : WaitingAction → Prop
  | .tick ms => s.localTime.num < ms ∧
      previousNow (some (RuleEngine.tick s.localTime ms)) currentDateTime = s.localTime.num
  | .set rid _ val => val = s.item.num ∨ ResourceItem.inRange rid val = false

variable (env : RuleEnv D) (currentDateTime : Int) (res : Resources) (c : RuleCondition D)
  (key : ItemKey)

/-- The condition holds at the event of the `k`-th action, a tick. -/
def HoldsAt (s : Waiting) (acts : List WaitingAction) (k : Nat) : Prop :=
  ∃ ms, acts[k]? = some (.tick ms) ∧
    operatorHolds env res
      (localTimeOccasion res (Transition.stateAt step s acts (k + 1)).localTime currentDateTime)
      c key (Transition.stateAt step s acts (k + 1)).item = true

/-- The first `k` actions have no tick from the time `due` on. -/
def NoneDue (due : Int) (acts : List WaitingAction) (k : Nat) : Prop :=
  ∀ j ms, j < k → acts[j]? = some (.tick ms) → ms < due

/-- The `k`-th action is the first tick that is not before the time `due`. -/
def FirstTick (due : Int) (acts : List WaitingAction) (k : Nat) : Prop :=
  ∃ ms, acts[k]? = some (.tick ms) ∧ due ≤ ms ∧ NoneDue due acts k

theorem localTime_before {s : Waiting} {acts : List WaitingAction} {due changed : Int}
    (hchanged : s.item.lastChanged = some changed) (hstart : s.localTime.num < due)
    (hstill : Transition.AllSteps step (Still currentDateTime) s acts) :
    ∀ k, k ≤ acts.length → (Transition.stateAt step s acts k).item.lastChanged =
      some changed ∧
        ((Transition.stateAt step s acts k).localTime.num < due ↔ NoneDue due acts k) := by
  refine @Transition.stateAt_induction _ _ step s acts
    (fun k now => now.item.lastChanged = some changed ∧
      (now.localTime.num < due ↔ NoneDue due acts k)) ?_ ?_
  · exact ⟨hchanged, fun _ j ms hj => absurd hj (Nat.not_lt_zero j), fun _ => hstart⟩
  · intro k hk hbefore
    obtain ⟨hlast, hiff⟩ := hbefore
    have hok := hstill k hk
    have hget : acts[k]? = some acts[k] := List.getElem?_eq_getElem hk
    generalize Transition.stateAt step s acts k = now at hlast hiff hok
    generalize acts[k] = act at hok hget
    cases act with
    | set rid at' val =>
      refine ⟨?_, ?_⟩
      · show (now.item.setNumber rid at' val).1.lastChanged = some changed
        rw [RuleItem.setNumber_lastChanged hok, hlast]
      · show now.localTime.num < due ↔ _
        rw [hiff]
        constructor
        · intro hall j ms hj hact
          rcases Nat.lt_succ_iff_lt_or_eq.mp hj with hj | rfl
          · exact hall j ms hj hact
          · rw [hget] at hact
            cases hact
        · intro hall j ms hj hact
          exact hall j ms (Nat.lt_succ_of_lt hj) hact
    | tick ms =>
      obtain ⟨hlt, -⟩ := hok
      refine ⟨hlast, ?_⟩
      show ms < due ↔ _
      constructor
      · intro hms j ms' hj hact
        rcases Nat.lt_succ_iff_lt_or_eq.mp hj with hj | rfl
        · have hearlier : now.localTime.num < due := by omega
          exact hiff.mp hearlier j ms' hj hact
        · rw [hget] at hact
          cases hact
          exact hms
      · intro hall
        exact hall k ms (Nat.lt_succ_self k) hget

/-- **`ddx` fires once**: over every run of ticks in which the item does not change, the
condition holds at the first tick that is not before `changed` plus the seconds of the
condition, and at no other. -/
theorem ddx_fires_once (hop : c.op = .ddx) (s : Waiting) (changed : Int)
    (hchanged : s.item.lastChanged = some changed)
    (hstart : s.localTime.num < QDateTime.addSecs changed c.num) (acts : List WaitingAction)
    (hstill : Transition.AllSteps step (Still currentDateTime) s acts) :
    (∀ k, HoldsAt env currentDateTime res c key s acts k ↔
        FirstTick (QDateTime.addSecs changed c.num) acts k) ∧
      ((∃ (k : Nat) (ms : Int), acts[k]? = some (.tick ms) ∧ QDateTime.addSecs changed c.num ≤ ms) →
        ∃! k, HoldsAt env currentDateTime res c key s acts k) := by
  have hbefore := localTime_before currentDateTime hchanged hstart hstill
  have hiff : ∀ k, HoldsAt env currentDateTime res c key s acts k ↔
      FirstTick (QDateTime.addSecs changed c.num) acts k := by
    intro k
    apply exists_congr
    intro ms
    apply and_congr_right
    intro hact
    obtain ⟨hk, hget⟩ := List.getElem?_eq_some_iff.mp hact
    obtain ⟨-, hearlier⟩ := hbefore k (Nat.le_of_lt hk)
    obtain ⟨hlast, -⟩ := hbefore (k + 1) hk
    have hok := hstill k hk
    rw [hget] at hok
    have hnext : (Transition.stateAt step s acts (k + 1)).localTime =
        RuleEngine.tick (Transition.stateAt step s acts k).localTime ms := by
      rw [Transition.stateAt_succ step s acts hk, hget]
      rfl
    rw [← hearlier, hnext]
    generalize Transition.stateAt step s acts k = before at hok
    generalize (Transition.stateAt step s acts (k + 1)).item = item at hlast
    -- the interval of the tick starts at the local time before it
    have hnow : (localTimeOccasion res (RuleEngine.tick before.localTime ms)
        currentDateTime).now = ms := by
      show now (atLocalTime res _).localTime currentDateTime = ms
      rw [localTime_atLocalTime]
      rfl
    have hprevious : (localTimeOccasion res (RuleEngine.tick before.localTime ms)
        currentDateTime).previousNow = before.localTime.num := by
      show previousNow (atLocalTime res _).localTime currentDateTime = before.localTime.num
      rw [localTime_atLocalTime]
      exact hok.2
    have heItem : (localTimeOccasion res (RuleEngine.tick before.localTime ms)
        currentDateTime).eItem.2 = rConfigLocalTime := rfl
    unfold operatorHolds ddxHolds
    simp only [hop, heItem, hlast, hnow, hprevious, decide_true, Bool.true_and, decide_eq_true_eq]
    exact And.comm
  refine ⟨hiff, ?_⟩
  rintro ⟨k, ms, hact, hdue⟩
  simp only [hiff]
  -- the first of the ticks that are late enough
  classical
  have hex : ∃ (k : Nat) (ms : Int), acts[k]? = some (.tick ms) ∧ QDateTime.addSecs changed c.num ≤
      ms := ⟨k, ms, hact, hdue⟩
  obtain ⟨first, hfirst, hdueFirst⟩ := Nat.find_spec hex
  refine ⟨Nat.find hex, ⟨first, hfirst, hdueFirst, ?_⟩, ?_⟩
  · intro j ms' hj hact'
    have hmin := Nat.find_min hex hj
    by_contra hlate
    exact hmin ⟨ms', hact', by omega⟩
  · rintro k' ⟨ms', hact', hdue', hearlier⟩
    have hle : Nat.find hex ≤ k' := Nat.find_min' hex ⟨ms', hact', hdue'⟩
    rcases Nat.lt_or_eq_of_le hle with hlt | heq
    · have hcontra := hearlier _ first hlt hfirst
      omega
    · exact heq.symm

/-- `/sensors/1/state/buttonevent ddx PT00:00:10` -/
def tenSeconds : RuleCondition Int :=
  RuleCondition.ofMap RuleEnv.utc
    (RuleCondition.requestMap "/sensors/1/state/buttonevent" "ddx"
      (.string (QString.ofLatin1 "PT00:00:10")))

theorem tenSeconds_op : tenSeconds.op = .ddx ∧ tenSeconds.num = 10 := by
  decide +kernel

def waitingSample : Waiting where
  item := { num := 1002, isSet := true, lastChanged := some 1000000 }
  localTime := { num := 1000500, isSet := true }

def sampleTicks : List WaitingAction := [.tick 1009000, .tick 1010000, .tick 1011500]

theorem sampleTicks_still : Transition.AllSteps step (Still 0) waitingSample sampleTicks := by
  intro k hk
  have hcases : k = 0 ∨ k = 1 ∨ k = 2 := by
    have hlength : sampleTicks.length = 3 := rfl
    omega
  rcases hcases with rfl | rfl | rfl <;> exact ⟨by decide +revert, by rfl⟩

theorem ddx_fires_once_tenSeconds :
    (∀ k, HoldsAt RuleEnv.utc 0 onlyConfig tenSeconds (1, "state/buttonevent") waitingSample
        sampleTicks k ↔ FirstTick (QDateTime.addSecs 1000000 tenSeconds.num) sampleTicks k) ∧
      ((∃ (k : Nat) (ms : Int), sampleTicks[k]? = some (.tick ms) ∧
          QDateTime.addSecs 1000000 tenSeconds.num ≤ ms) →
        ∃! k, HoldsAt RuleEnv.utc 0 onlyConfig tenSeconds (1, "state/buttonevent") waitingSample
          sampleTicks k) :=
  ddx_fires_once RuleEnv.utc 0 onlyConfig tenSeconds (1, "state/buttonevent") tenSeconds_op.1
    waitingSample 1000000 rfl (by rw [tenSeconds_op.2]; decide) sampleTicks sampleTicks_still

end Waiting

end RuleEngine
end DeconzRest

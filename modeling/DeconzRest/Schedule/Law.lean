import DeconzRest.Schedule.Steps

/-!
# No schedule is triggered early or twice a day

The law about a schedule is kept beside it: when it was last armed, the seconds that its timer
was given, the point in time that was asked for, and the days on which it was triggered since
its time was changed (`Law`).  It is written from the requests and the ticks alone, not from
the fields `endtime`, `datetime` and `lastTriggerDatetime` by which the code decides.

These steps do not keep it: a timer that is enabled again without its time, the seconds of a `PT`
text, the second before a date, a refused time of a weekly schedule.
-/

namespace DeconzRest
namespace Schedules

open QString RuleRequest Transition QDateTime Option

variable {D : Type} (env : ScheduleEnv D)

/-! ## The law -/

/-- What is asked of a schedule -/
structure Law where
  /-- when it was last created, given a time, enabled or triggered -/
  armed : Int
  /-- the seconds of its timer, with the random part that was chosen -/
  wait : Nat
  /-- the point in time of its date -/
  due : Int
  /-- the days on which it was triggered, since its time was changed -/
  fired : List Int

def today (now : Int) : Int := date (env.clock.wall now)

def askedDue (clock : SystemClock) (timeSpec : TimeSpec) (time : QString) (random : Nat) : Int :=
  match clock.fromIso time, timeSpec with
  | some w, .utc => addSecs w random
  | some w, .localTime => addSecs (clock.instant w) random
  | none, _ => 0

def Law.newTime (clock : SystemClock) (now : Int) (rand : Nat) (times : QString × TimeSpec)
    (law : Law) : Law :=
  match cutRandom clock times.1 with
  | none => law
  | some (time, randomMax) =>
    let law := { law with armed := now, fired := [] }
    let random := randomTime randomMax rand
    match readTime clock time with
    | .repeating _ t | .timer t => { law with wait := t.total + random }
    | .absolute => { law with due := askedDue clock times.2 time random }
    | .weekly _ _ | .weeklyRandom | .unmatched => law

def GivesTime (times : QString × TimeSpec) : Prop :=
  times.1 ≠ [] ∧ isReadable env times.1 = true

instance (times : QString × TimeSpec) : Decidable (GivesTime env times) :=
  inferInstanceAs (Decidable (_ ∧ _))

/-- The body enables a schedule that is disabled. -/
def EnablesAgain (s : Schedule D) (map : List (QString × QVariant D)) : Prop :=
  isEnabled s = false ∧ enables map

instance (s : Schedule D) (map : List (QString × QVariant D)) : Decidable (EnablesAgain s map) :=
  inferInstanceAs (Decidable (_ ∧ _))

/-- The law behind a request about the schedule -/
def Law.update (now : Int) (rand : Nat) (s : Schedule D) (map : List (QString × QVariant D))
    (law : Law) : Law :=
  let times := readTimes (rereadTimes s map)
  if GivesTime env times then law.newTime env.clock now rand times
  else if EnablesAgain s map then { law with armed := now }
  else law

def Law.trigger (now : Int) (law : Law) : Law :=
  { law with armed := now, fired := today env now :: law.fired }

/-- The laws of all schedules behind a step -/
def lawStep (sys : ScheduleSystem D) (act : Action) (laws : Nat → Law) : Nat → Law :=
  match act with
  | .tick rand =>
    match triggered env sys (.tick rand) with
    | some (j, _) => Function.update laws j ((laws j).trigger env sys.nextTick)
    | none => laws
  | .create ms rand content =>
    match created env sys.schedules (sys.at ms) rand content with
    | some _ =>
      let map := (parseContent env.qt content).1.toMap
      Function.update laws sys.schedules.length
        ((laws sys.schedules.length).newTime env.clock (sys.at ms) rand (readTimes map))
    | none => laws
  | .update ms rand id content =>
    match target env sys.schedules id content with
    | some (i, s, map) =>
      Function.update laws i ((laws i).update env (sys.at ms) rand s map)
    | none => laws
  | .delete _ => laws

def watchedStep (st : ScheduleSystem D × (Nat → Law)) (act : Action) :
    ScheduleSystem D × (Nat → Law) :=
  (step env st.1 act, lawStep env st.1 act st.2)

theorem stateAt_watchedStep (st : ScheduleSystem D × (Nat → Law)) (acts : List Action) (k : Nat) :
    (stateAt (watchedStep env) st acts k).1 = stateAt (step env) st.1 acts k := by
  have hrun : ∀ acts : List Action, (run (watchedStep env) st acts).1 = run (step env) st.1 acts := by
    intro acts
    induction acts using List.reverseRecOn with
    | nil => rfl
    | append_singleton acts act ih =>
      rw [run_concat, run_concat, ← ih]
      rfl
  exact hrun _

/-- A trigger that the law allows: a timer when its seconds are over, a date when it has come,
and a weekly time on a day of its own -/
def Allowed (now : Int) (s : Schedule D) (law : Law) : Prop :=
  match s.type with
  | .timer => law.armed + 1000 * law.wait ≤ now
  | .absoluteTime => law.due ≤ now
  | .recurringTime => today env now ∉ law.fired
  | .invalid => True

def NotEarly (st : ScheduleSystem D × (Nat → Law)) (act : Action) : Prop :=
  ∀ j command, triggered env st.1 act = some (j, command) → ∀ s, st.1.schedules[j]? = some s →
    Allowed env st.1.nextTick s (st.2 j)

/-! ## The condition -/

/-- The local time is not put forward before a timer ends. -/
def TimerKeeps (now : Int) (timeSpec : TimeSpec) (seconds : Nat) : Prop :=
  timeSpec = .utc →
    env.clock.localOffset (env.clock.toLocal now (addSecs now (seconds : Int))) ≤
      env.clock.offset now

/-- The local reading of a date is not taken for an earlier point in time. -/
def DateKeeps (now : Int) (timeSpec : TimeSpec) (time : QString) (random : Nat) : Prop :=
  ∀ w, env.clock.fromIso time = some w →
    match timeSpec with
    | .utc =>
      env.clock.localOffset (env.clock.toLocal now (addSecs w random)) ≤ env.clock.offset now
    | .localTime =>
      let due := addSecs (env.clock.instant w) random
      env.clock.localOffset (env.clock.wall due) ≤ env.clock.offset due

/-- The local time keeps what a text asks for. -/
def ZoneKeeps (now : Int) (rand : Nat) (enabled : Bool) (times : QString × TimeSpec) : Prop :=
  match cutRandom env.clock times.1 with
  | none => True
  | some (time, randomMax) =>
    let random := randomTime randomMax rand
    match readTime env.clock time with
    | .repeating _ t | .timer t => enabled = true → TimerKeeps env now times.2 (t.total + random)
    | .absolute => DateKeeps env now times.2 time random
    | .weekly _ _ | .weeklyRandom | .unmatched => True

/-- A schedule that may be enabled as it is: it is weekly, or a date that has its end or has
come by the next tick. -/
def KeepsEnd (nextTick : Int) (s : Schedule D) : Prop :=
  s.type ≠ .timer ∧ (s.type = .absoluteTime → s.endtime = none → ∀ w, s.datetime = some w →
    env.clock.instant w ≤ nextTick)

/-- The new time of a request is one that it moves the schedule to: a `PT` text has no seconds,
and a text of the branch without code is for no timer. -/
def TimeKeeps (nextTick : Int) (s : Schedule D) (map : List (QString × QVariant D))
    (times : QString × TimeSpec) : Prop :=
  match cutRandom env.clock times.1 with
  | none => True
  | some (time, _) =>
    match readTime env.clock time with
    | .timer t => t.seconds = 0
    | .weeklyRandom => s.type ≠ .timer ∧ (EnablesAgain s map → KeepsEnd env nextTick s)
    | _ => True

def statusBehind (s : Schedule D) (map : List (QString × QVariant D)) : QString :=
  ((QVariant.text? map "status").filter fun status =>
    status == ofLatin1 "enabled" || status == ofLatin1 "disabled").getD s.status

/-- **The condition on one step.**
* A tick: the local clock is not put back to the day before; and in the second before the date
  of an enabled schedule, another schedule in front of it is due.
* A request: the local time is not put forward; a new time is moved to; a time that is refused
  is not for a weekly schedule that was triggered today; and a schedule is enabled again without
  a time only if it keeps its end. -/
def Keeps (sys : ScheduleSystem D) : Action → Prop
  | .tick _ => today env sys.lastTick ≤ today env sys.nextTick ∧
      ∀ (j : Nat) (s : Schedule D) (w : Int), sys.schedules[j]? = some s → isActive s → s.type =
        .absoluteTime →
        s.datetime = some w → s.endtime ≠ none → sys.nextTick < env.clock.instant w →
          env.clock.instant w < sys.nextTick + 1000 → ∃ i < j, ∃ s', sys.schedules[i]? = some s' ∧
            IsDue env sys.nextTick s'
  | .create ms rand content => created env sys.schedules (sys.at ms) rand content ≠ none →
      let map := (parseContent env.qt content).1.toMap
      ZoneKeeps env (sys.at ms) rand (readStatus map == ofLatin1 "enabled") (readTimes map)
  | .update ms rand id content => ∀ i s map, target env sys.schedules id content = some (i, s, map) →
      let times := readTimes (rereadTimes s map)
      (GivesTime env times → TimeKeeps env sys.nextTick s map times ∧
        ZoneKeeps env (sys.at ms) rand (statusBehind s map == ofLatin1 "enabled") times) ∧
      (times.1 ≠ [] → ¬ GivesTime env times → s.type = .recurringTime →
        s.lastTriggerDatetime.map date ≠ some (today env sys.lastTick)) ∧
      (¬ GivesTime env times → EnablesAgain s map → KeepsEnd env sys.nextTick s)
  | .delete _ => True

def Dated (lastTick : Int) (s : Schedule D) (law : Law) : Prop :=
  match s.type with
  | .timer => (law.wait : Int) ≤ s.timeout
  | .absoluteTime => ∃ w, s.datetime = some w ∧ law.due ≤ env.clock.instant w
  | .recurringTime => ∃ w, s.datetime = some w ∧ InStep lastTick w
  | .invalid => True

/-- The end of an enabled schedule against the law -/
def Armed (lastTick : Int) (s : Schedule D) (law : Law) : Prop :=
  match s.type with
  | .timer => ∃ e, s.endtime = some e ∧ law.armed + 1000 * law.wait ≤ e
  | .absoluteTime => s.endtime ≠ none ∨ law.due ≤ lastTick + 1000
  | .recurringTime | .invalid => True

/-- The last trigger of a weekly schedule against the law: today is among the days only if it
is the day of the last trigger. -/
def Counted (lastTick : Int) (s : Schedule D) (law : Law) : Prop :=
  s.type = .recurringTime → ∀ day ∈ law.fired, day ≤ today env lastTick ∧
    (day = today env lastTick → s.lastTriggerDatetime.map date = some day)

/-- **The invariant** of a schedule that is not deleted -/
def Lawful (lastTick : Int) (s : Schedule D) (law : Law) : Prop :=
  s.state = .normal → Dated env lastTick s law ∧
    (isEnabled s = true → Armed lastTick s law) ∧ Counted env lastTick s law

def AllLawful (st : ScheduleSystem D × (Nat → Law)) : Prop :=
  ∀ j s, st.1.schedules[j]? = some s → Lawful env st.1.lastTick s (st.2 j)

/-! ## Ticks -/

section tick

variable {env} {sys : ScheduleSystem D} {s s' : Schedule D} {law : Law}

theorem lawful_later (hdays : today env sys.lastTick ≤ today env sys.nextTick)
    (h : Lawful env sys.lastTick s law) : Lawful env sys.nextTick s law := by
  intro hnormal
  obtain ⟨hdated, harmed, hcounted⟩ := h hnormal
  refine ⟨?_, ?_, ?_⟩
  · unfold Dated InStep ScheduleSystem.nextTick at *
    split at hdated <;> simp_all
  · intro henabled
    have hend := harmed henabled
    unfold Armed ScheduleSystem.nextTick at *
    split at hend <;> simp_all
    exact hend.imp id fun hdue => by omega
  · intro htype day hday
    obtain ⟨hle, hlast⟩ := hcounted htype day hday
    exact ⟨by omega, fun htoday => hlast (by omega)⟩

theorem lawful_passed (h : Lawful env sys.nextTick s law) (hpassed : Passed env s s') :
    Lawful env sys.nextTick s' law := by
  rcases hpassed with rfl | hdeleted | ⟨e, r, rfl, -⟩
  · exact h
  · intro hnormal
    rw [hdeleted] at hnormal
    cases hnormal
  · intro hnormal
    obtain ⟨hdated, -, hcounted⟩ := h hnormal
    refine ⟨hdated, ?_, hcounted⟩
    intro henabled
    exact (not_isActive_disable env s ⟨hnormal, henabled⟩).elim

theorem lawful_triggered (hdays : today env sys.lastTick ≤ today env sys.nextTick)
    (h : Lawful env sys.lastTick s law) (hdue : IsDue env sys.nextTick s)
    (htriggered : Triggered env sys.nextTick s s') :
    Lawful env sys.nextTick s' (law.trigger env sys.nextTick) := by
  obtain ⟨hdated, harmed, hcounted⟩ := lawful_later hdays h hdue.1.1
  obtain ⟨-, harmed', -⟩ := h hdue.1.1
  rcases htriggered with hdeleted | ⟨spent, d, hspent, ⟨habsolute, hstep⟩, rfl⟩
  · intro hnormal
    rw [hdeleted] at hnormal
    cases hnormal
  · intro hnormal
    cases hspent with
    | disabled hlast =>
      refine ⟨?_, ?_, ?_⟩
      · rcases hlast with htype | ⟨htype, -⟩
        · simp only [Dated, disable, htype] at hdated ⊢
          rw [habsolute htype]
          exact hdated
        · simp only [Dated, disable, htype] at hdated ⊢
          exact hdated
      · intro henabled
        exact (not_isActive_disable env s ⟨hnormal, henabled⟩).elim
      · intro htype
        rcases hlast with hother | ⟨hother, -⟩ <;> simp [disable, hother] at htype
    | rearmed htype hmore =>
      have hend := harmed' hdue.1.2
      simp only [Dated, Armed, htype] at hdated hend
      obtain ⟨e, he, -⟩ := hend
      refine ⟨by simpa [Dated, htype, Law.trigger] using hdated, ?_, fun hweekly =>
        by simp [htype] at hweekly⟩
      intro _
      simp only [Armed, htype, he, map_some, Law.trigger, addSecs]
      exact ⟨_, rfl, by omega⟩
    | weekly htype =>
      refine ⟨?_, ?_, ?_⟩
      · simp only [Dated, htype] at hdated ⊢
        rcases hstep with rfl | ⟨w, rfl, hw⟩
        · exact hdated
        · exact ⟨w, rfl, hw⟩
      · intro _
        simp [Armed, htype]
      · intro _ day hday
        refine ⟨?_, fun htoday => by simp [htoday, today]⟩
        rcases List.mem_cons.mp hday with rfl | hday
        · exact Int.le_refl _
        · exact (hcounted htype day hday).1

/-- **A due schedule is not early.** -/
theorem allowed_of_due (hdays : today env sys.lastTick ≤ today env sys.nextTick)
    (h : Lawful env sys.lastTick s law) (hdue : IsDue env sys.nextTick s)
    (hsecond : s.type = .absoluteTime → s.endtime ≠ none → ∀ w, s.datetime = some w → sys.nextTick <
      env.clock.instant w → ¬ env.clock.instant w < sys.nextTick + 1000) :
    Allowed env sys.nextTick s law := by
  obtain ⟨hactive, htime⟩ := hdue
  obtain ⟨hdated, harmed, hcounted⟩ := h hactive.1
  have hend := harmed hactive.2
  unfold Allowed
  cases htype : s.type with
  | absoluteTime =>
    simp only [Dated, Armed, htype] at htime hdated hend
    obtain ⟨w, hw, hasked⟩ := hdated
    simp only
    by_cases hnone : s.endtime = none
    · have hlater := hend.resolve_left fun hsome => hsome hnone
      unfold ScheduleSystem.nextTick
      omega
    · -- a date is due from one second before it on
      have hnear := hsecond htype hnone w hw
      obtain ⟨e, he⟩ := ne_none_iff_exists'.mp hnone
      have hdiff := htime.2
      simp only [absoluteDiff, he, hw] at hdiff
      by_cases hpast : env.clock.instant w ≤ sys.nextTick
      · omega
      · rw [secsTo_future (by omega)] at hdiff
        have hfar := hnear (by omega)
        omega
  | timer =>
    simp only [Armed, htype] at htime hend
    obtain ⟨e, he, hwait⟩ := hend
    have hpast := htime.1 e he
    simp only
    omega
  | recurringTime =>
    simp only [Dated, htype] at htime hdated
    obtain ⟨w, hw, hstep⟩ := hdated
    obtain ⟨-, hfired, hclock, -⟩ := htime
    simp only
    intro htoday
    obtain ⟨hle, hlast⟩ := hcounted htype _ htoday
    refine hfired ⟨hlast (by omega), ?_⟩
    -- both clock times have the same milliseconds, or that of the schedule has none
    simp only [clockTime, hw, Option.elim_some, weeklyDiff, QTime.secsTo, timeOfDay, msecsPerDay,
      SystemClock.wall, wall, SystemClock.zone,
      InStep, ScheduleSystem.nextTick] at hclock hstep ⊢
    omega
  | invalid => trivial

theorem tick_lawful {laws : Nat → Law} {rand : Nat} (h : AllLawful env (sys, laws))
    (hkeeps : Keeps env sys (.tick rand)) :
    NotEarly env (sys, laws) (.tick rand) ∧
      AllLawful env (watchedStep env (sys, laws) (.tick rand)) := by
  obtain ⟨hdays, hsecond⟩ := hkeeps
  constructor
  · intro j command htriggered s hs
    rcases tick_cases env hs rand with ⟨-, -, -, hother⟩ | ⟨-, -, -, hdue, -, hfront, -⟩
    · exact (hother command htriggered).elim
    · refine allowed_of_due hdays (h j s hs) hdue ?_
      intro htype hend w hw hfuture hnear
      obtain ⟨i, hi, s', hs', hdue'⟩ := hsecond j s w hs hdue.1 htype hw hend hfuture hnear
      exact hfront i hi s' hs' hdue'
  · intro j s' hs'
    obtain ⟨s, hs⟩ := tick_get env hs'
    have hlater : Lawful env sys.nextTick s (laws j) := lawful_later hdays (h j s hs)
    rcases tick_cases env hs rand with ⟨s₁, hget, hpassed, hother⟩ |
      ⟨s₁, command, hget, hdue, htriggered, -, hserved⟩
    · have hlaw : lawStep env sys (.tick rand) laws j = laws j := by
        cases hone : triggered env sys (.tick rand) with
        | none => simp [lawStep, hone]
        | some one =>
          have hne : j ≠ one.1 := by
            rintro rfl
            exact hother one.2 hone
          simp [lawStep, hone, Function.update_of_ne hne]
      have heq : s' = s₁ := some.inj (hs'.symm.trans hget)
      show Lawful env sys.nextTick s' (lawStep env sys (.tick rand) laws j)
      rw [hlaw, heq]
      exact lawful_passed hlater hpassed
    · have hlaw : lawStep env sys (.tick rand) laws j = (laws j).trigger env sys.nextTick := by
        simp [lawStep, hserved]
      have heq : s' = s₁ := some.inj (hs'.symm.trans hget)
      show Lawful env sys.nextTick s' (lawStep env sys (.tick rand) laws j)
      rw [hlaw, heq]
      exact lawful_triggered hdays (h j s hs) hdue htriggered

end tick

/-! ## New times -/

section time

variable {env} {lastTick now : Int} {rand : Nat} {s : Schedule D} {law : Law}

theorem startTimer_lawful {timeSpec : TimeSpec} {seconds recurring : Nat}
    (hdated : s.type ≠ .timer → Dated env lastTick s law)
    (hzone : isEnabled s = true → TimerKeeps env now timeSpec seconds) :
    Lawful env lastTick (startTimer env now timeSpec (seconds : Int) recurring s)
      { law with armed := now, fired := [], wait := seconds } := by
  -- the end, if there is one, is not before the seconds are over
  have hend : isEnabled s = true → now + 1000 * (seconds : Int) ≤
      timerEnd env.clock now timeSpec (seconds : Int) := by
    intro henabled
    cases timeSpec with
    | utc =>
      have hoffset := hzone henabled rfl
      simp only [timerEnd, SystemClock.instant]
      unfold SystemClock.toLocal addSecs at *
      omega
    | localTime => exact Int.le_refl _
  intro _
  refine ⟨?_, ?_, fun _ day hday => by cases hday⟩
  · by_cases hpos : 0 < (seconds : Int)
    · have htype : (startTimer env now timeSpec (seconds : Int) recurring s).type = .timer :=
        if_pos hpos
      simp only [Dated, htype]
      exact Int.le_refl _
    · have htype : (startTimer env now timeSpec (seconds : Int) recurring s).type = s.type :=
        if_neg hpos
      cases hs : s.type with
      | timer =>
        simp [Dated, hs, startTimer]
      | absoluteTime | recurringTime | invalid =>
        have hbefore := hdated (by simp [hs])
        unfold Dated at hbefore ⊢
        rw [htype]
        rw [hs] at hbefore ⊢
        exact hbefore
  · intro henabled
    have hs : isEnabled s = true := henabled
    have hsome : (startTimer env now timeSpec (seconds : Int) recurring s).endtime =
        some (timerEnd env.clock now timeSpec (seconds : Int)) := if_pos hs
    unfold Armed
    split
    · exact ⟨_, hsome, hend hs⟩
    · exact .inl (by simp [hsome])
    · trivial
    · trivial

theorem setWeekly_lawful {timeSpec : TimeSpec} {weekBitmap : UInt8} {t : Hms} {random : Nat} :
    Lawful env lastTick (setWeekly env now timeSpec weekBitmap t random s)
      { law with armed := now, fired := [] } := by
  intro _
  refine ⟨?_, fun _ => trivial, fun _ day hday => by cases hday⟩
  exact ⟨_, rfl, .inl (weeklyDatetime_mod _ _ _ _ _)⟩

theorem askedDue_le {timeSpec : TimeSpec} {time : QString} {random : Nat} {w : Int}
    (hw : absoluteDatetime env.clock now timeSpec time random = some w)
    (hzone : DateKeeps env now timeSpec time random) :
    askedDue env.clock timeSpec time random ≤ env.clock.instant w := by
  unfold absoluteDatetime at hw
  rw [map_eq_some_iff] at hw
  obtain ⟨w₀, hiso, rfl⟩ := hw
  unfold askedDue
  rw [hiso]
  cases timeSpec with
  | utc =>
    have hoffset := hzone w₀ hiso
    simp only [SystemClock.instant]
    unfold SystemClock.toLocal at *
    omega
  | localTime =>
    have hoffset := hzone w₀ hiso
    simp only [SystemClock.instant, SystemClock.wall, SystemClock.zone, wall] at *
    omega

theorem lawful_of_fields {s' : Schedule D} (h : Lawful env lastTick s law)
    (hstate : s'.state = s.state) (htype : s'.type = s.type) (hdate : s'.datetime = s.datetime)
    (htimeout : s'.timeout = s.timeout) (hstatus : s'.status = s.status)
    (hend : s'.endtime = s.endtime) (hlast : s'.lastTriggerDatetime = s.lastTriggerDatetime) :
    Lawful env lastTick s' law := by
  unfold Lawful Dated Armed Counted isEnabled at *
  rwa [hstate, htype, hdate, htimeout, hstatus, hend, hlast]

theorem absolute_lawful {w : Int} (hdue : law.due ≤ env.clock.instant w)
    (htype : s.type = .absoluteTime) (hdate : s.datetime = some w) (hend : s.endtime ≠ none) :
    Lawful env lastTick s law := by
  intro _
  refine ⟨?_, ?_, ?_⟩
  · simp only [Dated, htype, hdate]
    exact ⟨w, rfl, hdue⟩
  · intro _
    simp only [Armed, htype]
    exact .inl hend
  · intro hweekly
    rw [htype] at hweekly
    cases hweekly

end time

/-! ## Requests -/

section requests

variable {env} {sys : ScheduleSystem D} {now : Int} {rand : Nat} {s : Schedule D} {law : Law}

theorem created_lawful {schedules : List (Schedule D)} {content : QString} {lastTick : Int}
    (h : created env schedules now rand content = some s)
    (hzone : ZoneKeeps env now rand
      (readStatus (parseContent env.qt content).1.toMap == ofLatin1 "enabled")
      (readTimes (parseContent env.qt content).1.toMap)) :
    Lawful env lastTick s
      (law.newTime env.clock now rand (readTimes (parseContent env.qt content).1.toMap)) := by
  unfold created at h
  split at h
  · rename_i s₁ hok
    cases h
    obtain ⟨command, time, randomMax, -, -, hcut, htype, rfl⟩ := jsonToSchedule_ok env hok
    clear hok
    generalize (parseContent env.qt content).1.toMap = map at *
    obtain ⟨name, hname⟩ := nameById_kept { { startTime env now (readTimes map).2 time randomMax rand
        (readParameters schedules map command {}) with
      jsonString := jsonText env (keptMap env now true map)
      jsonMap := keptMap env now true map } with id := newId schedules }
    rw [hname]
    unfold Law.newTime
    unfold ZoneKeeps at hzone
    rw [hcut] at hzone ⊢
    simp only at hzone htype ⊢
    unfold startTime at htype ⊢
    have hnone : Dated env lastTick (readParameters schedules map command {}) law := trivial
    cases hread : readTime env.clock time with
    | repeating times t =>
      simp only [hread] at hzone ⊢
      exact lawful_of_fields (s := startTimer env now (readTimes map).2 _ times _)
        (startTimer_lawful (fun _ => hnone) hzone) rfl rfl rfl rfl rfl rfl rfl
    | timer t =>
      simp only [hread] at hzone ⊢
      exact lawful_of_fields (s := startTimer env now (readTimes map).2 _ 1 _)
        (startTimer_lawful (fun _ => hnone) hzone) rfl rfl rfl rfl rfl rfl rfl
    | weekly weekBitmap t =>
      exact lawful_of_fields (s := setWeekly env now (readTimes map).2 weekBitmap t _ _)
        setWeekly_lawful rfl rfl rfl rfl rfl rfl rfl
    | weeklyRandom | unmatched =>
      simp only [hread] at htype
      exact absurd rfl htype
    | absolute =>
      simp only [hread] at hzone htype ⊢
      cases hdate : absoluteDatetime env.clock now (readTimes map).2 time
          (randomTime randomMax rand) with
      | none =>
        rw [hdate] at htype
        exact absurd rfl htype
      | some w => exact absolute_lawful (askedDue_le hdate hzone) rfl rfl (by simp [startAbsolute])
  · cases h

variable (env) in
theorem setAttributes_end (id : QString) (map : List (QString × QVariant D)) (s : Schedule D) :
    (setAttributes env id map s).1.status = statusBehind s map ∧
      (isEnabled (setAttributes env id map s).1 = true → (setAttributes env id map s).1.endtime =
        s.endtime ∧ (isEnabled s = true ∨ EnablesAgain s map)) := by
  have hstatus := setAttributes_status env id map s
  unfold statusBehind isEnabled EnablesAgain enables isEnabled
  cases hfilter : (QVariant.text? map "status").filter fun status =>
      status == ofLatin1 "enabled" || status == ofLatin1 "disabled" with
  | none =>
    rw [hfilter, Prod.mk.injEq] at hstatus
    rw [hstatus.1, hstatus.2]
    exact ⟨rfl, fun henabled => ⟨rfl, .inl henabled⟩⟩
  | some status =>
    rw [hfilter, Prod.mk.injEq] at hstatus
    obtain ⟨htext, -⟩ := Option.filter_eq_some_iff.mp hfilter
    have hne : ofLatin1 "enabled" ≠ ofLatin1 "disabled" := by decide
    rw [hstatus.1, hstatus.2]
    refine ⟨rfl, fun henabled => ?_⟩
    rw [beq_iff_eq] at henabled
    subst henabled
    refine ⟨if_neg hne, ?_⟩
    by_cases hbefore : (s.status == ofLatin1 "enabled") = true
    · exact .inl hbefore
    · exact .inr ⟨by simpa using hbefore, htext⟩

theorem kept_time_lawful {s' : Schedule D} {map : List (QString × QVariant D)}
    (h : Lawful env sys.lastTick s law) (hstate : s'.state = s.state) (htype : s'.type = s.type)
    (hdate : s'.datetime = s.datetime) (htimeout : s'.timeout = s.timeout)
    (hend : isEnabled s' = true → s'.endtime = s.endtime ∧ (isEnabled s = true ∨ EnablesAgain s map))
    (hlast : s'.lastTriggerDatetime = s.lastTriggerDatetime ∨
      (s.type = .recurringTime → s.lastTriggerDatetime.map date ≠ some (today env sys.lastTick)))
    (hagain : EnablesAgain s map → KeepsEnd env sys.nextTick s) :
    Lawful env sys.lastTick s' (if EnablesAgain s map then { law with armed := now } else law) := by
  intro hnormal
  rw [hstate] at hnormal
  obtain ⟨hdated, harmed, hcounted⟩ := h hnormal
  have hsame : ∀ law' : Law, law'.wait = law.wait → law'.due = law.due → law'.fired = law.fired →
      Dated env sys.lastTick s' law' ∧ Counted env sys.lastTick s' law' := by
    intro law' hwait hdue hfired
    constructor
    · unfold Dated at hdated ⊢
      rwa [htype, hdate, htimeout, hwait, hdue]
    · intro hweekly day hday
      rw [htype] at hweekly
      rw [hfired] at hday
      obtain ⟨hle, htoday⟩ := hcounted hweekly day hday
      refine ⟨hle, fun heq => ?_⟩
      rcases hlast with hkept | hother
      · rw [hkept]
        exact htoday heq
      · -- it was not triggered today, so today is not among the days
        exact (hother hweekly (heq ▸ htoday heq)).elim
  split
  · rename_i hagain'
    obtain ⟨hdated', hcounted'⟩ := hsame { law with armed := now } rfl rfl rfl
    refine ⟨hdated', ?_, hcounted'⟩
    intro henabled
    obtain ⟨hkept, -⟩ := hend henabled
    obtain ⟨hnotTimer, hcome⟩ := hagain hagain'
    unfold Armed
    rw [htype, hkept]
    cases hs : s.type with
    | timer => exact absurd hs hnotTimer
    | absoluteTime =>
      by_cases hnone : s.endtime = none
      · right
        simp only [Dated, hs] at hdated
        obtain ⟨w, hw, hdue⟩ := hdated
        have hpast := hcome hs hnone w hw
        unfold ScheduleSystem.nextTick at hpast
        simp only
        omega
      · exact .inl hnone
    | recurringTime | invalid => trivial
  · rename_i hnotAgain
    obtain ⟨hdated', hcounted'⟩ := hsame law rfl rfl rfl
    refine ⟨hdated', ?_, hcounted'⟩
    intro henabled
    obtain ⟨hkept, hbefore⟩ := hend henabled
    have hend' := harmed (hbefore.resolve_right hnotAgain)
    unfold Armed at hend' ⊢
    rwa [htype, hkept]

theorem moved_lawful {timeSpec : TimeSpec} {time : QString} {randomMax : Nat}
    {map times : List (QString × QVariant D)} {s₁ s₂ : Schedule D}
    (h : Lawful env sys.lastTick s law) (hnormal : s.state = .normal)
    (hmove : moveTime env now timeSpec time randomMax rand times s₁ = .ok s₂)
    (htype : s₁.type = s.type) (hdate : s₁.datetime = s.datetime) (htimeout : s₁.timeout = s.timeout)
    (hend : isEnabled s₁ = true → s₁.endtime = s.endtime ∧ (isEnabled s = true ∨ EnablesAgain s map))
    (hcut : cutRandom env.clock (readTimes times).1 = some (time, randomMax))
    (hspec : timeSpec = (readTimes times).2)
    (hkeeps : TimeKeeps env sys.nextTick s map (readTimes times))
    (hzone : ZoneKeeps env now rand (isEnabled s₁) (readTimes times)) :
    Lawful env sys.lastTick s₂ (law.newTime env.clock now rand (readTimes times)) := by
  obtain ⟨hdated, harmed, -⟩ := h hnormal
  have hdated₁ : Dated env sys.lastTick s₁ law := by
    unfold Dated at hdated ⊢
    rwa [htype, hdate, htimeout]
  unfold Law.newTime
  unfold TimeKeeps at hkeeps
  unfold ZoneKeeps at hzone
  rw [hcut] at hkeeps hzone ⊢
  subst hspec
  simp only at hkeeps hzone ⊢
  unfold moveTime at hmove
  cases hread : readTime env.clock time with
  | repeating count t =>
    simp only [hread] at hzone hmove ⊢
    cases hmove
    exact startTimer_lawful (fun _ => hdated₁) hzone
  | timer t =>
    simp only [hread] at hkeeps hzone hmove ⊢
    cases hmove
    have hseconds : ({ t with seconds := 0 } : Hms) = t := by rw [← hkeeps]
    rw [hseconds]
    exact startTimer_lawful (fun _ => hdated₁) hzone
  | weekly weekBitmap t =>
    simp only [hread] at hmove ⊢
    cases hmove
    exact setWeekly_lawful
  | weeklyRandom =>
    simp only [hread] at hkeeps hmove ⊢
    cases hmove
    obtain ⟨hnotTimer, hagain⟩ := hkeeps
    intro _
    refine ⟨?_, ?_, fun _ day hday => by cases hday⟩
    · unfold Dated at hdated₁ ⊢
      cases hs : s₁.type with
      | timer => exact absurd (htype.symm.trans hs) hnotTimer
      | absoluteTime | recurringTime | invalid =>
        rw [hs] at hdated₁
        exact hdated₁
    · intro henabled
      obtain ⟨hkept, hbefore⟩ := hend henabled
      unfold Armed
      cases hs : s₁.type with
      | timer => exact absurd (htype.symm.trans hs) hnotTimer
      | absoluteTime =>
        rw [htype] at hs
        simp only
        rcases hbefore with hbefore | hbefore
        · have hend' := harmed hbefore
          simp only [Armed, hs] at hend'
          rwa [hkept]
        · by_cases hnone : s.endtime = none
          · right
            simp only [Dated, hs] at hdated
            obtain ⟨w, hw, hdue⟩ := hdated
            have hpast := (hagain hbefore).2 hs hnone w hw
            unfold ScheduleSystem.nextTick at hpast
            omega
          · rw [hkept]
            exact .inl hnone
      | recurringTime | invalid => trivial
  | unmatched =>
    simp only [hread] at hmove
    cases hmove
  | absolute =>
    simp only [hread] at hzone hmove ⊢
    cases hw : absoluteDatetime env.clock now (readTimes times).2 time
        (randomTime randomMax rand) with
    | none =>
      rw [hw] at hmove
      simp only at hmove
      split at hmove <;> cases hmove
    | some w =>
      rw [hw] at hmove
      cases hmove
      exact absolute_lawful (askedDue_le hw hzone) rfl rfl (by simp [moveAbsolute])

/-- **A request about the schedule** keeps it lawful. -/
theorem updated_lawful {id : QString} {map : List (QString × QVariant D)}
    (h : Lawful env sys.lastTick s law) (hnormal : s.state = .normal)
    (hmoved : GivesTime env (readTimes (rereadTimes s map)) →
      TimeKeeps env sys.nextTick s map (readTimes (rereadTimes s map)) ∧
        ZoneKeeps env now rand (statusBehind s map == ofLatin1 "enabled")
          (readTimes (rereadTimes s map)))
    (hrefused : (readTimes (rereadTimes s map)).1 ≠ [] →
      ¬ GivesTime env (readTimes (rereadTimes s map)) → s.type = .recurringTime →
        s.lastTriggerDatetime.map date ≠ some (today env sys.lastTick))
    (hagain : ¬ GivesTime env (readTimes (rereadTimes s map)) → EnablesAgain s map →
      KeepsEnd env sys.nextTick s) :
    Lawful env sys.lastTick (updateSchedule env id now rand map s).1
      (law.update env now rand s map) := by
  obtain ⟨hstatus, hend⟩ := setAttributes_end env id map s
  have hkept := setAttributes_kept env id map s
  have htype : (setAttributes env id map s).1.type = s.type := by rw [hkept]
  have hstate : (setAttributes env id map s).1.state = s.state := by rw [hkept]
  have hdate : (setAttributes env id map s).1.datetime = s.datetime := by rw [hkept]
  have htimeout : (setAttributes env id map s).1.timeout = s.timeout := by rw [hkept]
  have hlast : (setAttributes env id map s).1.lastTriggerDatetime = s.lastTriggerDatetime := by
    rw [hkept]
  have hcases := setTimes_cases env id now rand (rereadTimes s map) (setAttributes env id map s)
  unfold updateSchedule Law.update
  simp only
  generalize setAttributes env id map s = st at *
  rcases hcases with ⟨hempty, hschedule, haccepted⟩ | ⟨hgiven, hunread, hschedule, haccepted⟩ |
    ⟨hgiven, hreadable, haccepted, time, randomMax, s₂, hcut, hmove, hschedule⟩
  · have hnone : ¬ GivesTime env (readTimes (rereadTimes s map)) := fun hgives => hgives.1 hempty
    rw [if_pos haccepted, if_neg hnone, hschedule]
    exact kept_time_lawful h hstate htype hdate htimeout hend (.inl hlast) (hagain hnone)
  · have hnone : ¬ GivesTime env (readTimes (rereadTimes s map)) :=
      fun hgives => Bool.false_ne_true (hunread.symm.trans hgives.2)
    rw [if_neg (by simp [haccepted]), if_neg hnone, hschedule]
    exact kept_time_lawful h hstate htype hdate htimeout hend
      (.inr (hrefused hgiven hnone)) (hagain hnone)
  · obtain ⟨hkeeps, hzone⟩ := hmoved ⟨hgiven, hreadable⟩
    rw [if_pos haccepted, if_pos ⟨hgiven, hreadable⟩, hschedule]
    obtain ⟨text, localtime, jsonMap, htexts⟩ :=
      storeTexts_fst env id (rereadTimes s map) s₂ st.2
    rw [htexts]
    have hzone' : ZoneKeeps env now rand (isEnabled { st.1 with lastTriggerDatetime := none })
        (readTimes (rereadTimes s map)) := by
      unfold isEnabled
      rw [hstatus]
      exact hzone
    have hmoved' := moved_lawful h hnormal hmove htype hdate htimeout hend hcut rfl hkeeps hzone'
    exact lawful_of_fields hmoved' rfl rfl rfl rfl rfl rfl rfl

end requests

/-! ## Runs -/

/-- **One step** that meets the condition triggers nothing early, and keeps all schedules
lawful. -/
theorem step_lawful {st : ScheduleSystem D × (Nat → Law)} {act : Action} (h : AllLawful env st)
    (hkeeps : Keeps env st.1 act) :
    NotEarly env st act ∧ AllLawful env (watchedStep env st act) := by
  obtain ⟨sys, laws⟩ := st
  cases act with
  | tick rand => exact tick_lawful h hkeeps
  | create ms rand content =>
    refine ⟨fun j command hnone => absurd hnone (by simp [triggered]), ?_⟩
    intro j s hs
    have hlist : (step env sys (.create ms rand content)).schedules = sys.schedules ++
        (created env sys.schedules (sys.at ms) rand content).toList :=
      createSchedule_schedules env sys.schedules (sys.at ms) rand content
    have hs' : (step env sys (.create ms rand content)).schedules[j]? = some s := hs
    show Lawful env sys.lastTick s (lawStep env sys (.create ms rand content) laws j)
    rw [hlist] at hs'
    cases hnew : created env sys.schedules (sys.at ms) rand content with
    | none =>
      rw [hnew, toList_none, List.append_nil] at hs'
      simp only [lawStep, hnew]
      exact h j s hs'
    | some new =>
      rw [hnew, toList_some] at hs'
      simp only [lawStep, hnew]
      by_cases hj : j < sys.schedules.length
      · rw [List.getElem?_append_left hj] at hs'
        rw [Function.update_of_ne (by omega)]
        exact h j s hs'
      · -- the schedule is the new one
        rw [List.getElem?_append_right (by omega)] at hs'
        have hlast : j - sys.schedules.length < 1 := by
          simpa using (List.getElem?_eq_some_iff.mp hs').1
        have hj' : j = sys.schedules.length := by omega
        subst hj'
        simp only [Nat.sub_self, List.getElem?_cons_zero, Option.some.injEq] at hs'
        subst hs'
        rw [Function.update_self]
        exact created_lawful hnew (hkeeps (by rw [hnew]; simp))
  | update ms rand id content =>
    refine ⟨fun j command hnone => absurd hnone (by simp [triggered]), ?_⟩
    intro j s hs
    have hs' : (step env sys (.update ms rand id content)).schedules[j]? = some s := hs
    have hlist := setScheduleAttributes_schedules env sys.schedules (sys.at ms) rand id content
    show Lawful env sys.lastTick s (lawStep env sys (.update ms rand id content) laws j)
    unfold step at hs'
    simp only [hlist] at hs'
    cases htarget : target env sys.schedules id content with
    | none =>
      rw [htarget] at hs'
      simp only [lawStep, htarget]
      exact h j s hs'
    | some found =>
      obtain ⟨i, s₀, map⟩ := found
      rw [htarget] at hs'
      simp only [lawStep, htarget] at hs' ⊢
      obtain ⟨hs₀, hnormal, -, -⟩ := target_some env htarget
      by_cases hj : i = j
      · subst hj
        have hlt := (List.getElem?_eq_some_iff.mp hs₀).1
        rw [List.getElem?_set_self hlt, Option.some.injEq] at hs'
        subst hs'
        obtain ⟨hmoved, hrefused, hagain⟩ := hkeeps i s₀ map htarget
        rw [Function.update_self]
        exact updated_lawful (h i s₀ hs₀) hnormal hmoved hrefused hagain
      · rw [List.getElem?_set_ne hj] at hs'
        rw [Function.update_of_ne (Ne.symm hj)]
        exact h j s hs'
  | delete id =>
    refine ⟨fun j command hnone => absurd hnone (by simp [triggered]), ?_⟩
    intro j s hs
    have hs' : (deleteSchedule env sys.schedules id).1[j]? = some s := hs
    show Lawful env sys.lastTick s (laws j)
    rcases deleteSchedule_schedules env sys.schedules id with hsame | ⟨i, hdeleted⟩
    · rw [hsame] at hs'
      exact h j s hs'
    · rw [hdeleted, List.getElem?_modify] at hs'
      by_cases hij : i = j
      · simp only [hij, if_true, map_eq_map, map_eq_some_iff] at hs'
        obtain ⟨s₀, -, rfl⟩ := hs'
        intro hnormal
        cases hnormal
      · simp only [hij, if_false, map_eq_map, Option.map_id'] at hs'
        exact h j s hs'

/-- **No schedule is triggered early or twice a day** in a run, from a system without schedules,
of steps that meet the condition. -/
theorem not_early {lastTick : Int} {laws : Nat → Law} {acts : List Action}
    (hkeeps : AllSteps (watchedStep env) (fun st act => Keeps env st.1 act)
      (⟨lastTick, []⟩, laws) acts) :
    AllSteps (watchedStep env) (NotEarly env) (⟨lastTick, []⟩, laws) acts := by
  have hruns : ∀ (acts : List Action) (st : ScheduleSystem D × (Nat → Law)), AllLawful env st →
      AllSteps (watchedStep env) (fun st act => Keeps env st.1 act) st acts →
        AllSteps (watchedStep env) (NotEarly env) st acts := by
    intro acts
    induction acts with
    | nil => exact fun st _ _ => allSteps_nil _ _ st
    | cons act acts ih =>
      intro st hst hall
      obtain ⟨hfirst, hrest⟩ := allSteps_cons hall
      obtain ⟨hearly, hnext⟩ := step_lawful env hst hfirst
      exact allSteps_of_cons hearly (ih _ hnext hrest)
  refine hruns acts _ ?_ hkeeps
  intro j s hs
  simp at hs

/-! ## A timer that is enabled again -/

def noLaws : Nat → Law := fun _ => ⟨0, 0, 0, []⟩

theorem zoneKeeps_greenwich (now : Int) (rand : Nat) (enabled : Bool)
    (times : QString × TimeSpec) : ZoneKeeps greenwich now rand enabled times := by
  unfold ZoneKeeps
  split
  · trivial
  · simp only
    split
    · exact fun _ _ => Int.le_refl _
    · exact fun _ _ => Int.le_refl _
    · intro w hw
      cases hw
    · trivial
    · trivial
    · trivial

theorem keeps_greenwich {sys : ScheduleSystem Int} (rand : Nat)
    (h : sys.schedules.all (fun s => decide (s.type ≠ .absoluteTime)) = true) :
    Keeps greenwich sys (.tick rand) := by
  constructor
  · simp only [today, SystemClock.wall, wall, SystemClock.zone, greenwich, date, msecsPerDay,
      ScheduleSystem.nextTick]
    omega
  · intro j s w hs _ htype
    have hother := List.all_eq_true.mp h s (List.mem_of_getElem? hs)
    simp [htype] at hother

theorem keeps_create_greenwich (sys : ScheduleSystem Int) (ms : Fin 1000) (rand : Nat)
    (content : QString) : Keeps greenwich sys (.create ms rand content) :=
  fun _ => zoneKeeps_greenwich _ _ _ _

def tenSecondsRun : List Action := .create 0 0 tenSecondsBody :: List.replicate 11 (.tick 0)

theorem keeps_tenSeconds : AllSteps (watchedStep greenwich)
    (fun st act => Keeps greenwich st.1 act) (⟨0, []⟩, noLaws) tenSecondsRun := by
  have htypes : ∀ k < 12, ((stateAt (step greenwich) ⟨0, []⟩ tenSecondsRun k).schedules.all
      fun s => decide (s.type ≠ .absoluteTime)) = true := by decide +kernel
  have hacts : ∀ act ∈ tenSecondsRun, act = .create 0 0 tenSecondsBody ∨ act = .tick 0 := by
    simp [tenSecondsRun]
  intro k hk
  have hstate := htypes k (Nat.lt_of_lt_of_eq hk (by simp [tenSecondsRun]))
  rw [stateAt_watchedStep]
  rcases hacts _ (List.getElem_mem hk) with hact | hact
  · rw [hact]
    exact keeps_create_greenwich _ _ _ _
  · rw [hact]
    exact keeps_greenwich 0 hstate

theorem not_early_tenSeconds :
    (triggered greenwich (stateAt (step greenwich) ⟨0, []⟩ tenSecondsRun 10) (.tick 0)).map
        Prod.fst = some 0 ∧
      AllSteps (watchedStep greenwich) (NotEarly greenwich) (⟨0, []⟩, noLaws) tenSecondsRun :=
  ⟨by decide +kernel, not_early greenwich keeps_tenSeconds⟩

def enabledAgain : List Action :=
  [.create 0 0 tenSecondsBody,
    .update 0 0 (ofLatin1 "1") (ofLatin1 "\x7b\"status\":\"disabled\"\x7d"),
    .update 0 0 (ofLatin1 "1") (ofLatin1 "\x7b\"status\":\"enabled\"\x7d"), .tick 0]

/-- **A timer that is enabled again has no end**, so the next tick triggers it, nine seconds
early. -/
theorem enabledAgain_early : ¬ AllSteps (watchedStep greenwich) (NotEarly greenwich)
    (⟨0, []⟩, noLaws) enabledAgain := by
  intro h
  have hearly : NotEarly greenwich
      (stateAt (watchedStep greenwich) (⟨0, []⟩, noLaws) enabledAgain 3) (.tick 0) := h 3 (by decide)
  have hrun : ((triggered greenwich
        (stateAt (watchedStep greenwich) (⟨0, []⟩, noLaws) enabledAgain 3).1 (.tick 0)).map
          Prod.fst = some 0 ∧
      (stateAt (watchedStep greenwich) (⟨0, []⟩, noLaws) enabledAgain 3).1.schedules[0]?.map
        (fun s => s.type) = some .timer) ∧
      ((stateAt (watchedStep greenwich) (⟨0, []⟩, noLaws) enabledAgain 3).2 0).armed = 0 ∧
      ((stateAt (watchedStep greenwich) (⟨0, []⟩, noLaws) enabledAgain 3).2 0).wait = 10 ∧
      (stateAt (watchedStep greenwich) (⟨0, []⟩, noLaws) enabledAgain 3).1.nextTick = 1000 := by
    decide +kernel
  generalize stateAt (watchedStep greenwich) (⟨0, []⟩, noLaws) enabledAgain 3 = st at *
  obtain ⟨⟨htriggered, htype⟩, hlaw⟩ := hrun
  obtain ⟨⟨j, command⟩, htrigger, rfl⟩ := map_eq_some_iff.mp htriggered
  obtain ⟨s, hs, hs'⟩ := map_eq_some_iff.mp htype
  have hallowed := hearly _ command htrigger s hs
  simp only [Allowed, hs', hlaw] at hallowed
  omega

end Schedules
end DeconzRest

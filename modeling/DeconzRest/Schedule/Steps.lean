import DeconzRest.Schedule.Served

/-!
# What requests and ticks do to one schedule

One lemma for each function of the model, so that what is shown of all runs does not unfold
them again: `createSchedule_schedules`, `setScheduleAttributes_schedules` and
`deleteSchedule_schedules` for the list, `setAttributes_kept`, `setAttributes_status` and
`setTimes_cases` for a request, `visit_pass` and `visit_serve` for a tick.
-/

namespace DeconzRest
namespace Schedules

open QDateTime
open QVariant (value contains)
open QString RuleRequest FirstServed

variable {D : Type} (env : ScheduleEnv D)

def created (schedules : List (Schedule D)) (now : Int) (rand : Nat) (content : QString) :
    Option (Schedule D) :=
  match jsonToSchedule env schedules now rand true content {} with
  | .ok s => some (nameById { s with id := newId schedules })
  | .error _ => none

theorem createSchedule_schedules (schedules : List (Schedule D)) (now : Int) (rand : Nat)
    (content : QString) : (createSchedule env schedules now rand content).1 = schedules ++
      (created env schedules now rand content).toList := by
  unfold createSchedule created
  cases jsonToSchedule env schedules now rand true content {} <;> simp

def target (schedules : List (Schedule D)) (id content : QString) :
    Option (Nat × Schedule D × List (QString × QVariant D)) :=
  let parsed := parseContent env.qt content
  if parsed.2 = false ∨ parsed.1.toMap = [] then
    none
  else
    (findSchedule schedules id).bind fun i => schedules[i]?.map fun s => (i, s, parsed.1.toMap)

theorem setScheduleAttributes_schedules (schedules : List (Schedule D)) (now : Int) (rand : Nat)
    (id content : QString) : (setScheduleAttributes env schedules now rand id content).1 =
      match target env schedules id content with
      | some (i, s, map) => schedules.set i (updateSchedule env id now rand map s).1
      | none => schedules := by
  unfold setScheduleAttributes target
  cases findSchedule schedules id with
  | none => simp
  | some i =>
    simp only
    split
    · rfl
    · cases hs : schedules[i]? <;> simp [hs]

theorem deleteSchedule_schedules (schedules : List (Schedule D)) (id : QString) :
    (deleteSchedule env schedules id).1 = schedules ∨
      ∃ i, (deleteSchedule env schedules id).1 =
        schedules.modify i fun s => { s with state := .deleted } := by
  unfold deleteSchedule
  split
  · exact .inl rfl
  · exact .inr ⟨_, rfl⟩

theorem target_some {schedules : List (Schedule D)} {id content : QString} {i : Nat}
    {s : Schedule D} {map : List (QString × QVariant D)}
    (h : target env schedules id content = some (i, s, map)) :
    schedules[i]? = some s ∧ s.state = .normal ∧ s.id = id ∧ map =
      (parseContent env.qt content).1.toMap := by
  unfold target at h
  simp only at h
  split at h
  · cases h
  · rw [Option.bind_eq_some_iff] at h
    obtain ⟨i', hfind, hmap⟩ := h
    obtain ⟨s', hs', hstate, hid⟩ := findSchedule_some hfind
    rw [hs', Option.map_some, Option.some.injEq, Prod.mk.injEq, Prod.mk.injEq] at hmap
    obtain ⟨rfl, rfl, rfl⟩ := hmap
    exact ⟨hs', hstate, hid, rfl⟩

theorem jsonToSchedule_ok {schedules : List (Schedule D)} {now : Int} {rand : Nat} {request : Bool}
    {json : QString} {schedule s : Schedule D}
    (h : jsonToSchedule env schedules now rand request json schedule = .ok s) :
    ∃ command time randomMax, readCommand env (parseContent env.qt json).1.toMap = some command ∧
      (readTimes (parseContent env.qt json).1.toMap).1 ≠ [] ∧
      cutRandom env.clock (readTimes (parseContent env.qt json).1.toMap).1 =
        some (time, randomMax) ∧
      s.type ≠ .invalid ∧
      s = { startTime env now (readTimes (parseContent env.qt json).1.toMap).2 time randomMax rand
          (readParameters schedules (parseContent env.qt json).1.toMap command schedule) with
        jsonString := jsonText env (keptMap env now request (parseContent env.qt json).1.toMap)
        jsonMap := keptMap env now request (parseContent env.qt json).1.toMap } := by
  unfold jsonToSchedule at h
  simp only at h
  split at h
  · cases h
  · split at h
    · cases h
    · split at h
      · cases h
      · rename_i command hcommand
        split at h
        · cases h
        · rename_i hempty
          split at h
          · cases h
          · rename_i time randomMax hcut
            split at h
            · cases h
            · rename_i htype
              cases h
              exact ⟨command, time, randomMax, hcommand, hempty, hcut, htype, rfl⟩

theorem nameById_kept (s : Schedule D) : ∃ name, nameById s = { s with name := name } := by
  unfold nameById
  split
  · exact ⟨_, rfl⟩
  · exact ⟨s.name, rfl⟩

/-- Everything but what the blocks write is as it was. -/
def Kept (s s' : Schedule D) : Prop :=
  s' = { s with
    name := s'.name
    description := s'.description
    command := s'.command
    status := s'.status
    activation := s'.activation
    autodelete := s'.autodelete
    endtime := s'.endtime
    jsonMap := s'.jsonMap }

theorem Attribute.set_fst (id : QString) (map : List (QString × QVariant D)) (a : Attribute D)
    (st : Schedule D × ApiResponse D) : (a.set env id map st).1 = if contains map a.key = true ∧
      a.hasType (value map a.key) = true ∧ a.valid (value map a.key) = true then
        { a.write (value map a.key) st.1 with
          jsonMap := QVariant.insert (a.write (value map a.key) st.1).jsonMap a.key
            (value map a.key) }
      else
        st.1 := by
  unfold Attribute.set
  simp only
  by_cases hcontains : contains map a.key = true ∧ a.hasType (value map a.key) = true
  · rw [if_pos hcontains]
    by_cases hvalid : a.valid (value map a.key) = true
    · rw [if_pos hvalid, if_pos ⟨hcontains.1, hcontains.2, hvalid⟩]
    · rw [if_neg hvalid, if_neg fun h => hvalid h.2.2]
  · rw [if_neg hcontains, if_neg fun h => hcontains ⟨h.1, h.2.1⟩]

theorem setAttributes_induction {motive : Schedule D → Prop} (id : QString)
    (map : List (QString × QVariant D)) {s : Schedule D} (h0 : motive s)
    (hset : ∀ a ∈ attributes env, ∀ st, motive st.1 → motive (a.set env id map st).1) :
    motive (setAttributes env id map s).1 := by
  have hfold : ∀ as : List (Attribute D), (∀ a ∈ as, a ∈ attributes env) →
      ∀ st : Schedule D × ApiResponse D, motive st.1 →
        motive (as.foldl (fun st (a : Attribute D) => a.set env id map st) st).1 := by
    intro as
    induction as with
    | nil => exact fun _ _ h => h
    | cons a as ih =>
      intro hmem st hst
      obtain ⟨hfirst, hrest⟩ := List.forall_mem_cons.mp hmem
      exact ih hrest _ (hset a hfirst st hst)
  exact hfold _ (fun _ ha => ha) _ h0

theorem setAttributes_kept (id : QString) (map : List (QString × QVariant D)) (s : Schedule D) :
    Kept s (setAttributes env id map s).1 := by
  refine setAttributes_induction env id map rfl ?_
  intro a ha st hst
  rw [Attribute.set_fst]
  split
  · simp only [attributes, List.mem_cons, List.not_mem_nil, or_false] at ha
    unfold Kept at hst ⊢
    rcases ha with rfl | rfl | rfl | rfl | rfl | rfl <;> rw [hst] <;> rfl
  · exact hst

theorem setAttributes_status (id : QString) (map : List (QString × QVariant D)) (s : Schedule D) :
    ((setAttributes env id map s).1.status, (setAttributes env id map s).1.endtime) =
      match (QVariant.text? map "status").filter fun status =>
          status == ofLatin1 "enabled" || status == ofLatin1 "disabled" with
      | some status => (status, if status = ofLatin1 "disabled" then none else s.endtime)
      | none => (s.status, s.endtime) := by
  -- only the block of the status writes either
  have hother : ∀ a ∈ [nameAttribute env, descriptionAttribute env, activationAttribute env,
      commandAttribute env, autodeleteAttribute], ∀ st : Schedule D × ApiResponse D,
      (a.set env id map st).1.status = st.1.status ∧ (a.set env id map st).1.endtime =
        st.1.endtime := by
    intro a ha st
    rw [Attribute.set_fst]
    split
    · simp only [List.mem_cons, List.not_mem_nil, or_false] at ha
      rcases ha with rfl | rfl | rfl | rfl | rfl <;> exact ⟨rfl, rfl⟩
    · exact ⟨rfl, rfl⟩
  simp only [List.mem_cons, List.not_mem_nil, or_false, forall_eq_or_imp, forall_eq] at hother
  obtain ⟨hname, hdescription, hactivation, hcommand, hautodelete⟩ := hother
  simp only [setAttributes, attributes, List.foldl_cons, List.foldl_nil, hactivation, hcommand,
    hautodelete, Attribute.set_fst (a := statusAttribute env)]
  unfold statusAttribute QVariant.text? contains value
  cases hv : (List.lookup (ofLatin1 "status") map) with
  | none => simp [hname, hdescription]
  | some v =>
    cases v <;> simp [isString, isChoice, QVariant.toString, hname, hdescription, Option.filter]
    split <;> simp_all

/-- A text without its random part that `setScheduleAttributes` takes as a time -/
def isTimeText (time : QString) : Bool :=
  match readTime env.clock time with
  | .unmatched => false
  | .absolute => (env.clock.fromIso time).isSome
  | _ => true

/-- A text that `setScheduleAttributes` takes as a time -/
def isReadable (text : QString) : Bool :=
  match cutRandom env.clock text with
  | none => false
  | some (time, _) => isTimeText env time

theorem moveTime_isTimeText (now : Int) (timeSpec : TimeSpec) (time : QString)
    (randomMax rand : Nat) (map : List (QString × QVariant D)) (s : Schedule D) :
    match moveTime env now timeSpec time randomMax rand map s with
    | .ok _ => isTimeText env time = true
    | .error _ => isTimeText env time = false := by
  unfold moveTime isTimeText
  cases readTime env.clock time with
  | repeating | timer | weekly | weeklyRandom | unmatched => simp
  | absolute =>
    cases hiso : env.clock.fromIso time with
    | some w => simp [absoluteDatetime, hiso]
    | none =>
      simp only [absoluteDatetime, hiso, Option.map_none]
      split
      · rename_i hok
        split at hok <;> cases hok
      · simp

theorem storeTexts_fst (id : QString) (map : List (QString × QVariant D)) (s : Schedule D)
    (rsp : ApiResponse D) : ∃ time localtime jsonMap, (storeTexts env id map (s, rsp)).1 =
      { s with time := time, localtime := localtime, jsonMap := jsonMap } := by
  unfold storeTexts storeText
  split <;> split <;> exact ⟨_, _, _, rfl⟩

/-- **A request and its time**: there is none, it is refused, or it is moved to. -/
theorem setTimes_cases (id : QString) (now : Int) (rand : Nat) (map : List (QString × QVariant D))
    (st : Schedule D × ApiResponse D) :
    ((readTimes map).1 = [] ∧ (setTimes env id now rand map st).schedule = st.1 ∧
      (setTimes env id now rand map st).accepted = true) ∨
    ((readTimes map).1 ≠ [] ∧ isReadable env (readTimes map).1 = false ∧
      (setTimes env id now rand map st).schedule = { st.1 with lastTriggerDatetime := none } ∧
      (setTimes env id now rand map st).accepted = false) ∨
    ((readTimes map).1 ≠ [] ∧ isReadable env (readTimes map).1 = true ∧
      (setTimes env id now rand map st).accepted = true ∧
      ∃ time randomMax s, cutRandom env.clock (readTimes map).1 = some (time, randomMax) ∧
        moveTime env now (readTimes map).2 time randomMax rand map
          { st.1 with lastTriggerDatetime := none } = .ok s ∧
        (setTimes env id now rand map st).schedule = (storeTexts env id map (s, st.2)).1) := by
  by_cases hempty : (readTimes map).1 = []
  · exact .inl ⟨hempty, by simp [setTimes, hempty], by simp [setTimes, hempty]⟩
  · cases hcut : cutRandom env.clock (readTimes map).1 with
    | none => exact .inr (.inl ⟨hempty, by simp [isReadable, hcut], by simp [setTimes, hempty, hcut],
        by simp [setTimes, hempty, hcut]⟩)
    | some cut =>
      obtain ⟨time, randomMax⟩ := cut
      have htext := moveTime_isTimeText env now (readTimes map).2 time randomMax rand map
        { st.1 with lastTriggerDatetime := none }
      cases hmove : moveTime env now (readTimes map).2 time randomMax rand map
          { st.1 with lastTriggerDatetime := none } with
      | error description =>
        rw [hmove] at htext
        exact .inr (.inl ⟨hempty, by simpa [isReadable, hcut] using htext,
          by simp [setTimes, hempty, hcut, hmove], by simp [setTimes, hempty, hcut, hmove]⟩)
      | ok s =>
        rw [hmove] at htext
        exact .inr (.inr ⟨hempty, by simpa [isReadable, hcut] using htext,
          by simp [setTimes, hempty, hcut, hmove], time, randomMax, s, rfl, hmove,
          by simp [setTimes, hempty, hcut, hmove]⟩)

/-! ## The visit of a tick -/

section visit

variable {env} {now : Int} {rand : Nat} {s s' : Schedule D}

variable (env) in
theorem not_isActive_disable (s : Schedule D) : ¬ isActive (disable env s) := by
  have hne : ofLatin1 "disabled" ≠ ofLatin1 "enabled" := by decide
  rintro ⟨-, henabled⟩
  exact hne (by simpa [disable, isEnabled] using henabled)

theorem disable_disable (s : Schedule D) : disable env (disable env s) = disable env s := by
  simp [disable, QVariant.insert_insert]

variable (env) in
/-- The last turn of a timer deletes or disables it; another one rearms it and is counted. -/
theorem takeTurn_cases (now : Int) (s : Schedule D) :
    (takeTurn env now s).state = .deleted ∨ (s.recurring = 1 ∧ takeTurn env now s = disable env s) ∨
      (s.recurring ≠ 1 ∧ takeTurn env now s = { s with
        endtime := s.endtime.map fun _ => addSecs now s.timeout
        recurring := s.recurring - 1 }) := by
  unfold takeTurn
  split
  · rename_i hlast
    split
    · exact .inl rfl
    · exact .inr (.inl ⟨hlast, rfl⟩)
  · rename_i hmore
    exact .inr (.inr ⟨hmore, rfl⟩)

variable (env) in
theorem giveUp_cases (s : Schedule D) :
    (giveUp env s).state = .deleted ∨ giveUp env s = disable env s := by
  unfold giveUp
  simp only
  split
  · exact .inl rfl
  · exact .inr rfl

theorem settle_pass {diff : Int} (h : settle env now rand diff s = .pass s') :
    s' = s ∧ (diff ≤ -5 → s.type = .recurringTime) ∨ s' = giveUp env s := by
  unfold settle at h
  split at h
  · split at h
    · rename_i htype
      cases h
      exact .inl ⟨rfl, fun _ => htype⟩
    · cases h
      exact .inr rfl
  · rename_i hlate
    split at h
    · cases h
    · cases h
      exact .inl ⟨rfl, fun hle => absurd hle hlate⟩

variable (env) in
/-- What a tick leaves of a schedule that it passes: it is as it was, or deleted, or disabled;
a timer may have lost a turn then. -/
def Passed (s s' : Schedule D) : Prop :=
  s' = s ∨ s'.state = .deleted ∨ ∃ e r, s' =
    { disable env s with endtime := e, recurring := r } ∧
      (¬ (s.type = .timer ∧ 1 < s.recurring) → r = s.recurring)

theorem visit_pass (h : visit env now rand s = .pass s') : Passed env s s' := by
  unfold visit at h
  split at h
  · rename_i hactive
    have hgiven : s' = giveUp env s → Passed env s s' := by
      rintro rfl
      rcases giveUp_cases env s with hdeleted | hdisabled
      · exact .inr (.inl hdeleted)
      · exact .inr (.inr ⟨s.endtime, s.recurring, hdisabled, fun _ => rfl⟩)
    cases htype : s.type with
    | absoluteTime =>
      rw [htype] at h
      rcases settle_pass h with ⟨rfl, -⟩ | hgive
      · exact .inl rfl
      · exact hgiven hgive
    | timer =>
      rw [htype] at h
      simp only at h
      split at h
      · cases h
        exact .inl rfl
      · rename_i hover
        have hpast : ∀ e, s.endtime = some e → e ≤ now := by
          intro e he
          by_contra hfuture
          exact hover ⟨e, he, by omega⟩
        -- the time of the timer has come, so it is given up here
        have hgive : s' = giveUp env (takeTurn env now s) := by
          have htypes : (takeTurn env now s).type = s.type := by
            unfold takeTurn
            split
            · split <;> rfl
            · rfl
          rcases settle_pass h with ⟨-, hweekly⟩ | hgive
          · have hdiff := timerDiff_nonpos hpast
            by_cases hlate : timerDiff now s ≤ -5
            · have hrecurring := hweekly hlate
              rw [htypes, htype] at hrecurring
              cases hrecurring
            · rw [settle_of_due ⟨by omega, hdiff⟩] at h
              cases h
          · exact hgive
        rcases takeTurn_cases env now s with hdeleted | ⟨-, hturn⟩ | ⟨hmore, hturn⟩
        · refine .inr (.inl ?_)
          rw [hgive]
          unfold giveUp
          simp only
          split
          · rfl
          · exact hdeleted
        · rw [hturn] at hgive
          rcases giveUp_cases env (disable env s) with hdeleted | hdisabled
          · exact .inr (.inl (hgive ▸ hdeleted))
          · rw [hdisabled, disable_disable] at hgive
            exact .inr (.inr ⟨s.endtime, s.recurring, hgive, fun _ => rfl⟩)
        · rw [hturn] at hgive
          rcases giveUp_cases env { s with
              endtime := s.endtime.map fun _ => addSecs now s.timeout
              recurring := s.recurring - 1 } with hdeleted | hdisabled
          · exact .inr (.inl (hgive ▸ hdeleted))
          · rw [hdisabled] at hgive
            refine .inr (.inr ⟨_, _, hgive, ?_⟩)
            intro hfew
            have hzero : s.recurring = 0 := by
              by_contra hne
              exact hfew ⟨htype, by omega⟩
            show s.recurring - 1 = s.recurring
            omega
    | recurringTime =>
      rw [htype] at h
      simp only at h
      split at h
      · rcases settle_pass h with ⟨rfl, -⟩ | hgive
        · exact .inl rfl
        · exact hgiven hgive
      · cases h
        exact .inl rfl
    | invalid =>
      rw [htype] at h
      cases h
      exact .inr (.inl rfl)
  · cases h
    exact .inl rfl

end visit

/-! ## The trigger -/

/-- A date and time at a whole second, or at the milliseconds of now -/
def InStep (now w : Int) : Prop := w % 1000 = 0 ∨ w % 1000 = now % 1000

theorem setTime_mod (w : Int) (h m s : Nat) : setTime w h m s % 1000 = 0 := by
  unfold setTime msecsPerDay
  split <;> omega

theorem weeklyDatetime_mod (clock : SystemClock) (now : Int) (timeSpec : TimeSpec) (t : Hms)
    (random : Nat) : weeklyDatetime clock now timeSpec t random % 1000 = 0 := by
  cases timeSpec with
  | utc =>
    have hset := setTime_mod now t.hours t.minutes t.seconds
    simp only [weeklyDatetime, SystemClock.toLocal, addSecs]
    omega
  | localTime =>
    have hset := setTime_mod (clock.wall now) t.hours t.minutes t.seconds
    simp only [weeklyDatetime, SystemClock.wall, SystemClock.zone, SystemClock.instant, wall,
      addSecs] at hset ⊢
    omega

theorem randomizeAgain_cases (now : Int) (rand : Nat) (s : Schedule D) :
    ∃ d, randomizeAgain env now rand s = { s with datetime := d } ∧
      (s.type = .absoluteTime → d = s.datetime) ∧
      (d = s.datetime ∨ ∃ w, d = some w ∧ InStep now w) := by
  unfold randomizeAgain
  split
  · rename_i hrandom
    refine ⟨_, rfl, ?_, ?_⟩
    · intro habsolute
      rw [habsolute] at hrandom
      simp at hrandom
    · right
      split
      · exact ⟨_, rfl, .inl (weeklyDatetime_mod _ _ _ _ _)⟩
      · split
        · exact ⟨_, rfl, .inr rfl⟩
        · refine ⟨_, rfl, .inr ?_⟩
          simp only [SystemClock.wall, SystemClock.zone, wall]
          omega
  · exact ⟨s.datetime, rfl, fun _ => rfl, .inl rfl⟩

theorem runCommand_cases (s : Schedule D) :
    (runCommand env s).1 = s ∨ (runCommand env s).1.state = .deleted := by
  unfold runCommand
  simp only
  split
  · exact .inl rfl
  · split
    · exact .inr rfl
    · exact .inl rfl

/-- What a trigger makes of a schedule, but for its date and time: an absolute time and the
last turn of a timer are disabled, and another turn of a timer rearms it. -/
inductive Spent (now : Int) (s : Schedule D) : Schedule D → Prop where
  | disabled : s.type = .absoluteTime ∨ (s.type = .timer ∧ s.recurring = 1) →
      Spent now s (disable env s)
  | rearmed : s.type = .timer → s.recurring ≠ 1 → Spent now s { s with
      endtime := s.endtime.map fun _ => addSecs now s.timeout
      recurring := s.recurring - 1 }
  | weekly : s.type = .recurringTime → Spent now s s

/-- The date and time behind the trigger: an absolute one is as it was, another one may be
drawn again. -/
def Redrawn (now : Int) (s : Schedule D) (d : Option Int) : Prop :=
  (s.type = .absoluteTime → d = s.datetime) ∧ (d = s.datetime ∨ ∃ w, d = some w ∧ InStep now w)

/-- What a tick leaves of a schedule that it triggers: it is deleted, or spent. -/
def Triggered (now : Int) (s s' : Schedule D) : Prop :=
  s'.state = .deleted ∨ ∃ spent d, Spent env now s spent ∧ Redrawn now s d ∧ s' =
    { spent with
      lastTriggerDatetime := some (env.clock.wall now)
      datetime := d }

section trigger

variable {env} {now : Int} {rand : Nat} {s s' : Schedule D}

theorem triggered_of_spent {spent x : Schedule D} (hspent : Spent env now s spent)
    (htype : x.type = s.type) (hdate : x.datetime = s.datetime)
    (hx : x = { spent with lastTriggerDatetime := some (env.clock.wall now) }) :
    Triggered env now s (runCommand env (randomizeAgain env now rand x)).1 := by
  obtain ⟨d, hrandom, habsolute, hstep⟩ := randomizeAgain_cases env now rand x
  rw [hrandom]
  rcases runCommand_cases env { x with datetime := d } with hkept | hdeleted
  · right
    rw [htype, hdate] at habsolute
    rw [hdate] at hstep
    exact ⟨spent, d, hspent, ⟨habsolute, hstep⟩, by rw [hkept, hx]⟩
  · exact .inl hdeleted

theorem triggered_of_deleted {x : Schedule D} (hx : x.state = .deleted) :
    Triggered env now s (runCommand env (randomizeAgain env now rand x)).1 := by
  obtain ⟨d, hrandom, -, -⟩ := randomizeAgain_cases env now rand x
  rw [hrandom]
  rcases runCommand_cases env { x with datetime := d } with hkept | hdeleted
  · left
    rw [hkept]
    exact hx
  · exact .inl hdeleted

/-- **A schedule that is triggered** was due. -/
theorem visit_serve {command : Option Command}
    (h : visit env now rand s = .serve s' command) : IsDue env now s ∧ Triggered env now s s' := by
  have hdue : IsDue env now s := by
    have hserved : (visit env now rand s).IsServed := by
      rw [h]
      trivial
    exact visit_isServed_iff.mp hserved
  refine ⟨hdue, ?_⟩
  rw [visit_of_isDue hdue, Visit.serve.injEq] at h
  rw [← h.1]
  unfold trigger turnTaken
  cases htype : s.type with
  | absoluteTime =>
    rw [if_neg (by simp)]
    unfold useUp
    rw [if_pos htype]
    split
    · exact triggered_of_deleted rfl
    · exact triggered_of_spent (.disabled (.inl htype)) rfl rfl rfl
  | timer =>
    have huse : ∀ x : Schedule D, x.type = .timer → useUp env x = x := by
      intro x hx
      unfold useUp
      rw [hx, if_neg (by simp)]
    rw [if_pos rfl]
    rcases takeTurn_cases env now s with hdeleted | ⟨hlast, hturn⟩ | ⟨hmore, hturn⟩
    · refine triggered_of_deleted ?_
      unfold useUp
      split
      · split
        · rfl
        · exact hdeleted
      · exact hdeleted
    · rw [hturn, huse { disable env s with
        lastTriggerDatetime := some (env.clock.wall now) } htype]
      exact triggered_of_spent (.disabled (.inr ⟨htype, hlast⟩)) rfl rfl rfl
    · rw [hturn, huse { s with
        endtime := s.endtime.map fun _ => addSecs now s.timeout
        recurring := s.recurring - 1
        lastTriggerDatetime := some (env.clock.wall now) } htype]
      exact triggered_of_spent (.rearmed htype hmore) rfl rfl rfl
  | recurringTime =>
    rw [if_neg (by simp)]
    unfold useUp
    rw [if_neg (by simp [htype])]
    exact triggered_of_spent (.weekly htype) rfl rfl rfl
  | invalid =>
    have hnone := hdue.2
    rw [htype] at hnone
    exact hnone.elim

end trigger

section step

variable {sys : ScheduleSystem D} {j : Nat} {s : Schedule D}

/-- **A tick and one schedule**: it is passed, or it is the first due one and is triggered. -/
theorem tick_cases (hs : sys.schedules[j]? = some s) (rand : Nat) :
    (∃ s', (step env sys (.tick rand)).schedules[j]? = some s' ∧ Passed env s s' ∧
      ∀ command, triggered env sys (.tick rand) ≠ some (j, command)) ∨
    (∃ s' command, (step env sys (.tick rand)).schedules[j]? = some s' ∧ IsDue env sys.nextTick s ∧
      Triggered env sys.nextTick s s' ∧
      (∀ i < j, ∀ s', sys.schedules[i]? = some s' → ¬ IsDue env sys.nextTick s') ∧
      triggered env sys (.tick rand) = some (j, command)) := by
  by_cases hfront : ∃ i < j, ∃ s', sys.schedules[i]? = some s' ∧
      (visit env sys.nextTick rand s').IsServed
  · obtain ⟨hkept, hother⟩ := serveFirst_behind hfront
    exact .inl ⟨s, hkept.trans hs, .inl rfl, hother⟩
  · have hnone : ∀ i < j, ∀ s', sys.schedules[i]? = some s' →
        ¬ (visit env sys.nextTick rand s').IsServed :=
      fun i hi s' hs' hserved => hfront ⟨i, hi, s', hs', hserved⟩
    cases hvisit : visit env sys.nextTick rand s with
    | pass s' =>
      obtain ⟨hget, hother⟩ := serveFirst_passed hs hnone hvisit
      exact .inl ⟨s', hget, visit_pass hvisit, hother⟩
    | serve s' command =>
      obtain ⟨hget, hserved⟩ := serveFirst_served hs hnone hvisit
      obtain ⟨hdue, htriggered⟩ := visit_serve hvisit
      exact .inr ⟨s', command, hget, hdue, htriggered,
        fun i hi s' hs' hdue' => hnone i hi s' hs' (visit_isServed_iff.mpr hdue'), hserved⟩

theorem tick_get {rand : Nat} {s' : Schedule D}
    (h : (step env sys (.tick rand)).schedules[j]? = some s') :
    ∃ s, sys.schedules[j]? = some s := by
  have hlt : j < (serveFirst (visit env sys.nextTick rand) sys.schedules).1.length :=
    (List.getElem?_eq_some_iff.mp h).1
  rw [serveFirst_length] at hlt
  exact ⟨_, List.getElem?_eq_getElem hlt⟩

end step

end Schedules
end DeconzRest

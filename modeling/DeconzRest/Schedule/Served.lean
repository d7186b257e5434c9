import DeconzRest.Schedule.Timer

/-!
# Which schedules are served in time

A tick triggers the first schedule that is due and looks at no other behind it; a schedule is
due for five seconds and is then given up.  So a schedule is served if it never stands behind
another one that is due when its last tick comes (`served_or_awaited`), and six timers that
end together are one too many (`sixth_lost`).
-/

namespace DeconzRest
namespace Schedules

open QVariant (value contains)
open QString FirstServed Transition

variable {D : Type} (env : ScheduleEnv D)

/-! ## What a tick triggers -/

/-- A schedule that a tick triggers if it comes to it -/
def IsDue (now : Int) (s : Schedule D) : Prop :=
  isActive s ∧
    match s.type with
    | .absoluteTime => -5 < absoluteDiff env now s ∧ absoluteDiff env now s ≤ 0
    | .timer => (∀ e, s.endtime = some e → e ≤ now) ∧ -5 < timerDiff now s
    | .recurringTime =>
      isToday env now s ∧ ¬ hasFired env now s ∧ weeklyDiff env now s ≤ 0 ∧ -5 <
        weeklyDiff env now s
    | .invalid => False

/-- A command that can be run has a method and an address. -/
def HasCommand (s : Schedule D) : Prop :=
  let cmd := (value s.jsonMap "command").toMap
  isCommand cmd = true ∧ (value cmd "method").toString env.qt ≠ [] ∧
    (value cmd "address").toString env.qt ≠ []

instance (s : Schedule D) : Decidable (HasCommand env s) :=
  inferInstanceAs (Decidable (_ ∧ _ ∧ _))

def commandOf (s : Schedule D) : Command :=
  let cmd := (value s.jsonMap "command").toMap
  { method := (value cmd "method").toString env.qt
    address := (value cmd "address").toString env.qt
    content := jsonText env (value cmd "body").toMap }

theorem jsonText_ne_nil (map : List (QString × QVariant D)) : jsonText env map ≠ [] := by
  have hchars : ∀ n b (bytes : List UInt8), decodeUtf8 (n + 1) (b :: bytes) ≠ [] := by
    intro n b bytes
    rw [decodeUtf8]
    split <;> simp
  have hunits : ∀ cs : List Char, cs ≠ [] → ofChars cs ≠ [] := by
    intro cs hcs
    cases cs with
    | nil => exact absurd rfl hcs
    | cons c cs =>
      rw [ofChars_cons, utf16]
      split <;> simp
  have hbrace : Json.ascii "\x7b" = [0x7b] := by decide
  unfold jsonText fromUtf8
  rw [Json.serialize, hbrace, List.append_assoc, List.singleton_append]
  exact hunits _ (hchars _ _ _)

theorem runCommand_of_hasCommand {s : Schedule D} (h : HasCommand env s) :
    runCommand env s = (s, some (commandOf env s)) := by
  obtain ⟨hcommand, hmethod, haddress⟩ := h
  have hcontent := jsonText_ne_nil env
    (value (value s.jsonMap "command").toMap "body").toMap
  simp [runCommand, hcommand, hmethod, haddress, hcontent, commandOf]

theorem command_of_map {s s' : Schedule D}
    (h : value s'.jsonMap "command" = value s.jsonMap "command") :
    (HasCommand env s' ↔ HasCommand env s) ∧ commandOf env s' = commandOf env s := by
  simp [HasCommand, commandOf, h]

theorem command_disable (s : Schedule D) :
    value (disable env s).jsonMap "command" = value s.jsonMap "command" := by
  have hne : ofLatin1 "command" ≠ ofLatin1 "status" := by decide
  simp [disable, QVariant.value_insert, hne]

theorem command_takeTurn (now : Int) (s : Schedule D) :
    value (takeTurn env now s).jsonMap "command" = value s.jsonMap "command" := by
  unfold takeTurn
  split
  · split
    · rfl
    · exact command_disable env s
  · rfl

/-- A due schedule in front of the trigger: only a timer loses a turn. -/
def turnTaken (now : Int) (s : Schedule D) : Schedule D :=
  if s.type = .timer then takeTurn env now s else s

theorem command_turnTaken (now : Int) (s : Schedule D) :
    value (turnTaken env now s).jsonMap "command" = value s.jsonMap "command" := by
  unfold turnTaken
  split
  · exact command_takeTurn env now s
  · rfl

theorem command_useUp (s : Schedule D) :
    value (useUp env s).jsonMap "command" = value s.jsonMap "command" := by
  unfold useUp
  split
  · split
    · rfl
    · exact command_disable env s
  · rfl

theorem randomizeAgain_jsonMap (now : Int) (rand : Nat) (s : Schedule D) :
    (randomizeAgain env now rand s).jsonMap = s.jsonMap := by
  unfold randomizeAgain
  split <;> rfl

theorem trigger_command (now : Int) (rand : Nat) {s : Schedule D} (h : HasCommand env s) :
    (trigger env now rand s).2 = some (commandOf env s) := by
  have hmap : value (randomizeAgain env now rand
      (useUp env { s with lastTriggerDatetime := some (env.clock.wall now) })).jsonMap "command" =
        value s.jsonMap "command" := by
    rw [randomizeAgain_jsonMap, command_useUp]
  obtain ⟨hhas, hsame⟩ := command_of_map env hmap
  unfold trigger
  rw [runCommand_of_hasCommand env (hhas.mpr h), hsame]

section settle

variable {env} {now diff : Int} {rand : Nat} {s : Schedule D}

theorem settle_of_due (h : -5 < diff ∧ diff ≤ 0) : settle env now rand diff s =
    .serve (trigger env now rand s).1 (trigger env now rand s).2 := by
  have hlate : ¬ diff ≤ -5 := by omega
  simp [settle, hlate, h.2]

theorem settle_isServed_iff : (settle env now rand diff s).IsServed ↔ -5 < diff ∧ diff ≤ 0 := by
  constructor
  · intro h
    unfold settle at h
    split at h
    · split at h <;> exact h.elim
    · split at h
      · omega
      · exact h.elim
  · intro h
    rw [settle_of_due h]
    trivial

theorem timerDiff_nonpos (h : ∀ e, s.endtime = some e → e ≤ now) : timerDiff now s ≤ 0 := by
  unfold timerDiff
  split
  · rename_i e he
    have hpast := h e he
    rw [QDateTime.secsTo_past hpast]
    omega
  · exact Int.le_refl 0

theorem visit_of_isDue (h : IsDue env now s) : visit env now rand s =
    .serve (trigger env now rand (turnTaken env now s)).1
      (trigger env now rand (turnTaken env now s)).2 := by
  obtain ⟨hactive, hdue⟩ := h
  unfold visit turnTaken
  rw [if_pos hactive]
  cases htype : s.type with
  | absoluteTime =>
    rw [htype] at hdue
    exact settle_of_due hdue
  | timer =>
    rw [htype] at hdue
    obtain ⟨hpast, hlate⟩ := hdue
    have hover : ¬ ∃ e, s.endtime = some e ∧ now < e := by
      rintro ⟨e, he, hfuture⟩
      have hle := hpast e he
      omega
    simp only [hover, if_false]
    exact settle_of_due ⟨hlate, timerDiff_nonpos hpast⟩
  | recurringTime =>
    rw [htype] at hdue
    obtain ⟨htoday, hfired, hpast, hlate⟩ := hdue
    simp only [htoday, hfired, hpast, not_false_eq_true, and_self, if_true]
    exact settle_of_due ⟨hlate, hpast⟩
  | invalid =>
    rw [htype] at hdue
    exact hdue.elim

theorem visit_isServed_iff : (visit env now rand s).IsServed ↔ IsDue env now s := by
  constructor
  · intro h
    unfold visit at h
    split at h
    · rename_i hactive
      refine ⟨hactive, ?_⟩
      cases htype : s.type with
      | absoluteTime =>
        rw [htype] at h
        exact settle_isServed_iff.mp h
      | timer =>
        rw [htype] at h
        simp only at h
        split at h
        · exact h.elim
        · rename_i hover
          refine ⟨?_, (settle_isServed_iff.mp h).1⟩
          intro e he
          by_contra hfuture
          exact hover ⟨e, he, by omega⟩
      | recurringTime =>
        rw [htype] at h
        simp only at h
        split at h
        · rename_i hweekly
          obtain ⟨htoday, hfired, hpast⟩ := hweekly
          exact ⟨htoday, hfired, hpast, (settle_isServed_iff.mp h).1⟩
        · exact h.elim
      | invalid =>
        rw [htype] at h
        exact h.elim
    · exact h.elim
  · intro h
    rw [visit_of_isDue h]
    trivial

end settle

def dueTime (s : Schedule D) : Option Int :=
  match s.type with
  | .absoluteTime => s.datetime.map env.clock.instant
  | .timer => s.endtime
  | _ => none

/-- The time of an enabled schedule is reached: the point in time has come, or the clock of a
chosen weekday shows the clock time or a later one, and it was not triggered since. -/
def Reached (now : Int) (s : Schedule D) : Prop :=
  isActive s ∧ if s.type =
    .recurringTime then
      isToday env now s ∧ ¬ hasFired env now s ∧ weeklyDiff env now s ≤ 0
    else
      ∃ due, dueTime env s = some due ∧ due ≤ now

/-- Its time was reached less than five seconds ago. -/
def OnTime (now : Int) (s : Schedule D) : Prop :=
  Reached env now s ∧ if s.type = .recurringTime then -5 <
    weeklyDiff env now s
    else ∀ due, dueTime env s = some due → now < due + 5000

section time

variable {env} {now : Int} {s : Schedule D}

theorem isDue_of_onTime (h : OnTime env now s) : IsDue env now s := by
  obtain ⟨⟨hactive, hreached⟩, hlate⟩ := h
  refine ⟨hactive, ?_⟩
  cases htype : s.type with
  | absoluteTime =>
    simp only [htype, reduceCtorEq, if_false] at hreached hlate
    obtain ⟨due, hdue, hpast⟩ := hreached
    have hnotLate := hlate due hdue
    simp only [dueTime, htype, Option.map_eq_some_iff] at hdue
    obtain ⟨w, hw, rfl⟩ := hdue
    show -5 < absoluteDiff env now s ∧ absoluteDiff env now s ≤ 0
    unfold absoluteDiff
    rw [hw]
    cases s.endtime with
    | none => simp
    | some e =>
      simp only
      rw [QDateTime.secsTo_past hpast]
      omega
  | timer =>
    simp only [htype, reduceCtorEq, if_false] at hreached hlate
    obtain ⟨due, hdue, hpast⟩ := hreached
    have hnotLate := hlate due hdue
    simp only [dueTime, htype] at hdue
    constructor
    · intro e he
      rw [hdue, Option.some.injEq] at he
      omega
    · unfold timerDiff
      rw [hdue]
      simp only
      rw [QDateTime.secsTo_past hpast]
      omega
  | recurringTime =>
    simp only [htype, if_true] at hreached hlate
    exact ⟨hreached.1, hreached.2.1, hreached.2.2, hlate⟩
  | invalid => simp [htype, dueTime] at hreached

theorem onTime_of_reached (htype : s.type ≠ .recurringTime) (hbefore : ¬ Reached env now s)
    (hreached : Reached env (now + 1000) s) : OnTime env (now + 1000) s := by
  refine ⟨hreached, ?_⟩
  obtain ⟨hactive, htime⟩ := hreached
  rw [if_neg htype] at htime ⊢
  intro due hdue
  have hfuture : ¬ due ≤ now := by
    intro hle
    refine hbefore ⟨hactive, ?_⟩
    rw [if_neg htype]
    exact ⟨due, hdue, hle⟩
  omega

end time

/-! ## Runs -/

def Edits (id : QString) : Action → Prop
  | .tick _ => False
  | .create _ _ _ => False
  | .update _ _ id' _ => id' = id
  | .delete id' => id' = id

/-- The next tick reaches the time of a schedule, or comes within five seconds of it. -/
def Awaited (sys : ScheduleSystem D) (s : Schedule D) : Prop :=
  (¬ Reached env sys.lastTick s ∧ Reached env sys.nextTick s) ∨ OnTime env sys.nextTick s

/-- **The turn of a schedule.**  When a tick comes at its time: the clock was not put forward
past a weekly time; if the tick after it is too late, no schedule in front is due; and if none
in front is due, the command can be run. -/
def HasTurn (j : Nat) (sys : ScheduleSystem D) : Action → Prop
  | .tick _ => ∀ s, sys.schedules[j]? = some s →
      (s.type = .recurringTime → ¬ Reached env sys.lastTick s → Reached env sys.nextTick s →
        OnTime env sys.nextTick s) ∧
      (OnTime env sys.nextTick s → ¬ OnTime env (sys.nextTick + 1000) s → ∀ i <
        j, ∀ s', sys.schedules[i]? = some s' → ¬ IsDue env sys.nextTick s') ∧
      (OnTime env sys.nextTick s →
        (∀ i < j, ∀ s', sys.schedules[i]? = some s' → ¬ IsDue env sys.nextTick s') →
          HasCommand env s)
  | _ => True

section requests

variable {env} {sys : ScheduleSystem D} {j : Nat} {s : Schedule D}

theorem findSchedule_some {schedules : List (Schedule D)} {id : QString} {i : Nat}
    (h : findSchedule schedules id = some i) :
    ∃ s, schedules[i]? = some s ∧ s.state = .normal ∧ s.id = id := by
  unfold findSchedule at h
  obtain ⟨hi, hmatch, -⟩ := List.findIdx?_eq_some_iff_getElem.mp h
  simp only [Bool.and_eq_true, decide_eq_true_eq, beq_iff_eq] at hmatch
  exact ⟨_, List.getElem?_eq_getElem hi, hmatch.1, hmatch.2⟩

theorem step_request (hs : sys.schedules[j]? = some s) {act : Action} (hedit : ¬ Edits s.id act)
    (hact : ∀ rand, act ≠ .tick rand) :
    (step env sys act).schedules[j]? = some s ∧ (step env sys act).lastTick = sys.lastTick := by
  have hother : ∀ id i, findSchedule sys.schedules id = some i → id ≠ s.id → i ≠ j := by
    rintro id i hfind hid rfl
    obtain ⟨s', hs', -, hsame⟩ := findSchedule_some hfind
    rw [hs, Option.some.injEq] at hs'
    exact hid (hs' ▸ hsame.symm)
  cases act with
  | tick rand => exact absurd rfl (hact rand)
  | create ms rand content =>
    refine ⟨?_, rfl⟩
    show (createSchedule env sys.schedules (sys.at ms) rand content).1[j]? = some s
    unfold createSchedule
    split
    · exact hs
    · have hlt := (List.getElem?_eq_some_iff.mp hs).1
      simp only
      rwa [List.getElem?_append_left hlt]
  | update ms rand id content =>
    refine ⟨?_, rfl⟩
    show (setScheduleAttributes env sys.schedules (sys.at ms) rand id content).1[j]? = some s
    unfold setScheduleAttributes
    split
    · exact hs
    · rename_i i hfind
      have hne := hother id i hfind hedit
      simp only
      split
      · exact hs
      · split
        · exact hs
        · simp only
          rwa [List.getElem?_set_ne hne]
  | delete id =>
    refine ⟨?_, rfl⟩
    show (deleteSchedule env sys.schedules id).1[j]? = some s
    unfold deleteSchedule
    split
    · exact hs
    · rename_i i hfind
      simp only
      have hne := hother id i hfind hedit
      simp [hne, hs]

/-- **One step.**  The schedule is triggered, with its command, or it is as it was and is
still awaited. -/
theorem step_served_or_awaited (hs : sys.schedules[j]? = some s) (hawaited : Awaited env sys s)
    {act : Action} (hedit : ¬ Edits s.id act) (hturn : HasTurn env j sys act) :
    triggered env sys act = some (j, some (commandOf env s)) ∨
      ((step env sys act).schedules[j]? = some s ∧ Awaited env (step env sys act) s) := by
  by_cases hrequest : ∀ rand, act ≠ .tick rand
  · have hstep : (step env sys act).schedules[j]? = some s ∧ (step env sys act).lastTick =
        sys.lastTick := step_request hs hedit hrequest
    obtain ⟨hkept, htick⟩ := hstep
    refine .inr ⟨hkept, ?_⟩
    unfold Awaited ScheduleSystem.nextTick at hawaited ⊢
    rwa [htick]
  · obtain ⟨rand, rfl⟩ : ∃ rand, act = .tick rand := by
      by_contra hno
      exact hrequest fun rand heq => hno ⟨rand, heq⟩
    obtain ⟨hclock, hlast, hcommand⟩ := hturn s hs
    -- this tick is on time: only a weekly time can be jumped over
    have honTime : OnTime env sys.nextTick s := by
      rcases hawaited with ⟨hbefore, hreached⟩ | honTime
      · by_cases htype : s.type = .recurringTime
        · exact hclock htype hbefore hreached
        · exact onTime_of_reached htype hbefore hreached
      · exact honTime
    by_cases hfront : ∃ i < j, ∃ s', sys.schedules[i]? = some s' ∧ IsDue env sys.nextTick s'
    · -- another one is triggered, and the tick after this one is on time as well
      have hserved : ∃ i < j, ∃ s', sys.schedules[i]? = some s' ∧
          (visit env sys.nextTick rand s').IsServed := by
        obtain ⟨i, hi, s', hs', hdue⟩ := hfront
        exact ⟨i, hi, s', hs', visit_isServed_iff.mpr hdue⟩
      obtain ⟨hkept, -⟩ := serveFirst_behind hserved
      refine .inr ⟨hkept.trans hs, .inr ?_⟩
      by_contra hlate
      obtain ⟨i, hi, s', hs', hdue⟩ := hfront
      exact hlast honTime hlate i hi s' hs' hdue
    · left
      have hnone : ∀ i < j, ∀ s', sys.schedules[i]? = some s' → ¬ IsDue env sys.nextTick s' :=
        fun i hi s' hs' hdue => hfront ⟨i, hi, s', hs', hdue⟩
      obtain ⟨hhas, hsame⟩ := command_of_map env (command_turnTaken env sys.nextTick s)
      have hvisit : visit env sys.nextTick rand s = _ := visit_of_isDue (isDue_of_onTime honTime)
      have hserved := (serveFirst_served hs (fun i hi s' hs' hserved =>
        hnone i hi s' hs' (visit_isServed_iff.mp hserved)) hvisit).2
      rw [trigger_command env _ _ (hhas.mpr (hcommand honTime hnone)), hsame] at hserved
      exact hserved

end requests

/-- **Every schedule is served in time** as long as it has its turn: in every run without a
request about it, some tick triggers it while it is as it was, or it still is as it was and
the next tick is within five seconds of its time. -/
theorem served_or_awaited {sys : ScheduleSystem D} {j : Nat} {s : Schedule D}
    (hs : sys.schedules[j]? = some s) (hawaited : Awaited env sys s) {acts : List Action}
    (hedit : ∀ act ∈ acts, ¬ Edits s.id act)
    (hturns : AllSteps (step env) (HasTurn env j) sys acts) :
    (∃ (m : Nat) (h : m < acts.length), triggered env (stateAt (step env) sys acts m) acts[m] =
      some (j, some (commandOf env s)) ∧ ∀ k ≤ m, (stateAt (step env) sys acts k).schedules[j]? =
        some s) ∨
      ((run (step env) sys acts).schedules[j]? = some s ∧
        Awaited env (run (step env) sys acts) s) := by
  induction acts generalizing sys with
  | nil => exact .inr ⟨hs, hawaited⟩
  | cons act acts ih =>
    obtain ⟨hturn, hrest⟩ := allSteps_cons hturns
    obtain ⟨hfirst, hothers⟩ := List.forall_mem_cons.mp hedit
    rcases step_served_or_awaited hs hawaited hfirst hturn with hserved | ⟨hkept, hstill⟩
    · refine .inl ⟨0, by simp, hserved, ?_⟩
      intro k hk
      rw [Nat.le_zero.mp hk, stateAt_zero]
      exact hs
    · rcases ih hkept hstill hothers hrest with ⟨m, hm, hserved, hbefore⟩ | hend
      · refine .inl ⟨m + 1, by simpa using hm, by simpa [stateAt] using hserved, ?_⟩
        intro k hk
        cases k with
        | zero => exact hs
        | succ k => simpa [stateAt] using hbefore k (by omega)
      · exact .inr hend

/-! ## Six timers -/

/-- A system in Greenwich that knows no date -/
def greenwich : ScheduleEnv Int where
  qt := Qt.whole
  clock :=
    { offset := fun _ => 0
      localOffset := fun _ => 0
      fromIso := fun _ => none
      toText := fun _ => []
      isDigit := isAsciiDigit
      etag := fun _ => [] }

def tenSecondsBody : QString :=
  ofLatin1 ("\x7b\"command\":\x7b\"address\":\"/api/k/lights/1/state\",\"body\":\x7b\x7d," ++
    "\"method\":\"PUT\"\x7d,\"time\":\"PT00:00:10\"\x7d")

def timersBeforeEnd (n : Nat) : ScheduleSystem Int :=
  run (step greenwich) ⟨0, []⟩
    (List.replicate n (.create 0 0 tenSecondsBody) ++ List.replicate 9 (.tick 0))

theorem timersBeforeEnd_get {n j : Nat} {s : Schedule Int}
    (hs : (timersBeforeEnd n).schedules[j]? = some s)
    (hfields : (timersBeforeEnd n).schedules[j]?.map
      (fun s => (s.type, s.state, s.status, s.endtime)) =
        some (.timer, .normal, ofLatin1 "enabled", some 10000))
    (htick : (timersBeforeEnd n).lastTick = 9000) : Awaited greenwich (timersBeforeEnd n) s := by
  rw [hs, Option.map_some, Option.some.injEq, Prod.mk.injEq, Prod.mk.injEq, Prod.mk.injEq] at hfields
  obtain ⟨htype, hstate, hstatus, hend⟩ := hfields
  have hactive : isActive s := ⟨hstate, by simp [isEnabled, hstatus]⟩
  refine .inl ⟨?_, ?_⟩ <;> simp [Reached, dueTime, ScheduleSystem.nextTick, htick, htype, hend,
    hactive]

theorem hasTurn_of_fields {sys : ScheduleSystem Int} {j : Nat}
    (hfields : sys.schedules[j]?.map (fun s => (s.type, s.endtime, decide (HasCommand greenwich s))) =
      some (.timer, some 10000, true)) (htick : sys.nextTick + 1000 < 15000) (rand : Nat) :
    HasTurn greenwich j sys (.tick rand) := by
  intro s hs
  simp only [hs, Option.map_some, Option.some.injEq, Prod.mk.injEq, decide_eq_true_eq] at hfields
  obtain ⟨htype, hend, hcommand⟩ := hfields
  refine ⟨fun hweekly => ?_, fun honTime hlate => (hlate ?_).elim, fun _ _ => hcommand⟩
  · rw [htype] at hweekly
    cases hweekly
  · simp only [OnTime, Reached, dueTime, htype, hend, reduceCtorEq, if_false, Option.some.injEq,
      exists_eq_left', forall_eq'] at honTime ⊢
    exact ⟨⟨honTime.1.1, by omega⟩, by omega⟩

/-- The second of two timers, two ticks long -/
theorem served_or_awaited_twoTimers : ∃ s, (timersBeforeEnd 2).schedules[1]? = some s ∧
    ((∃ (m : Nat) (h : m < 2),
      triggered greenwich (stateAt (step greenwich) (timersBeforeEnd 2)
        [.tick 0, .tick 0] m) ([Action.tick 0, .tick 0].get ⟨m, h⟩) =
          some (1, some (commandOf greenwich s)) ∧
        ∀ k ≤ m, (stateAt (step greenwich) (timersBeforeEnd 2)
          [.tick 0, .tick 0] k).schedules[1]? = some s) ∨
      ((run (step greenwich) (timersBeforeEnd 2) [.tick 0, .tick 0]).schedules[1]? = some s ∧
        Awaited greenwich (run (step greenwich) (timersBeforeEnd 2) [.tick 0, .tick 0]) s)) := by
  have hfields : (timersBeforeEnd 2).schedules[1]?.map
      (fun s => (s.type, s.state, s.status, s.endtime)) =
        some (.timer, .normal, ofLatin1 "enabled", some 10000) := by decide +kernel
  obtain ⟨s, hs, -⟩ := Option.map_eq_some_iff.mp hfields
  have hturns : AllSteps (step greenwich) (HasTurn greenwich 1) (timersBeforeEnd 2)
      [.tick 0, .tick 0] :=
    allSteps_of_cons (hasTurn_of_fields (by decide +kernel) (by decide +kernel) 0)
      (allSteps_of_cons (hasTurn_of_fields (by decide +kernel) (by decide +kernel) 0)
        (allSteps_nil _ _ _))
  have hedit : ∀ act ∈ [Action.tick 0, .tick 0], ¬ Edits s.id act := by simp [Edits]
  exact ⟨s, hs, served_or_awaited greenwich hs
    (timersBeforeEnd_get hs hfields (by decide +kernel)) hedit hturns⟩

/-- **The sixth of six timers is lost.**  It is awaited a second before all of them end; six
ticks later it is deleted, and none of them has triggered it. -/
theorem sixth_lost : ∃ s, (timersBeforeEnd 6).schedules[5]? = some s ∧
    Awaited greenwich (timersBeforeEnd 6) s ∧
    (∀ m < 6, (triggered greenwich (stateAt (step greenwich) (timersBeforeEnd 6)
      (List.replicate 6 (.tick 0)) m) (.tick 0)).map Prod.fst ≠ some 5) ∧
    ((run (step greenwich) (timersBeforeEnd 6) (List.replicate 6 (.tick 0))).schedules[5]?.map
      fun s => s.state) = some .deleted := by
  have hfields : (timersBeforeEnd 6).schedules[5]?.map
      (fun s => (s.type, s.state, s.status, s.endtime)) =
        some (.timer, .normal, ofLatin1 "enabled", some 10000) := by decide +kernel
  obtain ⟨s, hs, -⟩ := Option.map_eq_some_iff.mp hfields
  refine ⟨s, hs, timersBeforeEnd_get hs hfields (by decide +kernel), ?_, ?_⟩
  · decide +kernel
  · decide +kernel

end Schedules
end DeconzRest

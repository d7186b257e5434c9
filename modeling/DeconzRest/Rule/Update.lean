import DeconzRest.Rule.Requests

/-!
# What a rule update touches

Two properties that one would like an update to have, and when it has them:

* an update that answers with an error leaves the rule alone (`updateRule_atomic_iff`).
  Errors of the actions and conditions are found behind the writes of name, status and
  period, so it does unless one of these writes makes a difference;
* an update that succeeds leaves alone what the body does not speak of
  (`updateRule_frame_iff`).  The status is written at the end even so, so it does if
  the body has a status or the rule was enabled.
-/

namespace DeconzRest
namespace RuleRequest

open QVariant (value contains)
open QString

variable {D : Type} {env : RuleEnv D}

/-! ## Errors -/

/-- The actions or the conditions of the body have an error. -/
def LateError (env : RuleEnv D) (res : Resources) (map : List (QString × QVariant D)) : Prop :=
  ActionsFail env map ∨ ConditionsFail env res map

/-- Each field that is written in front of the last check has its new value already. -/
structure Unwritten (env : RuleEnv D) (map : List (QString × QVariant D)) (rule : Rule D) :
    Prop where
  name : contains map "name" = true → (value map "name").toString env.qt = rule.name
  status : (if contains map "status" then (value map "status").toString env.qt
    else ofLatin1 "disabled") = rule.status
  periodic : ∀ ms, contains map "periodic" = true → env.qt.toInt (value map "periodic") = some ms →
    ms = rule.triggerPeriodic
  actions : contains map "actions" = true → ¬ ActionsFail env map →
    (value map "actions").toList.map (newAction env) = rule.actions

/-- The period behind `writePeriodic`. -/
def periodicOf (env : RuleEnv D) (map : List (QString × QVariant D)) (rule : Rule D) : Int :=
  if contains map "periodic" then
    (env.qt.toInt (value map "periodic")).getD rule.triggerPeriodic
  else
    rule.triggerPeriodic

theorem writeFields_eq (map : List (QString × QVariant D)) (rule : Rule D) :
    writeFields env map rule =
      { rule with
          name := if contains map "name" then
              (value map "name").toString env.qt
            else rule.name
          status := if contains map "status" then
              (value map "status").toString env.qt
            else if contains map "actions" || contains map "conditions" then
              ofLatin1 "disabled"
            else rule.status
          triggerPeriodic := periodicOf env map rule } := by
  unfold writeFields writePeriodic writeStatus writeName markRule periodicOf
  cases contains map "name" <;> cases contains map "status" <;>
    cases contains map "periodic" <;>
    cases contains map "actions" || contains map "conditions" <;>
    cases env.qt.toInt (value map "periodic") <;> rfl

variable {map : List (QString × QVariant D)} {rule : Rule D}

theorem periodicOf_eq_iff :
    periodicOf env map rule = rule.triggerPeriodic ↔ ∀ ms, contains map "periodic" =
      true → env.qt.toInt (value map "periodic") = some ms → ms = rule.triggerPeriodic := by
  unfold periodicOf
  cases contains map "periodic" with
  | false => simp
  | true =>
    cases env.qt.toInt (value map "periodic") with
    | none => simp
    | some ms => simp

theorem writeFields_eq_self_iff
    (hmarked : (contains map "actions" || contains map "conditions") = true) :
    writeFields env map rule = rule ↔
      (contains map "name" = true → (value map "name").toString env.qt = rule.name) ∧
      (if contains map "status" then (value map "status").toString env.qt
        else ofLatin1 "disabled") = rule.status ∧
      ∀ ms, contains map "periodic" = true → env.qt.toInt (value map "periodic") = some ms → ms =
        rule.triggerPeriodic := by
  rw [← periodicOf_eq_iff, writeFields_eq, if_pos hmarked]
  constructor
  · intro h
    have hname := congrArg Rule.name h
    have hstatus := congrArg Rule.status h
    have hperiodic := congrArg Rule.triggerPeriodic h
    refine ⟨fun hkey => ?_, hstatus, hperiodic⟩
    rw [if_pos hkey] at hname
    exact hname
  · rintro ⟨hname, hstatus, hperiodic⟩
    rw [hstatus, hperiodic]
    by_cases hkey : contains map "name" = true
    · rw [if_pos hkey, hname hkey]
    · rw [if_neg hkey]

theorem exchangeActions_writeFields_eq_self_iff :
    exchangeActions env map (writeFields env map rule) = rule ↔ writeFields env map rule =
      rule ∧
        (contains map "actions" = true → (value map "actions").toList.map (newAction env) =
          rule.actions) := by
  unfold exchangeActions
  by_cases hkey : contains map "actions" = true
  · rw [if_pos hkey, writeFields_eq]
    constructor
    · intro h
      have hactions := congrArg Rule.actions h
      refine ⟨?_, fun _ => hactions⟩
      rw [← hactions] at h ⊢
      exact h
    · rintro ⟨h, hactions⟩
      rw [hactions hkey, ← congrArg Rule.actions h]
      exact h
  · rw [if_neg hkey]
    exact ⟨fun h => ⟨h, fun hkey' => absurd hkey' hkey⟩, And.left⟩

/-- **When a failed update leaves the rule alone.**  For every rule and every body: an
error answer leaves the rule as it was, if and only if the body does not come to the
checks of its actions and conditions with an error in them, or all that was written until
then had its new value before. -/
theorem updateRule_atomic_iff {store : RuleStore D} {id : QString} {i : Nat} {rule : Rule D}
    (hfind : findRule store.rules id = some (i, rule)) (content : QString) :
    ((updateRule env store id content).2.httpStatus ≠ httpStatusOk →
        (updateRule env store id content).1.rules[i]? = some rule) ↔
      (¬ Refused env id content → LateError env store.res (bodyMap env content) →
        Unwritten env (bodyMap env content) rule) := by
  rw [getElem?_updateRule hfind, updateRule_found hfind, Option.some.injEq]
  have hbad : httpStatusBadRequest ≠ httpStatusOk := by decide
  by_cases hrefused : Refused env id content
  · obtain ⟨hrule, -, -⟩ := updateFound_of_refused hrefused store.res rule
    exact ⟨fun _ h => absurd hrefused h, fun _ _ => hrule⟩
  · rw [updateFound_of_not_refused hrefused]
    generalize bodyMap env content = map
    by_cases hactions : ActionsFail env map
    · -- the actions fail: name, status and period are written
      obtain ⟨hrule, -, hstatus⟩ := applyUpdate_of_actionsFail hactions store.res id rule
      have hmarked : (contains map "actions" || contains map "conditions") =
          true := by rw [hactions.1, Bool.true_or]
      rw [hrule, hstatus, writeFields_eq_self_iff hmarked]
      constructor
      · intro h _ _
        obtain ⟨hname, hstatus', hperiodic⟩ := h hbad
        exact ⟨hname, hstatus', hperiodic, fun _ hnot => absurd hactions hnot⟩
      · intro h _
        have hunwritten := h hrefused (.inl hactions)
        exact ⟨hunwritten.name, hunwritten.status, hunwritten.periodic⟩
    · by_cases hconditions : ConditionsFail env store.res map
      · -- the conditions fail: the actions are written as well
        obtain ⟨hrule, -, hstatus⟩ := applyUpdate_of_conditionsFail hactions hconditions id rule
        have hmarked : (contains map "actions" || contains map "conditions") =
            true := by rw [hconditions.1, Bool.or_true]
        rw [hrule, hstatus, exchangeActions_writeFields_eq_self_iff,
          writeFields_eq_self_iff hmarked]
        constructor
        · intro h _ _
          obtain ⟨⟨hname, hstatus', hperiodic⟩, hsame⟩ := h hbad
          exact ⟨hname, hstatus', hperiodic, fun hkey _ => hsame hkey⟩
        · intro h _
          have hunwritten := h hrefused (.inr hconditions)
          exact ⟨⟨hunwritten.name, hunwritten.status, hunwritten.periodic⟩,
            fun hkey => hunwritten.actions hkey hactions⟩
      · -- no error, so the answer is no error either
        obtain ⟨-, -, hstatus⟩ := applyUpdate_of_ok hactions hconditions id rule
        refine ⟨fun _ _ hlate => ?_, fun _ hnot => absurd hstatus hnot⟩
        rcases hlate with h | h
        · exact absurd h hactions
        · exact absurd h hconditions

def oneRule (rule : Rule Int) : RuleStore Int where
  rules := [rule]
  res := Resources.oneSensor {}

def nightRule (status : String) : Rule Int where
  id := ofLatin1 "1"
  handle := 1
  name := ofLatin1 "night"
  status := ofLatin1 status

theorem findRule_nightRule (status : String) :
    findRule (oneRule (nightRule status)).rules (ofLatin1 "1") = some (0, nightRule status) := rfl

def badActions : QString := ofLatin1 "\x7b\"name\":\"day\",\"actions\":[1]\x7d"

theorem updateRule_atomic_iff_badActions :
    ((updateRule RuleEnv.utc (oneRule (nightRule "enabled")) (ofLatin1 "1")
          badActions).2.httpStatus ≠ httpStatusOk →
        (updateRule RuleEnv.utc (oneRule (nightRule "enabled")) (ofLatin1 "1")
          badActions).1.rules[0]? = some (nightRule "enabled")) ↔
      (¬ Refused RuleEnv.utc (ofLatin1 "1") badActions →
        LateError RuleEnv.utc (Resources.oneSensor {}) (bodyMap RuleEnv.utc badActions) →
          Unwritten RuleEnv.utc (bodyMap RuleEnv.utc badActions) (nightRule "enabled")) :=
  updateRule_atomic_iff (findRule_nightRule "enabled") badActions

/-- **A failed update renames and disables the rule.** -/
theorem badActions_written :
    findRule (oneRule (nightRule "enabled")).rules (ofLatin1 "1") = some (0, nightRule "enabled") ∧
      (updateRule RuleEnv.utc (oneRule (nightRule "enabled")) (ofLatin1 "1")
        badActions).2.httpStatus = httpStatusBadRequest ∧
      (updateRule RuleEnv.utc (oneRule (nightRule "enabled")) (ofLatin1 "1")
        badActions).1.rules.map (fun rule => (rule.name, rule.status)) =
        [(ofLatin1 "day", ofLatin1 "disabled")] :=
  ⟨rfl, by decide +kernel, by decide +kernel⟩

/-! ## Success -/

/-- What the body does not speak of is the same in both rules. -/
structure Framed (map : List (QString × QVariant D)) (rule rule' : Rule D) : Prop where
  name : contains map "name" = false → rule'.name = rule.name
  status : contains map "status" = false → rule'.status = rule.status
  periodic : contains map "periodic" = false → rule'.triggerPeriodic = rule.triggerPeriodic
  conditions : contains map "conditions" = false → rule'.conditions = rule.conditions
  actions : contains map "actions" = false → rule'.actions = rule.actions

theorem not_error_of_ok {res : Resources} {id content : QString}
    (hok : (updateFound env res id content rule).rsp.httpStatus = httpStatusOk) :
    ¬ Refused env id content ∧ ¬ ActionsFail env (bodyMap env content) ∧
      ¬ ConditionsFail env res (bodyMap env content) := by
  have hbad : httpStatusBadRequest ≠ httpStatusOk := by decide
  have hrefused : ¬ Refused env id content := by
    intro h
    rw [(updateFound_of_refused h res rule).2.2] at hok
    exact hbad hok
  rw [updateFound_of_not_refused hrefused] at hok
  have hactions : ¬ ActionsFail env (bodyMap env content) := by
    intro h
    rw [(applyUpdate_of_actionsFail h res id rule).2.2] at hok
    exact hbad hok
  refine ⟨hrefused, hactions, ?_⟩
  intro h
  rw [(applyUpdate_of_conditionsFail hactions h id rule).2.2] at hok
  exact hbad hok

theorem finished_eq (map : List (QString × QVariant D)) (rule : Rule D) :
    finishStatus map
        (exchangeConditions env map (exchangeActions env map (writeFields env map rule))) =
      { rule with
          name := if contains map "name" then
              (value map "name").toString env.qt
            else rule.name
          status := if contains map "status" then
              (value map "status").toString env.qt
            else ofLatin1 "enabled"
          triggerPeriodic := periodicOf env map rule
          actions := if contains map "actions" then
              (value map "actions").toList.map (newAction env)
            else rule.actions
          conditions := if contains map "conditions" then
              newConditions env (value map "conditions").toList
            else rule.conditions } := by
  rw [writeFields_eq]
  unfold finishStatus exchangeConditions exchangeActions
  cases contains map "name" <;> cases contains map "status" <;>
    cases contains map "actions" <;> cases contains map "conditions" <;> rfl

/-- **When a successful update leaves alone what it does not speak of**: if and only if
the body has a status, or the rule was enabled before. -/
theorem updateRule_frame_iff {store : RuleStore D} {id : QString} {i : Nat} {rule : Rule D}
    (hfind : findRule store.rules id = some (i, rule)) {content : QString}
    (hok : (updateRule env store id content).2.httpStatus = httpStatusOk) :
    (∃ rule', (updateRule env store id content).1.rules[i]? = some rule' ∧
        Framed (bodyMap env content) rule rule') ↔
      (contains (bodyMap env content) "status" = true ∨ rule.isEnabled = true) := by
  rw [updateRule_found hfind] at hok
  obtain ⟨hrefused, hactions, hconditions⟩ := not_error_of_ok hok
  rw [getElem?_updateRule hfind, updateFound_of_not_refused hrefused,
    (applyUpdate_of_ok hactions hconditions id rule).1, finished_eq]
  generalize bodyMap env content = map
  unfold Rule.isEnabled
  rw [decide_eq_true_eq]
  constructor
  · rintro ⟨rule', hrule, hframed⟩
    cases hkey : contains map "status" with
    | true => exact .inl rfl
    | false =>
      have hstatus := hframed.status hkey
      rw [← Option.some.inj hrule] at hstatus
      simp only [hkey, Bool.false_eq_true, if_false] at hstatus
      exact .inr hstatus.symm
  · intro h
    refine ⟨_, rfl, fun hkey => ?_, fun hkey => ?_, fun hkey => ?_, fun hkey => ?_, fun hkey => ?_⟩
    · simp [hkey]
    · have henabled := h.resolve_left (by simp [hkey])
      simp [hkey, henabled]
    · simp [periodicOf, hkey]
    · simp [hkey]
    · simp [hkey]

def newName : QString := ofLatin1 "\x7b\"name\":\"day\"\x7d"

theorem newName_ok :
    (updateRule RuleEnv.utc (oneRule (nightRule "enabled")) (ofLatin1 "1")
      newName).2.httpStatus = httpStatusOk := by
  decide +kernel

theorem updateRule_frame_iff_newName :
    (∃ rule', (updateRule RuleEnv.utc (oneRule (nightRule "enabled")) (ofLatin1 "1")
        newName).1.rules[0]? = some rule' ∧
        Framed (bodyMap RuleEnv.utc newName) (nightRule "enabled") rule') ↔
      (contains (bodyMap RuleEnv.utc newName) "status" = true ∨ (nightRule "enabled").isEnabled =
        true) :=
  updateRule_frame_iff (findRule_nightRule "enabled") newName_ok

/-- **A new name enables a disabled rule.** -/
theorem newName_enables :
    (updateRule RuleEnv.utc (oneRule (nightRule "disabled")) (ofLatin1 "1")
        newName).2.httpStatus = httpStatusOk ∧
      contains (bodyMap RuleEnv.utc newName) "status" = false ∧
      (nightRule "disabled").status = ofLatin1 "disabled" ∧
      (updateRule RuleEnv.utc (oneRule (nightRule "disabled")) (ofLatin1 "1")
        newName).1.rules.map Rule.status = [ofLatin1 "enabled"] :=
  ⟨by decide +kernel, by decide +kernel, rfl, by decide +kernel⟩

end RuleRequest
end DeconzRest

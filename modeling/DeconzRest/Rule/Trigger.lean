import DeconzRest.Rule.Update

/-!
# `triggerRule`

The loop of `triggerRule` holds a reference to the rule and iterators into its actions,
and the requests that it dispatches may work on the very same rules.  `Heap` keeps what
decides whether the two are still good:

* a new rule is pushed to `rules`, and once the capacity is used up all rules are moved
  to another place (`rulesEpoch`), from where on the reference dangles.  The rules
  are moved, not copied, so that the actions themselves stay where they are;
* `setActions` assigns to the vector of the actions, which makes its iterators invalid
  (`actionsEpoch`).

Undefined behaviour is `none`.  `performAll` is what triggering is for, over the actions
that the rule had at first, and `triggerRule_eq_iff` says when the loop does that.

What the other requests and the webhooks do is a parameter (`Handlers`).  They work on
the rest of the gateway (`W`) and on the resources, never on the rules.
-/

namespace DeconzRest
namespace RuleTrigger

open QVariant (contains)
open QString

variable {D W : Type}

structure ActionRequest where
  method : QString
  path : List QString
  content : QString
deriving DecidableEq

/-- The other handlers, and the way `std::vector` grows.  An answer without a status is
`REQ_NOT_HANDLED`. -/
structure Handlers (W : Type) where
  handleWebHook : RuleAction → W → W × Bool
  handleApi : ActionRequest → W → Resources → (W × Resources) × Option String
  grow : Nat → Nat

/-- The rules and the rest of the gateway; `performed` has the actions that were handed to
a handler. -/
structure Heap (W D : Type) where
  store : RuleStore D
  capacity : Nat
  rulesEpoch : Nat := 0
  actionsEpoch : Nat → Nat := fun _ => 0
  world : W
  performed : List RuleAction := []

/-- `createRule`, with the place of the rules. -/
def createRule (env : RuleEnv D) (hs : Handlers W) (h : Heap W D) (apikey content : QString) :
    Heap W D × String :=
  let r := RuleRequest.createRule env h.store apikey content
  if h.store.rules.length < r.1.rules.length ∧ h.capacity ≤ h.store.rules.length then
    ({ h with
        store := r.1
        capacity := hs.grow h.capacity
        rulesEpoch := h.rulesEpoch + 1 }, r.2.httpStatus)
  else
    ({ h with store := r.1 }, r.2.httpStatus)

/-- `setActions` is called by an update of the rule at place `i`. -/
def SetsActions (env : RuleEnv D) (store : RuleStore D) (id content : QString) (i : Nat) : Prop :=
  (RuleRequest.findRule store.rules id).map Prod.fst = some i ∧
    ¬ RuleRequest.Refused env id content ∧
    contains (RuleRequest.bodyMap env content) "actions" = true ∧
    ¬ RuleRequest.ActionsFail env (RuleRequest.bodyMap env content)

instance (env : RuleEnv D) (store : RuleStore D) (id content : QString) (i : Nat) :
    Decidable (SetsActions env store id content i) :=
  inferInstanceAs (Decidable (_ ∧ ¬ (_ ∨ _ ∨ _) ∧ _ ∧ ¬ (_ ∧ _)))

/-- `updateRule`, with the place of the actions. -/
def updateRule (env : RuleEnv D) (h : Heap W D) (id content : QString) : Heap W D × String :=
  let r := RuleRequest.updateRule env h.store id content
  ({ h with
      store := r.1
      actionsEpoch := fun i =>
        if SetsActions env h.store id content i then h.actionsEpoch i + 1 else h.actionsEpoch i },
    r.2.httpStatus)

/-- `handleRulesApi` -/
def handleRulesApi (env : RuleEnv D) (hs : Handlers W) (h : Heap W D) (req : ActionRequest) :
    Heap W D × Option String :=
  match req.path with
  | [_, apikey, resource] =>
    if resource ≠ ofLatin1 "rules" then
      (h, none)
    else if req.method = ofLatin1 "GET" then
      (h, some httpStatusOk)
    else if req.method = ofLatin1 "POST" then
      let r := createRule env hs h apikey req.content
      (r.1, some r.2)
    else
      (h, none)
  | [_, _, resource, id] =>
    if resource ≠ ofLatin1 "rules" then
      (h, none)
    else if req.method = ofLatin1 "GET" then
      (h, some (if (RuleRequest.findRule h.store.rules id).isSome then httpStatusOk
        else httpStatusNotFound))
    else if req.method = ofLatin1 "PUT" ∨ req.method = ofLatin1 "PATCH" then
      let r := updateRule env h id req.content
      (r.1, some r.2)
    else if req.method = ofLatin1 "DELETE" then
      let r := RuleRequest.deleteRule env h.store id
      ({ h with store := r.1 }, some r.2.httpStatus)
    else
      (h, none)
  | _ => (h, none)

/-- `http` and `https` -/
def isWebHook (action : RuleAction) : Bool :=
  startsWith action.address (ofLatin1 "http")

/-- The resources that an action is dispatched for, besides the rules. -/
def apiResources : List QString :=
  ["groups", "lights", "schedules", "scenes", "sensors", "config", "alarmsystems"].map
    ofLatin1

def request (owner : QString) (action : RuleAction) : ActionRequest where
  method := action.method
  path := ofLatin1 "api" :: owner :: split action.address '/'
  content := action.body

/-- The request is dispatched; the loop goes on after the status 200. -/
def dispatch (env : RuleEnv D) (hs : Handlers W) (h : Heap W D) (req : ActionRequest)
    (resource : QString) : Heap W D × Option String :=
  if resource = ofLatin1 "rules" then
    handleRulesApi env hs h req
  else
    let r := hs.handleApi req h.world h.store.res
    ({ h with world := r.1.1, store := { h.store with res := r.1.2 } }, r.2)

/-- The action goes through `rule.owner()` to a handler. -/
def usesOwner (action : RuleAction) : Bool :=
  !isWebHook action && decide (action.method = ofLatin1 "PUT" ∨ action.method =
    ofLatin1 "POST") && decide (split action.address '/' ≠ [])

/-- One turn of the loop but for its reference: false when the loop returns. -/
def perform (env : RuleEnv D) (hs : Handlers W) (h : Heap W D) (owner : QString)
    (action : RuleAction) : Heap W D × Bool :=
  let logged := { h with performed := h.performed ++ [action] }
  if isWebHook action then
    let r := hs.handleWebHook action h.world
    ({ logged with world := r.1 }, r.2)
  else if usesOwner action = false then
    (h, false)
  else
    let resource := (split action.address '/').head?.getD []
    if resource = ofLatin1 "rules" ∨ resource ∈ apiResources then
      let r := dispatch env hs logged (request owner action) resource
      (r.1, decide (r.2 = some httpStatusOk))
    else
      (h, false)

/-- What triggering is for: the actions one after the other, until one is not handled or
answers with another status. -/
def performAll (env : RuleEnv D) (hs : Handlers W) (owner : QString) :
    Heap W D → List RuleAction → Heap W D × Bool
  | h, [] => (h, true)
  | h, action :: actions =>
    let r := perform env hs h owner action
    if r.2 then performAll env hs owner r.1 actions else (r.1, false)

/-- `lastTriggered` and `timesTriggered` of the rule at place `i`. -/
def countTrigger (h : Heap W D) (i : Nat) (now : Int) : Heap W D :=
  { h with store := { h.store with rules := h.store.rules.modify i fun rule =>
      { rule with lastTriggered := some now, timesTriggered := rule.timesTriggered + 1 } } }

def finish (h : Heap W D) (i rulesEpoch : Nat) (now : Int) (triggered : Bool) : Option (Heap W D) :=
  if triggered = false then some h
  else if h.rulesEpoch ≠ rulesEpoch then none
  else some (countTrigger h i now)

/-- The loop at the `k`-th action, with `left` to go.  The iterators are good in front
of every turn. -/
def loop (env : RuleEnv D) (hs : Handlers W) (i rulesEpoch actionsEpoch : Nat) (now : Int)
    (h : Heap W D) (triggered : Bool) (k : Nat) : Nat → Option (Heap W D)
  | 0 => finish h i rulesEpoch now triggered
  | left + 1 =>
    match h.store.rules[i]? with
    | none => none
    | some rule =>
      match rule.actions[k]? with
      | none => none
      | some action =>
        -- `rule.owner()`
        if usesOwner action = true ∧ h.rulesEpoch ≠ rulesEpoch then
          none
        else
          let r := perform env hs h rule.owner action
          if r.2 = false then some r.1
          -- `++ai`
          else if r.1.actionsEpoch i ≠ actionsEpoch then none
          else loop env hs i rulesEpoch actionsEpoch now r.1 true (k + 1) left

/-- `DeRestPluginPrivate::triggerRule` of the rule at place `i`. -/
def triggerRule (env : RuleEnv D) (hs : Handlers W) (h : Heap W D) (i : Nat) (now : Int) :
    Option (Heap W D) :=
  match h.store.rules[i]? with
  | none => some h
  | some rule =>
    if rule.state ≠ .normal ∨ rule.isEnabled = false then
      some h
    else
      loop env hs i h.rulesEpoch (h.actionsEpoch i) now h false 0 rule.actions.length

/-- All its actions are performed, and if they succeed the rule is counted. -/
def triggered (env : RuleEnv D) (hs : Handlers W) (h : Heap W D) (i : Nat) (rule : Rule D)
    (now : Int) : Heap W D :=
  let r := performAll env hs rule.owner h rule.actions
  if r.2 then countTrigger r.1 i now else r.1

/-- `POST /rules` -/
def IsCreate (action : RuleAction) : Prop :=
  usesOwner action = true ∧ action.method = ofLatin1 "POST" ∧ split action.address '/' =
    [ofLatin1 "rules"]

/-- `PUT /rules/<id>` -/
def IsUpdate (action : RuleAction) (id : QString) : Prop :=
  usesOwner action = true ∧ action.method = ofLatin1 "PUT" ∧ split action.address '/' =
    [ofLatin1 "rules", id]

/-- The action creates a rule, and the vector of the rules is full. -/
def Reallocates (env : RuleEnv D) (h : Heap W D) (owner : QString) (action : RuleAction) : Prop :=
  IsCreate action ∧ (RuleRequest.createRule env h.store owner action.body).2.httpStatus =
    httpStatusOk ∧
    h.capacity ≤ h.store.rules.length

/-- The action exchanges the actions of the rule at place `i`. -/
def ReplacesOwn (env : RuleEnv D) (h : Heap W D) (i : Nat) (action : RuleAction) : Prop :=
  ∃ id, IsUpdate action id ∧ SetsActions env h.store id action.body i

/-- No action that the loop goes on from exchanges the actions of the rule.  None moves the
rules either, unless all that follows are webhooks and one of them is not handled; `moved`
says whether they have been moved. -/
def Undisturbed (env : RuleEnv D) (hs : Handlers W) (i : Nat) (owner : QString) :
    Heap W D → Prop → List RuleAction → Prop
  | _, moved, [] => ¬ moved
  | h, moved, action :: actions =>
    (usesOwner action = true → ¬ moved) ∧
      ((perform env hs h owner action).2 = true →
        ¬ ReplacesOwn env h i action ∧
          Undisturbed env hs i owner (perform env hs h owner action).1
            (moved ∨ Reallocates env h owner action) actions)

/-! ## What one action does to the rules -/

section Perform

variable {env : RuleEnv D} {hs : Handlers W} {h : Heap W D} {owner : QString}
  {action : RuleAction} {i : Nat} {rule : Rule D}

/-- The action is in the list of those that were handed on. -/
def log (h : Heap W D) (action : RuleAction) : Heap W D :=
  { h with performed := h.performed ++ [action] }

/-- The action leaves the rules and the vectors alone. -/
def LeavesRules (h h' : Heap W D) : Prop :=
  h'.store.rules = h.store.rules ∧ h'.rulesEpoch = h.rulesEpoch ∧ h'.actionsEpoch = h.actionsEpoch

theorem handleRulesApi_request (huses : usesOwner action = true)
    (hrules : (split action.address '/').head?.getD [] = ofLatin1 "rules") :
    (IsCreate action ∧ handleRulesApi env hs h (request owner action) =
        ((createRule env hs h owner action.body).1,
          some (createRule env hs h owner action.body).2)) ∨
      (∃ id, IsUpdate action id ∧ handleRulesApi env hs h (request owner action) =
        ((updateRule env h id action.body).1, some (updateRule env h id action.body).2)) ∨
      ((¬ IsCreate action ∧ ∀ id, ¬ IsUpdate action id) ∧
        handleRulesApi env hs h (request owner action) = (h, none)) := by
  have hmethod : action.method = ofLatin1 "PUT" ∨ action.method = ofLatin1 "POST" := by
    unfold usesOwner at huses
    rw [Bool.and_eq_true, Bool.and_eq_true] at huses
    exact of_decide_eq_true huses.1.2
  have hget : action.method ≠ ofLatin1 "GET" := by
    rcases hmethod with heq | heq <;> rw [heq] <;> decide
  have hdelete : action.method ≠ ofLatin1 "DELETE" := by
    rcases hmethod with heq | heq <;> rw [heq] <;> decide
  have hpatch : action.method ≠ ofLatin1 "PATCH" := by
    rcases hmethod with heq | heq <;> rw [heq] <;> decide
  have hput : ofLatin1 "PUT" ≠ ofLatin1 "POST" := by decide
  unfold handleRulesApi request IsCreate IsUpdate
  cases hsplit : split action.address '/' with
  | nil =>
    rw [hsplit] at hrules
    exact absurd hrules (by decide)
  | cons resource parts =>
    rw [hsplit] at hrules
    have hresource : resource = ofLatin1 "rules" := hrules
    subst hresource
    cases parts with
    | nil =>
      rcases hmethod with hm | hm
      · -- `PUT /rules` is no request
        refine .inr (.inr ⟨⟨fun hcreate => ?_, fun id hupdate => ?_⟩, ?_⟩)
        · rw [hm] at hcreate
          exact hput hcreate.2.1
        · exact absurd hupdate.2.2 (by simp)
        · simp [hm, hput, show ofLatin1 "PUT" ≠ ofLatin1 "GET" by decide]
      · exact .inl ⟨⟨huses, hm, rfl⟩, by
          simp [hm, show ofLatin1 "POST" ≠ ofLatin1 "GET" by decide]⟩
    | cons id parts =>
      cases parts with
      | nil =>
        rcases hmethod with hm | hm
        · exact .inr (.inl ⟨id, ⟨huses, hm, rfl⟩, by
            simp [hm, show ofLatin1 "PUT" ≠ ofLatin1 "GET" by decide]⟩)
        · -- neither is `POST /rules/<id>`
          refine .inr (.inr ⟨⟨fun hcreate => ?_, fun id hupdate => ?_⟩, ?_⟩)
          · exact absurd hcreate.2.2 (by simp)
          · rw [hm] at hupdate
            exact hput hupdate.2.1.symm
          · have hnot : action.method ≠ ofLatin1 "PUT" := by
              rw [hm]
              exact Ne.symm hput
            simp [hget, hdelete, hpatch, hnot]
      | cons part parts =>
        refine .inr (.inr ⟨⟨fun hcreate => ?_, fun id hupdate => ?_⟩, rfl⟩)
        · exact absurd hcreate.2.2 (by simp)
        · exact absurd hupdate.2.2 (by simp)

/-- **One action**: it creates a rule, updates one, or leaves the rules alone. -/
theorem perform_cases :
    (IsCreate action ∧ perform env hs h owner action =
        ((createRule env hs (log h action) owner action.body).1,
          decide ((createRule env hs (log h action) owner action.body).2 = httpStatusOk))) ∨
      (∃ id, IsUpdate action id ∧ (perform env hs h owner action).1 =
        (updateRule env (log h action) id action.body).1) ∨
      ((¬ IsCreate action ∧ ∀ id, ¬ IsUpdate action id) ∧
        LeavesRules h (perform env hs h owner action).1) := by
  have hnone : usesOwner action = false → ¬ IsCreate action ∧ ∀ id, ¬ IsUpdate action id := by
    intro huses
    exact ⟨fun hcreate => absurd hcreate.1 (by rw [huses]; decide),
      fun id hupdate => absurd hupdate.1 (by rw [huses]; decide)⟩
  unfold perform
  simp only
  by_cases hhook : isWebHook action = true
  · rw [if_pos hhook]
    refine .inr (.inr ⟨hnone ?_, rfl, rfl, rfl⟩)
    unfold usesOwner
    rw [hhook]
    rfl
  · rw [if_neg hhook]
    by_cases huses : usesOwner action = false
    · rw [if_pos huses]
      exact .inr (.inr ⟨hnone huses, rfl, rfl, rfl⟩)
    · rw [if_neg huses]
      rw [Bool.not_eq_false] at huses
      by_cases hrules : (split action.address '/').head?.getD [] = ofLatin1 "rules"
      · rw [if_pos (.inl hrules), dispatch, if_pos hrules]
        rcases @handleRulesApi_request D W env hs (log h action) owner action huses hrules with
          ⟨hcreate, heq⟩ | ⟨id, hupdate, heq⟩ | ⟨hnot, heq⟩
        · refine .inl ⟨hcreate, ?_⟩
          show ((handleRulesApi env hs (log h action) (request owner action)).1,
            decide ((handleRulesApi env hs (log h action) (request owner action)).2 =
              some httpStatusOk)) = _
          rw [heq]
          simp only [Option.some.injEq]
        · refine .inr (.inl ⟨id, hupdate, ?_⟩)
          show (handleRulesApi env hs (log h action) (request owner action)).1 = _
          rw [heq]
        · refine .inr (.inr ⟨hnot, ?_⟩)
          show LeavesRules h (handleRulesApi env hs (log h action) (request owner action)).1
          rw [heq]
          exact ⟨rfl, rfl, rfl⟩
      · have hnot : ¬ IsCreate action ∧ ∀ id, ¬ IsUpdate action id := by
          refine ⟨fun hcreate => hrules ?_, fun id hupdate => hrules ?_⟩
          · rw [hcreate.2.2]
            rfl
          · rw [hupdate.2.2]
            rfl
        refine .inr (.inr ⟨hnot, ?_⟩)
        split
        · rw [dispatch, if_neg hrules]
          exact ⟨rfl, rfl, rfl⟩
        · exact ⟨rfl, rfl, rfl⟩

theorem updateFound_actions (res : Resources) (id content : QString) (rule : Rule D) :
    (RuleRequest.updateFound env res id content rule).rule.owner = rule.owner ∧
      (¬ (¬ RuleRequest.Refused env id content ∧
          contains (RuleRequest.bodyMap env content) "actions" = true ∧
          ¬ RuleRequest.ActionsFail env (RuleRequest.bodyMap env content)) →
        (RuleRequest.updateFound env res id content rule).rule.actions = rule.actions) := by
  by_cases hrefused : RuleRequest.Refused env id content
  · rw [(RuleRequest.updateFound_of_refused hrefused res rule).1]
    exact ⟨rfl, fun _ => rfl⟩
  · rw [RuleRequest.updateFound_of_not_refused hrefused]
    generalize RuleRequest.bodyMap env content = map
    have hexchange : (RuleRequest.exchangeActions env map
          (RuleRequest.writeFields env map rule)).owner = rule.owner ∧
        (contains map "actions" = false → (RuleRequest.exchangeActions env map
          (RuleRequest.writeFields env map rule)).actions = rule.actions) := by
      unfold RuleRequest.exchangeActions
      rw [RuleRequest.writeFields_eq]
      cases contains map "actions" <;> simp
    by_cases hactions : RuleRequest.ActionsFail env map
    · rw [(RuleRequest.applyUpdate_of_actionsFail hactions res id rule).1,
        RuleRequest.writeFields_eq]
      exact ⟨rfl, fun _ => rfl⟩
    · have hkey : ¬ (¬ RuleRequest.Refused env id content ∧ contains map "actions" = true ∧
          ¬ RuleRequest.ActionsFail env map) → contains map "actions" = false := by
        intro hnot
        rw [← Bool.not_eq_true]
        exact fun hkey => hnot ⟨hrefused, hkey, hactions⟩
      by_cases hconditions : RuleRequest.ConditionsFail env res map
      · rw [(RuleRequest.applyUpdate_of_conditionsFail hactions hconditions id rule).1]
        exact ⟨hexchange.1, fun hnot => hexchange.2 (hkey hnot)⟩
      · rw [(RuleRequest.applyUpdate_of_ok hactions hconditions id rule).1, RuleRequest.finished_eq]
        refine ⟨rfl, fun hnot => ?_⟩
        simp [hkey hnot]

theorem rule_updateRule (hrule : h.store.rules[i]? = some rule) (id content : QString) :
    ∃ rule', (updateRule env h id content).1.store.rules[i]? = some rule' ∧ rule'.owner =
      rule.owner ∧
      (¬ SetsActions env h.store id content i → rule'.actions = rule.actions) := by
  show ∃ rule', (RuleRequest.updateRule env h.store id content).1.rules[i]? = some rule' ∧ _
  cases hfind : RuleRequest.findRule h.store.rules id with
  | none =>
    unfold RuleRequest.updateRule
    rw [hfind]
    exact ⟨rule, hrule, rfl, fun _ => rfl⟩
  | some found =>
    obtain ⟨j, other⟩ := found
    have hother := (RuleRequest.findRule_eq_some hfind).1
    rw [RuleRequest.updateRule_found hfind, RuleRequest.rules_storeUpdated]
    by_cases hij : j = i
    · subst hij
      obtain ⟨hlt, -⟩ := List.getElem?_eq_some_iff.mp hrule
      rw [hrule] at hother
      rw [Option.some.inj hother] at *
      obtain ⟨howner, hactions⟩ := @updateFound_actions D env h.store.res id content other
      refine ⟨_, List.getElem?_set_self hlt, howner, fun hnot => hactions fun hsets => hnot ?_⟩
      exact ⟨by rw [hfind]; rfl, hsets⟩
    · rw [List.getElem?_set_ne hij]
      exact ⟨rule, hrule, rfl, fun _ => rfl⟩

theorem createRule_spec (h : Heap W D) (apikey content : QString) :
    (∃ added, (createRule env hs h apikey content).1.store.rules = h.store.rules ++ added) ∧
      (createRule env hs h apikey content).1.actionsEpoch = h.actionsEpoch ∧
      (((RuleRequest.createRule env h.store apikey content).2.httpStatus = httpStatusOk ∧
          h.capacity ≤ h.store.rules.length) →
        (createRule env hs h apikey content).1.rulesEpoch = h.rulesEpoch + 1) ∧
      (¬ ((RuleRequest.createRule env h.store apikey content).2.httpStatus = httpStatusOk ∧
          h.capacity ≤ h.store.rules.length) →
        (createRule env hs h apikey content).1.rulesEpoch = h.rulesEpoch) := by
  have hbad : httpStatusBadRequest ≠ httpStatusOk := by decide
  unfold createRule
  rcases @RuleRequest.createRule_cases D env h.store apikey content with
    ⟨⟨ruleHandle, -, heq⟩, hstatus⟩ | ⟨⟨rule, -, heq⟩, hstatus⟩
  · -- nothing is pushed
    simp only
    rw [heq, if_neg (by simp), hstatus]
    exact ⟨⟨[], (List.append_nil _).symm⟩, rfl, fun hok => absurd hok.1 hbad, fun _ => rfl⟩
  · have hrules : (RuleRequest.createRule env h.store apikey content).1.rules = h.store.rules ++
        [rule] := by
      rw [heq]
      rfl
    simp only
    rw [hrules, hstatus]
    by_cases hfull : h.capacity ≤ h.store.rules.length
    · rw [if_pos ⟨by simp, hfull⟩]
      exact ⟨⟨[rule], hrules⟩, rfl, fun _ => rfl, fun hnot => absurd ⟨rfl, hfull⟩ hnot⟩
    · rw [if_neg fun hand => hfull hand.2]
      exact ⟨⟨[rule], hrules⟩, rfl, fun hand => absurd hand.2 hfull, fun _ => rfl⟩

/-- **One action and the rule at place `i`**: what becomes of its owner and actions, and of
what the loop holds on to. -/
theorem perform_spec (hrule : h.store.rules[i]? = some rule) :
    (∃ rule', (perform env hs h owner action).1.store.rules[i]? = some rule' ∧ rule'.owner =
        rule.owner ∧ (¬ ReplacesOwn env h i action → rule'.actions = rule.actions)) ∧
      (ReplacesOwn env h i action → (perform env hs h owner action).1.actionsEpoch i =
        h.actionsEpoch i + 1) ∧
      (¬ ReplacesOwn env h i action → (perform env hs h owner action).1.actionsEpoch i =
        h.actionsEpoch i) ∧
      (Reallocates env h owner action → (perform env hs h owner action).1.rulesEpoch =
        h.rulesEpoch + 1) ∧
      (¬ Reallocates env h owner action → (perform env hs h owner action).1.rulesEpoch =
        h.rulesEpoch) := by
  have hput : ofLatin1 "PUT" ≠ ofLatin1 "POST" := by decide
  rcases @perform_cases D W env hs h owner action with
    ⟨hcreate, heq⟩ | ⟨id, hupdate, heq⟩ | ⟨⟨hcreate, hupdate⟩, hrules, hmoved, hepoch⟩
  · have hnot : ¬ ReplacesOwn env h i action := by
      rintro ⟨id, hupdate, -⟩
      exact hput (hupdate.2.1.symm.trans hcreate.2.1)
    obtain ⟨⟨added, hadded⟩, hactions, hfull, hroom⟩ :=
      @createRule_spec D W env hs (log h action) owner action.body
    rw [heq]
    refine ⟨⟨rule, ?_, rfl, fun _ => rfl⟩, fun hreplaces => absurd hreplaces hnot, fun _ => ?_,
      fun hreallocates => hfull hreallocates.2, fun hnot' => hroom fun hand => hnot' ⟨hcreate, hand⟩⟩
    · show (createRule env hs (log h action) owner action.body).1.store.rules[i]? = some rule
      obtain ⟨hlt, -⟩ := List.getElem?_eq_some_iff.mp hrule
      rw [hadded]
      show (h.store.rules ++ added)[i]? = some rule
      rw [List.getElem?_append_left hlt, hrule]
    · show (createRule env hs (log h action) owner action.body).1.actionsEpoch i = _
      rw [hactions]
      rfl
  · have hnot : ¬ Reallocates env h owner action := by
      intro hreallocates
      exact hput (hupdate.2.1.symm.trans hreallocates.1.2.1)
    have hiff : ReplacesOwn env h i action ↔ SetsActions env h.store id action.body i := by
      constructor
      · rintro ⟨id', hupdate', hsets⟩
        have hsplit := hupdate.2.2.symm.trans hupdate'.2.2
        have hid : id = id' := by simpa using hsplit
        rw [hid]
        exact hsets
      · exact fun hsets => ⟨id, hupdate, hsets⟩
    rw [heq, hiff]
    refine ⟨rule_updateRule hrule id action.body, fun hsets => ?_, fun hsets => ?_,
      fun hreallocates => absurd hreallocates hnot, fun _ => rfl⟩
    · exact if_pos hsets
    · exact if_neg hsets
  · have hreplaces : ¬ ReplacesOwn env h i action := fun ⟨id, hid, _⟩ => hupdate id hid
    rw [hrules, hmoved, hepoch]
    exact ⟨⟨rule, hrule, rfl, fun _ => rfl⟩, fun hown => absurd hown hreplaces, fun _ => rfl,
      fun hreallocates => absurd hreallocates.1 hcreate, fun _ => rfl⟩

end Perform

/-! ## The whole loop -/

section Loop

variable {env : RuleEnv D} {hs : Handlers W} {h : Heap W D} {owner : QString} {i : Nat}
  {rule : Rule D}

/-- **The loop** over the actions from the `k`-th on: it performs them as they were at first
while they are undisturbed, and is undefined otherwise. -/
theorem loop_spec (hs : Handlers W) {rulesEpoch actionsEpoch : Nat} {now : Int} {moved : Prop}
    {all rest : List RuleAction} {k : Nat} (hrest : all.drop k = rest) {ran : Bool}
    (hran : ran = true ∨ rest ≠ [])
    (hrule : ∃ rule, h.store.rules[i]? = some rule ∧ rule.owner = owner ∧ rule.actions = all)
    (hactions : h.actionsEpoch i = actionsEpoch) (hle : rulesEpoch ≤ h.rulesEpoch)
    (hmoved : moved ↔ h.rulesEpoch ≠ rulesEpoch) :
    (Undisturbed env hs i owner h moved rest →
        loop env hs i rulesEpoch actionsEpoch now h ran k rest.length =
          some (if (performAll env hs owner h rest).2 then
              countTrigger (performAll env hs owner h rest).1 i now
            else (performAll env hs owner h rest).1)) ∧
      (¬ Undisturbed env hs i owner h moved rest →
        loop env hs i rulesEpoch actionsEpoch now h ran k rest.length = none) := by
  induction rest generalizing h moved k ran with
  | nil =>
    have htrue : ran = true := hran.resolve_right fun hne => hne rfl
    subst htrue
    show (¬ moved → finish h i rulesEpoch now true = some (countTrigger h i now)) ∧
      (¬¬ moved → finish h i rulesEpoch now true = none)
    unfold finish
    rw [if_neg (by decide), hmoved]
    exact ⟨fun hsame => if_neg hsame, fun hdangling => if_pos (not_not.mp hdangling)⟩
  | cons action rest ih =>
    obtain ⟨rule, hget, howner, hall⟩ := hrule
    obtain ⟨⟨rule', hget', howner', hkept⟩, hreplaces, hkeeps, hreallocates, hstays⟩ :=
      @perform_spec D W env hs h owner action i rule hget
    have haction : rule.actions[k]? = some action := by
      rw [hall]
      have hhead := congrArg List.head? hrest
      rw [List.head?_drop] at hhead
      exact hhead
    have htail : all.drop (k + 1) = rest := by
      have hdrop := congrArg List.tail hrest
      rw [List.tail_drop] at hdrop
      exact hdrop
    rw [List.length_cons, loop]
    simp only [hget, haction, howner]
    unfold Undisturbed performAll
    simp only
    by_cases hdangling : usesOwner action = true ∧ h.rulesEpoch ≠ rulesEpoch
    · -- `rule.owner()` is read from where the rule was
      rw [if_pos hdangling]
      refine ⟨fun hundisturbed => ?_, fun _ => rfl⟩
      exact absurd (hmoved.mpr hdangling.2) (hundisturbed.1 hdangling.1)
    · rw [if_neg hdangling]
      have huses : usesOwner action = true → ¬ moved := by
        intro huses hmoved'
        exact hdangling ⟨huses, hmoved.mp hmoved'⟩
      cases hsuccess : (perform env hs h owner action).2 with
      | false =>
        -- the loop returns
        simp only [if_true, Bool.false_eq_true, if_false, false_implies, and_true]
        exact ⟨fun _ => trivial, fun hnot => absurd huses hnot⟩
      | true =>
        simp only [Bool.true_eq_false, if_false, if_true, true_implies]
        by_cases hown : ReplacesOwn env h i action
        · -- `++ai` on an iterator that is not good any more
          have hne : (perform env hs h owner action).1.actionsEpoch i ≠ actionsEpoch := by
            rw [hreplaces hown, hactions]
            omega
          rw [if_pos hne]
          exact ⟨fun hundisturbed => absurd hown hundisturbed.2.1, fun _ => rfl⟩
        · have hsame : ¬ (perform env hs h owner action).1.actionsEpoch i ≠ actionsEpoch := by
            rw [hkeeps hown]
            exact not_not.mpr hactions
          rw [if_neg hsame]
          have hle' : rulesEpoch ≤ (perform env hs h owner action).1.rulesEpoch := by
            by_cases hre : Reallocates env h owner action
            · rw [hreallocates hre]
              omega
            · rw [hstays hre]
              exact hle
          have hmoved' : moved ∨ Reallocates env h owner action ↔
              (perform env hs h owner action).1.rulesEpoch ≠ rulesEpoch := by
            by_cases hre : Reallocates env h owner action
            · rw [hreallocates hre]
              exact ⟨fun _ => by omega, fun _ => .inr hre⟩
            · rw [hstays hre, ← hmoved]
              exact ⟨fun hor => hor.resolve_right hre, .inl⟩
          obtain ⟨hgood, hbad⟩ := ih htail (.inl rfl)
            ⟨rule', hget', howner'.trans howner, (hkept hown).trans hall⟩
            (not_not.mp hsame) hle' hmoved'
          exact ⟨fun hundisturbed => hgood hundisturbed.2.2, fun hnot =>
            hbad fun hundisturbed => hnot ⟨huses, hown, hundisturbed⟩⟩

/-- A method and a resource that `triggerRule` dispatches. -/
def Supported (action : RuleAction) : Prop :=
  (action.method = ofLatin1 "PUT" ∨ action.method = ofLatin1 "POST") ∧
    (isWebHook action = true ∨ ∃ resource parts, split action.address '/' = resource ::
      parts ∧ (resource = ofLatin1 "rules" ∨ resource ∈ apiResources))

theorem performed_handleRulesApi (h : Heap W D) (req : ActionRequest) :
    (handleRulesApi env hs h req).1.performed = h.performed := by
  unfold handleRulesApi createRule updateRule
  simp only
  split
  · split_ifs <;> rfl
  · split_ifs <;> rfl
  · rfl

theorem performed_perform (h : Heap W D) (action : RuleAction) :
    ((perform env hs h owner action).1.performed = h.performed ++ [action] ∨
        (perform env hs h owner action).1.performed = h.performed) ∧
      (Supported action → (perform env hs h owner action).1.performed = h.performed ++
        [action]) := by
  have hdispatch : ∀ req resource, (dispatch env hs (log h action) req resource).1.performed =
      h.performed ++ [action] := by
    intro req resource
    unfold dispatch
    split
    · rw [performed_handleRulesApi]
      rfl
    · rfl
  unfold perform
  simp only
  split
  · exact ⟨.inl rfl, fun _ => rfl⟩
  · rename_i hhook
    split
    · rename_i huses
      refine ⟨.inr rfl, fun hsupported => ?_⟩
      obtain ⟨hmethod, hresource⟩ := hsupported
      obtain ⟨resource, parts, hsplit, -⟩ := hresource.resolve_left hhook
      unfold usesOwner at huses
      simp [hhook, hmethod, hsplit] at huses
    · split
      · exact ⟨.inl (hdispatch _ _), fun _ => hdispatch _ _⟩
      · rename_i hunknown
        refine ⟨.inr rfl, fun hsupported => ?_⟩
        obtain ⟨resource, parts, hsplit, hknown⟩ := hsupported.2.resolve_left hhook
        rw [hsplit] at hunknown
        exact absurd hknown hunknown

theorem performed_performAll (h : Heap W D) (actions : List RuleAction) :
    h.performed.length ≤ (performAll env hs owner h actions).1.performed.length := by
  induction actions generalizing h with
  | nil => exact Nat.le_refl _
  | cons action actions ih =>
    have hstep : h.performed.length ≤ (perform env hs h owner action).1.performed.length := by
      rcases (@performed_perform D W env hs owner h action).1 with heq | heq
      · rw [heq, List.length_append]
        omega
      · exact Nat.le_of_eq (congrArg _ heq.symm)
    unfold performAll
    simp only
    split
    · exact Nat.le_trans hstep (ih _)
    · exact hstep

theorem triggered_ne (hrule : h.store.rules[i]? = some rule)
    (hsupported : ∀ action ∈ rule.actions, Supported action) (now : Int) :
    triggered env hs h i rule now ≠ h := by
  intro heq
  unfold triggered at heq
  simp only at heq
  cases hactions : rule.actions with
  | nil =>
    -- without actions the rule would be counted
    rw [hactions] at heq
    have htimes := congrArg (fun h => (h.store.rules[i]?).map Rule.timesTriggered) heq
    simp only [performAll, if_true, countTrigger, List.getElem?_modify_eq, hrule, Option.map_eq_map,
      Option.map_some, Option.some.injEq] at htimes
    have hone : (1 : UInt32) = 0 := by
      have hcancel : rule.timesTriggered + 1 - rule.timesTriggered =
          rule.timesTriggered - rule.timesTriggered := congrArg (· - rule.timesTriggered) htimes
      rw [UInt32.add_comm, UInt32.add_sub_cancel, UInt32.sub_self] at hcancel
      exact hcancel
    exact absurd hone (by decide)
  | cons action actions =>
    have hlength := congrArg (fun h => h.performed.length) heq
    have hlog := (@performed_perform D W env hs rule.owner h action).2
      (hsupported action (by rw [hactions]; exact List.mem_cons_self))
    have hlt : h.performed.length <
        (performAll env hs rule.owner h rule.actions).1.performed.length := by
      rw [hactions]
      unfold performAll
      simp only
      have hone : h.performed.length < (perform env hs h rule.owner action).1.performed.length := by
        rw [hlog, List.length_append, List.length_singleton]
        omega
      split
      · exact Nat.lt_of_lt_of_le hone (performed_performAll _ _)
      · exact hone
    split at hlength
    · have hcount : (countTrigger (performAll env hs rule.owner h rule.actions).1 i
          now).performed = (performAll env hs rule.owner h rule.actions).1.performed := rfl
      rw [hcount] at hlength
      omega
    · omega

/-- **When triggering a rule runs its own actions**: if and only if the rule is normal and
enabled, has actions, and none of them disturbs the loop. -/
theorem triggerRule_eq_iff (env : RuleEnv D) (hs : Handlers W) (h : Heap W D)
    (hrule : h.store.rules[i]? = some rule)
    (hsupported : ∀ action ∈ rule.actions, Supported action) (now : Int) :
    triggerRule env hs h i now = some (triggered env hs h i rule now) ↔ rule.state = .normal ∧
      rule.isEnabled = true ∧ rule.actions ≠ [] ∧
        Undisturbed env hs i rule.owner h False rule.actions := by
  have hne := @triggered_ne D W env hs h i rule hrule hsupported now
  unfold triggerRule
  simp only [hrule]
  by_cases hoff : rule.state ≠ .normal ∨ rule.isEnabled = false
  · rw [if_pos hoff]
    constructor
    · exact fun heq => absurd (Option.some.inj heq).symm hne
    · rintro ⟨hnormal, henabled, -⟩
      rcases hoff with hoff | hoff
      · exact absurd hnormal hoff
      · rw [henabled] at hoff
        cases hoff
  · rw [if_neg hoff]
    rw [not_or, not_not, Bool.not_eq_false] at hoff
    by_cases hempty : rule.actions = []
    · have hloop : loop env hs i h.rulesEpoch (h.actionsEpoch i) now h false 0
          rule.actions.length = some h := by
        rw [hempty]
        rfl
      rw [hloop]
      constructor
      · exact fun heq => absurd (Option.some.inj heq).symm hne
      · exact fun hand => absurd hempty hand.2.2.1
    · obtain ⟨hgood, hbad⟩ := @loop_spec D W env h rule.owner i hs h.rulesEpoch
        (h.actionsEpoch i) now False rule.actions rule.actions 0 (List.drop_zero) false
        (.inr hempty) ⟨rule, hrule, rfl, rfl⟩ rfl (Nat.le_refl _)
        ⟨False.elim, fun hneq => hneq rfl⟩
      by_cases hundisturbed : Undisturbed env hs i rule.owner h False rule.actions
      · rw [hgood hundisturbed]
        exact ⟨fun _ => ⟨hoff.1, hoff.2, hempty, hundisturbed⟩, fun _ => rfl⟩
      · rw [hbad hundisturbed]
        constructor
        · intro heq
          cases heq
        · exact fun hand => absurd hand.2.2.2 hundisturbed

end Loop

/-- All other requests succeed and do nothing. -/
def quietHandlers : Handlers Unit where
  handleWebHook := fun _ w => (w, true)
  handleApi := fun _ w res => ((w, res), some httpStatusOk)
  grow := fun n => 2 * n

/-- `PUT /rules/1`, with other actions. -/
def changeSelf : RuleAction where
  address := ofLatin1 "/rules/1"
  method := ofLatin1 "PUT"
  body := ofLatin1
    "\x7b\"actions\":[\x7b\"address\":\"/rules/2\",\"method\":\"PUT\"\x7d]\x7d"

def changingRule : Rule Int where
  id := ofLatin1 "1"
  handle := 1
  actions := [changeSelf]

def changingHeap : Heap Unit Int where
  store := RuleRequest.oneRule changingRule
  capacity := 1
  world := ()

theorem changingRule_supported : ∀ action ∈ changingRule.actions, Supported action := by
  intro action haction
  rw [List.mem_singleton.mp haction]
  exact ⟨.inl rfl, .inr ⟨ofLatin1 "rules", [ofLatin1 "1"], by decide, .inl rfl⟩⟩

theorem triggerRule_eq_iff_changingRule :
    triggerRule RuleEnv.utc quietHandlers changingHeap 0 0 =
        some (triggered RuleEnv.utc quietHandlers changingHeap 0 changingRule 0) ↔
      changingRule.state = .normal ∧ changingRule.isEnabled = true ∧ changingRule.actions ≠ [] ∧
        Undisturbed RuleEnv.utc quietHandlers 0 changingRule.owner changingHeap False
          changingRule.actions :=
  triggerRule_eq_iff RuleEnv.utc quietHandlers changingHeap rfl changingRule_supported 0

/-- **An action that exchanges the actions of its own rule** leaves the loop with an
iterator that is not good any more. -/
theorem changingRule_undefined :
    changingHeap.store.rules[0]? = some changingRule ∧
      (∀ action ∈ changingRule.actions, Supported action) ∧
      changingRule.state = .normal ∧ changingRule.isEnabled = true ∧
      triggerRule RuleEnv.utc quietHandlers changingHeap 0 0 = none := by
  have hnone : (triggerRule RuleEnv.utc quietHandlers changingHeap 0 0).isNone = true := by
    decide +kernel
  exact ⟨rfl, changingRule_supported, rfl, by decide, Option.isNone_iff_eq_none.mp hnone⟩

end RuleTrigger
end DeconzRest

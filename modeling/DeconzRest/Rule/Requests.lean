import DeconzRest.Json.Parse
import DeconzRest.Json.Serialize
import DeconzRest.Rest.Error
import DeconzRest.Rule.Store

/-!
# `createRule`, `updateRule` and `deleteRule`

`updateRule` validates in two phases: keys, name, lists, status and period before
anything is touched; the actions and conditions themselves only behind the writes of
name, status and period.  While actions or conditions are exchanged the status is
"disabled"; it is "enabled" at the end unless the body says otherwise.

The parts of `updateRule` that only look at the rule are functions of the rule
(`writeFields`, `writeActions`, `writeConditions`, `finishStatus`); `Updated` is what they
leave, with the rule as it was when the triggers were indexed.

Etags, logging and the timers that save the database are left out.
-/

namespace DeconzRest

open QVariant (value contains)
open QString

def maxRuleNameLength : Nat := 64

namespace RuleRequest

variable {D : Type} (env : RuleEnv D)

/-- `Json::parse` of a text of a request: an empty one is a null string there, which is
no error and gives an invalid variant. -/
def parseContent (qt : Qt D) (content : QString) : QVariant D × Bool :=
  if content = [] then (.invalid, true) else Json.parse qt content

/-- `rspItem["success"]` with one entry. -/
def success (address : QString) (value : QVariant D) : QVariant D :=
  .map [(ofLatin1 "success", .map [(address, value)])]

/-- An error whose texts have no argument. -/
def plainError (id : Int) (address description : String) : QVariant D :=
  errorToMap env.qt id (ofLatin1 address) (ofLatin1 description)

/-- `body contains invalid JSON` -/
def invalidJson (address : String) : QVariant D :=
  plainError env errInvalidJson address "body contains invalid JSON"

def notAvailable (id : QString) : ApiResponse D where
  httpStatus := httpStatusNotFound
  list := [errorToMap env.qt errResourceNotAvailable
    (arg (ofLatin1 "/rules/%1") id)
    (arg (ofLatin1 "resource, /rules/%1, not available") id)]

def actionResources : List QString :=
  ["groups", "lights", "schedules", "scenes", "sensors", "rules", "alarmsystems"].map
    ofLatin1

/-- One turn of the loop of `checkActions`: the error, if there is one. -/
def checkAction (action : QVariant D) : Option (QVariant D) :=
  let address := (value action.toMap "address").toString env.qt
  let method := (value action.toMap "method").toString env.qt
  let body := (value action.toMap "body").toString env.qt
  let addrList := split address '/'
  let actionError := errorToMap env.qt errActionError address
    (ofLatin1 "Rule actions contain errors or an action on a unsupported resource")
  if addrList.length < 2 then
    some actionError
  else if startsWith address (ofLatin1 "http") = false ∧ (addrList.head?.getD []) ∉
      actionResources then
    some actionError
  else if RuleAction.isMethod method = false then
    some (errorToMap env.qt errInvalidValue (ofLatin1 "rules/method")
      (arg (ofLatin1 "invalid value, %1, for parameter, method") method))
  else if (parseContent env.qt body).2 = false then
    some (invalidJson env "/rules/")
  else
    none

/-- `DeRestPluginPrivate::checkActions`: the first error. -/
def checkActions (actionsList : List (QVariant D)) : Option (QVariant D) :=
  actionsList.findSome? (checkAction env)

def newAction (action : QVariant D) : RuleAction :=
  let m := action.toMap
  let body := Json.serialize env.qt (.map (value m "body").toMap)
  (({ address := (value m "address").toString env.qt } : RuleAction).setBody
    (fromUtf8 body)).setMethod ((value m "method").toString env.qt)

/-- One turn of the loop of `checkConditions`. -/
def checkCondition (res : Resources) (condition : QVariant D) : Option (QVariant D) :=
  let cond := RuleCondition.ofMap env condition.toMap
  if cond.isValid = true ∧ (cond.itemKey? res).isSome = true then
    none
  else
    some (errorToMap env.qt errConditionError cond.address (ofLatin1 "Condition error"))

/-- `DeRestPluginPrivate::checkConditions`: the first error. -/
def checkConditions (res : Resources) (conditionsList : List (QVariant D)) : Option (QVariant D) :=
  conditionsList.findSome? (checkCondition env res)

def newConditions (conditionsList : List (QVariant D)) : List (RuleCondition D) :=
  (conditionsList.map fun c => RuleCondition.ofMap env c.toMap).filter RuleCondition.isValid

def sizeErrors (key : String) (list : List (QVariant D)) : List (QVariant D) × List (QVariant D) :=
  (if list.length < 1 then
      [plainError env errMissingParameter ("/rules/" ++ key) "invalid/missing parameters in body"]
    else [],
    if 8 < list.length then
      [plainError env errTooManyItems ("/rules/" ++ key) "too many items in list"]
    else [])

def statusErrors (map : List (QString × QVariant D)) : List (QVariant D) :=
  let status := (value map "status").toString env.qt
  if contains map "status" = true ∧
      ¬(status = ofLatin1 "disabled" ∨ status = ofLatin1 "enabled") then
    [errorToMap env.qt errInvalidValue (ofLatin1 "/rules/status")
      (arg (ofLatin1 "invalid value, %1, for parameter, status") status)]
  else
    []

def periodicErrors (map : List (QString × QVariant D)) : List (QVariant D) :=
  if contains map "periodic" = true ∧ env.qt.toInt (value map "periodic") = none then
    [errorToMap env.qt errInvalidValue (ofLatin1 "/rules/periodic")
      (arg (ofLatin1 "invalid value, %1, for parameter, peridoc")
        ((value map "periodic").toString env.qt))]
  else
    []

/-- `setTriggerPeriodic` of the optional period. -/
def writePeriodic (map : List (QString × QVariant D)) (rule : Rule D) : Rule D :=
  if contains map "periodic" then
    match env.qt.toInt (value map "periodic") with
    | some periodic => { rule with triggerPeriodic := periodic }
    | none => rule
  else
    rule

/-- `setStatus` of the optional status. -/
def writeStatus (map : List (QString × QVariant D)) (rule : Rule D) : Rule D :=
  if contains map "status" then
    { rule with status := (value map "status").toString env.qt }
  else
    rule

/-- The id of a new rule, with the handle that `setId` gave it. -/
structure NewId where
  id : QString
  handle : Int

/-- The loop over the rules for a free id; false when the id was changed on the way. -/
def idPass (rules : List (Rule D)) (n : NewId) : NewId × Bool :=
  rules.foldl
    (fun st rule =>
      if rule.id = st.1.id then
        (⟨number ((env.stringToInt rule.id).getD 0 + 1), st.1.handle + 1⟩, false)
      else
        st)
    (n, true)

def idLoop (rules : List (Rule D)) : Nat → NewId → NewId
  | 0, n => n
  | fuel + 1, n =>
    let r := idPass env rules n
    if r.2 then r.1 else idLoop rules fuel r.1

def newId (rules : List (Rule D)) (ruleHandle : Int) : NewId :=
  idLoop env rules (rules.length + 1) ⟨ofLatin1 "1", ruleHandle⟩

def createErrors (map : List (QString × QVariant D)) : List (QVariant D) :=
  let conditions := sizeErrors env "conditions" (value map "conditions").toList
  let actions := sizeErrors env "actions" (value map "actions").toList
  (if contains map "name" then []
    else
      [plainError env errMissingParameter "/rules/name" "invalid/missing parameters in body"]) ++
    conditions.1 ++ actions.1 ++ conditions.2 ++ actions.2 ++ statusErrors env map ++
    periodicErrors env map

/-- `createRule` of a name that is there, not empty and not too long. -/
def createNamed (store : RuleStore D) (apikey name : QString) (map : List (QString × QVariant D)) :
    RuleStore D × ApiResponse D :=
  let actionsList := (value map "actions").toList
  let conditionsList := (value map "conditions").toList
  let n := newId env store.rules store.ruleHandle
  let store := { store with ruleHandle := n.handle + 1 }
  let named : Rule D := { id := n.id, handle := n.handle, name := name, owner := apikey }
  let rule := writeStatus env map (writePeriodic env map named)
  match checkActions env actionsList with
  | some error => (store, { httpStatus := httpStatusBadRequest, list := [error] })
  | none =>
    match checkConditions env store.res conditionsList with
    | some error => (store, { httpStatus := httpStatusBadRequest, list := [error] })
    | none =>
      let rule :=
        { rule with
            actions := actionsList.map (newAction env)
            conditions := newConditions env conditionsList }
      (RuleStore.indexRulesTriggers { store with rules := store.rules ++ [rule] },
        { list := [success (ofLatin1 "id") (.string rule.id)] })

/-- `DeRestPluginPrivate::createRule` -/
def createRule (store : RuleStore D) (apikey content : QString) : RuleStore D × ApiResponse D :=
  let parsed := parseContent env.qt content
  let map := parsed.1.toMap
  if parsed.2 = false then
    (store, { httpStatus := httpStatusBadRequest, list := [invalidJson env "/rules"] })
  else if createErrors env map ≠ [] then
    (store, { httpStatus := httpStatusBadRequest, list := createErrors env map })
  else
    match value map "name" with
    | .string (c :: name) =>
      if maxRuleNameLength < (c :: name).length then
        (store, { httpStatus := httpStatusBadRequest, list := [plainError env errInvalidValue
          "/rules/name" "invalid/missing parameters in body"] })
      else
        createNamed env store apikey (c :: name) map
    | _ => (store, { httpStatus := httpStatusBadRequest, list := [invalidJson env "/rules"] })

/-! ## `updateRule` -/

def updateKeys : List QString :=
  ["name", "status", "actions", "conditions", "periodic"].map ofLatin1

def unknownKey (map : List (QString × QVariant D)) : Option QString :=
  (map.map Prod.fst).find? fun key => decide (key ∉ updateKeys)

def nameErrors (id : QString) (map : List (QString × QVariant D)) : List (QVariant D) :=
  let name := (value map "name").toString env.qt
  let error := errorToMap env.qt errInvalidValue
    (arg (ofLatin1 "/rules/%1/name") id)
    (arg (arg
      (ofLatin1 "invalid value, %1, for parameter, /rules/%2/name") name) id)
  if contains map "name" = false then
    []
  else
    match value map "name" with
    | .string (c :: name) => if maxRuleNameLength < (c :: name).length then [error] else []
    | _ => [error]

def optionalErrors (key : String) (map : List (QString × QVariant D)) : List (QVariant D) :=
  if contains map key then
    let errors := sizeErrors env key (value map key).toList
    errors.1 ++ errors.2
  else
    []

def updateErrors (id : QString) (map : List (QString × QVariant D)) : List (QVariant D) :=
  nameErrors env id map ++ optionalErrors env "conditions" map ++
    optionalErrors env "actions" map ++ statusErrors env map ++ periodicErrors env map

/-- The status while actions or conditions are exchanged. -/
def markRule (map : List (QString × QVariant D)) (rule : Rule D) : Rule D :=
  if contains map "actions" || contains map "conditions" then
    { rule with status := ofLatin1 "disabled" }
  else
    rule

/-- `setName` of the optional name. -/
def writeName (map : List (QString × QVariant D)) (rule : Rule D) : Rule D :=
  if contains map "name" then
    { rule with name := (value map "name").toString env.qt }
  else
    rule

/-- What is written in front of the second checks. -/
def writeFields (map : List (QString × QVariant D)) (rule : Rule D) : Rule D :=
  writePeriodic env map (writeStatus env map (writeName env map (markRule map rule)))

def fieldEntries (id : QString) (map : List (QString × QVariant D)) : List (QVariant D) :=
  (if contains map "name" then
    [success (arg (ofLatin1 "/rules/%1/name") id)
      (.string ((value map "name").toString env.qt))]
  else []) ++
    if contains map "status" then
      [success (arg (ofLatin1 "/rules/%1/status") id)
        (.string ((value map "status").toString env.qt))]
    else []

structure Writing (D : Type) where
  rule : Rule D
  rsp : ApiResponse D
  ok : Bool

/-- `setActions` of the optional actions. -/
def writeActions (id : QString) (map : List (QString × QVariant D)) (w : Writing D) : Writing D :=
  let actionsList := (value map "actions").toList
  if contains map "actions" then
    match checkActions env actionsList with
    | some error => ⟨w.rule, w.rsp.answer error httpStatusBadRequest, false⟩
    | none =>
      ⟨{ w.rule with actions := actionsList.map (newAction env) },
        w.rsp.answer (success (arg (ofLatin1 "/rules/%1/actions") id)
          (.list actionsList)) w.rsp.httpStatus, true⟩
  else
    w

/-- `setConditions` of the optional conditions. -/
def writeConditions (res : Resources) (id : QString) (map : List (QString × QVariant D))
    (w : Writing D) : Writing D :=
  let conditionsList := (value map "conditions").toList
  if contains map "conditions" then
    match checkConditions env res conditionsList with
    | some error => ⟨w.rule, w.rsp.answer error httpStatusBadRequest, false⟩
    | none =>
      ⟨{ w.rule with conditions := newConditions env conditionsList },
        w.rsp.answer (success (arg (ofLatin1 "/rules/%1/conditions") id)
          (.list conditionsList)) w.rsp.httpStatus, true⟩
  else
    w

def finishStatus (map : List (QString × QVariant D)) (rule : Rule D) : Rule D :=
  if contains map "status" then rule
  else { rule with status := ofLatin1 "enabled" }

/-- What an update leaves: the rule, the rule as it was when the triggers were indexed, if
they were, and the answer. -/
structure Updated (D : Type) where
  rule : Rule D
  indexed : Option (Rule D)
  rsp : ApiResponse D

/-- The part of `updateRule` behind the first checks. -/
def applyUpdate (res : Resources) (id : QString) (map : List (QString × QVariant D))
    (rule : Rule D) : Updated D :=
  let fields : Writing D := ⟨writeFields env map rule, { list := fieldEntries env id map }, true⟩
  let actions := writeActions env id map fields
  if actions.ok = false then
    ⟨actions.rule, none, actions.rsp⟩
  else
    let conditions := writeConditions env res id map actions
    if conditions.ok = false then
      ⟨conditions.rule, none, conditions.rsp⟩
    else
      ⟨finishStatus map conditions.rule,
        if contains map "conditions" then some conditions.rule else none, conditions.rsp⟩

/-- `updateRule` of a rule that is there. -/
def updateFound (res : Resources) (id content : QString) (rule : Rule D) : Updated D :=
  let parsed := parseContent env.qt content
  let map := parsed.1.toMap
  if parsed.2 = false then
    ⟨rule, none, { httpStatus := httpStatusBadRequest, list := [invalidJson env "/rules"] }⟩
  else
    match unknownKey map with
    | some key =>
      ⟨rule, none, { httpStatus := httpStatusBadRequest, list :=
        [errorToMap env.qt errParameterNotAvailable
          (arg (arg (ofLatin1 "/rules/%1/%2") id) key)
          (arg (ofLatin1 "parameter, %1, not available") key)] }⟩
    | none =>
      if updateErrors env id map ≠ [] then
        ⟨rule, none, { httpStatus := httpStatusBadRequest, list := updateErrors env id map }⟩
      else
        applyUpdate env res id map rule

def findRule (rules : List (Rule D)) (id : QString) : Option (Nat × Rule D) :=
  match getRuleForId rules id with
  | none => none
  | some i =>
    match rules[i]? with
    | none => none
    | some rule => if rule.state = .deleted then none else some (i, rule)

/-- The store behind an update of the rule at place `i`. -/
def storeUpdated (store : RuleStore D) (i : Nat) (u : Updated D) : RuleStore D :=
  match u.indexed with
  | some rule => (store.setRule i rule).indexRulesTriggers.setRule i u.rule
  | none => store.setRule i u.rule

/-- `DeRestPluginPrivate::updateRule` -/
def updateRule (store : RuleStore D) (id content : QString) : RuleStore D × ApiResponse D :=
  match findRule store.rules id with
  | none => (store, notAvailable env id)
  | some (i, rule) =>
    let u := updateFound env store.res id content rule
    (storeUpdated store i u, u.rsp)

/-- `DeRestPluginPrivate::deleteRule` -/
def deleteRule (store : RuleStore D) (id : QString) : RuleStore D × ApiResponse D :=
  match findRule store.rules id with
  | none => (store, notAvailable env id)
  | some (i, rule) =>
    (store.setRule i { rule with state := .deleted, status := ofLatin1 "disabled" },
      { list := [success (ofLatin1 "id") (.string id)] })

/-! ## What a creation does -/

section Create

variable {env}

theorem idPass_handle (rules : List (Rule D)) (n : NewId) :
    n.handle ≤ (idPass env rules n).1.handle := by
  unfold idPass
  generalize true = found
  induction rules generalizing n found with
  | nil => exact Int.le_refl _
  | cons rule rules ih =>
    rw [List.foldl_cons]
    by_cases hid : rule.id = n.id
    · rw [if_pos hid]
      have hrest := ih ⟨number ((env.stringToInt rule.id).getD 0 + 1), n.handle + 1⟩ false
      have hnext : n.handle ≤ n.handle + 1 := by omega
      exact Int.le_trans hnext hrest
    · rw [if_neg hid]
      exact ih n found

theorem idLoop_handle (rules : List (Rule D)) (fuel : Nat) (n : NewId) :
    n.handle ≤ (idLoop env rules fuel n).handle := by
  induction fuel generalizing n with
  | zero => exact Int.le_refl _
  | succ fuel ih =>
    have hpass := @idPass_handle D env rules n
    unfold idLoop
    simp only
    split
    · exact hpass
    · exact Int.le_trans hpass (ih _)

@[simp] theorem handle_writeStatus (map : List (QString × QVariant D)) (rule : Rule D) :
    (writeStatus env map rule).handle = rule.handle := by
  unfold writeStatus
  split <;> rfl

@[simp] theorem handle_writePeriodic (map : List (QString × QVariant D)) (rule : Rule D) :
    (writePeriodic env map rule).handle = rule.handle := by
  unfold writePeriodic
  split
  · split <;> rfl
  · rfl

/-- A creation failed: the rules are the same, though handles may be used up. -/
def NotCreated (store : RuleStore D) (r : RuleStore D × ApiResponse D) : Prop :=
  (∃ ruleHandle, store.ruleHandle ≤ ruleHandle ∧ r.1 =
    { store with ruleHandle := ruleHandle }) ∧ r.2.httpStatus = httpStatusBadRequest

/-- A creation appended a rule with a new handle, and indexed the triggers. -/
def Created (store : RuleStore D) (r : RuleStore D × ApiResponse D) : Prop :=
  (∃ rule : Rule D, store.ruleHandle ≤ rule.handle ∧ r.1 =
    RuleStore.indexRulesTriggers
      { store with ruleHandle := rule.handle + 1, rules := store.rules ++ [rule] }) ∧
    r.2.httpStatus = httpStatusOk

theorem createNamed_cases (store : RuleStore D) (apikey name : QString)
    (map : List (QString × QVariant D)) :
    NotCreated store (createNamed env store apikey name map) ∨
      Created store (createNamed env store apikey name map) := by
  have hhandle : store.ruleHandle ≤ (newId env store.rules store.ruleHandle).handle :=
    idLoop_handle store.rules _ _
  unfold createNamed
  simp only
  generalize newId env store.rules store.ruleHandle = n at hhandle
  split
  · exact .inl ⟨⟨n.handle + 1, by omega, rfl⟩, rfl⟩
  · split
    · exact .inl ⟨⟨n.handle + 1, by omega, rfl⟩, rfl⟩
    · refine .inr ⟨?_, rfl⟩
      have hrule : (writeStatus env map (writePeriodic env map
          { id := n.id, handle := n.handle, name := name, owner := apikey })).handle =
            n.handle := by simp
      generalize writeStatus env map _ = rule at hrule
      rw [← hrule] at hhandle ⊢
      exact ⟨{ rule with
        actions := (value map "actions").toList.map (newAction env)
        conditions := newConditions env (value map "conditions").toList }, hhandle, rfl⟩

theorem createRule_cases (store : RuleStore D) (apikey content : QString) :
    NotCreated store (createRule env store apikey content) ∨
      Created store (createRule env store apikey content) := by
  have hsame : ∃ ruleHandle, store.ruleHandle ≤ ruleHandle ∧ store =
      { store with ruleHandle := ruleHandle } := ⟨_, Int.le_refl _, rfl⟩
  unfold createRule
  simp only
  split
  · exact .inl ⟨hsame, rfl⟩
  · split
    · exact .inl ⟨hsame, rfl⟩
    · split
      · split
        · exact .inl ⟨hsame, rfl⟩
        · exact createNamed_cases store apikey _ _
      · exact .inl ⟨hsame, rfl⟩

end Create

/-! ## What an update does -/

def bodyMap (content : QString) : List (QString × QVariant D) :=
  (parseContent env.qt content).1.toMap

def Refused (id content : QString) : Prop :=
  (parseContent env.qt content).2 = false ∨ (unknownKey (bodyMap env content)).isSome = true ∨
    updateErrors env id (bodyMap env content) ≠ []

/-- The body has actions, and they have an error. -/
def ActionsFail (map : List (QString × QVariant D)) : Prop :=
  contains map "actions" = true ∧ (checkActions env (value map "actions").toList).isSome = true

/-- The body has conditions, and they have an error. -/
def ConditionsFail (res : Resources) (map : List (QString × QVariant D)) : Prop :=
  contains map "conditions" = true ∧
    (checkConditions env res (value map "conditions").toList).isSome = true

def exchangeActions (map : List (QString × QVariant D)) (rule : Rule D) : Rule D :=
  if contains map "actions" then
    { rule with actions := (value map "actions").toList.map (newAction env) }
  else
    rule

/-- The rule with the conditions of a body. -/
def exchangeConditions (map : List (QString × QVariant D)) (rule : Rule D) : Rule D :=
  if contains map "conditions" then
    { rule with conditions := newConditions env (value map "conditions").toList }
  else
    rule

variable {env}

theorem updateFound_of_refused {id content : QString} (h : Refused env id content)
    (res : Resources) (rule : Rule D) :
    (updateFound env res id content rule).rule = rule ∧
      (updateFound env res id content rule).indexed = none ∧
      (updateFound env res id content rule).rsp.httpStatus = httpStatusBadRequest := by
  unfold updateFound
  simp only
  split
  · exact ⟨rfl, rfl, rfl⟩
  · rename_i hparsed
    split
    · exact ⟨rfl, rfl, rfl⟩
    · rename_i hkeys
      split
      · exact ⟨rfl, rfl, rfl⟩
      · rename_i herrors
        rcases h with h | h | h
        · exact absurd h hparsed
        · unfold bodyMap at h
          rw [hkeys] at h
          cases h
        · exact absurd h herrors

theorem updateFound_of_not_refused {id content : QString} (h : ¬ Refused env id content)
    (res : Resources) (rule : Rule D) :
    updateFound env res id content rule = applyUpdate env res id (bodyMap env content) rule := by
  unfold Refused at h
  rw [not_or, not_or, not_ne_iff] at h
  obtain ⟨hparsed, hkeys, herrors⟩ := h
  unfold bodyMap at hkeys herrors
  unfold updateFound
  simp only
  rw [if_neg hparsed]
  cases hunknown : unknownKey (parseContent env.qt content).1.toMap with
  | some key =>
    rw [hunknown] at hkeys
    exact absurd rfl hkeys
  | none =>
    simp only
    rw [if_neg (not_ne_iff.mpr herrors)]
    rfl

variable {map : List (QString × QVariant D)}

theorem applyUpdate_of_actionsFail (h : ActionsFail env map) (res : Resources) (id : QString)
    (rule : Rule D) :
    (applyUpdate env res id map rule).rule = writeFields env map rule ∧
      (applyUpdate env res id map rule).indexed = none ∧
      (applyUpdate env res id map rule).rsp.httpStatus = httpStatusBadRequest := by
  obtain ⟨hkey, hsome⟩ := h
  obtain ⟨error, herror⟩ := Option.isSome_iff_exists.mp hsome
  unfold applyUpdate writeActions
  simp only [hkey, herror, if_true]
  exact ⟨trivial, trivial, rfl⟩

theorem writeActions_of_not_actionsFail (h : ¬ ActionsFail env map) (id : QString) (w : Writing D)
    (hok : w.ok = true) :
    (writeActions env id map w).rule = exchangeActions env map w.rule ∧
      (writeActions env id map w).ok = true ∧
      (writeActions env id map w).rsp.httpStatus = w.rsp.httpStatus := by
  unfold writeActions exchangeActions
  by_cases hkey : contains map "actions" = true
  · have hnone : checkActions env (value map "actions").toList = none := by
      rw [← Option.not_isSome_iff_eq_none]
      exact fun hsome => h ⟨hkey, hsome⟩
    simp only [hkey, hnone, if_true]
    exact ⟨trivial, trivial, rfl⟩
  · rw [if_neg hkey, if_neg hkey]
    exact ⟨rfl, hok, rfl⟩

theorem applyUpdate_of_conditionsFail {res : Resources} (hactions : ¬ ActionsFail env map)
    (h : ConditionsFail env res map) (id : QString) (rule : Rule D) :
    (applyUpdate env res id map rule).rule = exchangeActions env map (writeFields env map rule) ∧
      (applyUpdate env res id map rule).indexed = none ∧
      (applyUpdate env res id map rule).rsp.httpStatus = httpStatusBadRequest := by
  obtain ⟨hkey, hsome⟩ := h
  obtain ⟨error, herror⟩ := Option.isSome_iff_exists.mp hsome
  obtain ⟨hrule, hok, -⟩ := writeActions_of_not_actionsFail hactions id
    ⟨writeFields env map rule, { list := fieldEntries env id map }, true⟩ rfl
  unfold applyUpdate
  simp only [hok, Bool.true_eq_false, if_false]
  unfold writeConditions
  simp only [hkey, herror, if_true]
  exact ⟨hrule, trivial, rfl⟩

theorem applyUpdate_of_ok {res : Resources} (hactions : ¬ ActionsFail env map)
    (hconditions : ¬ ConditionsFail env res map) (id : QString) (rule : Rule D) :
    (applyUpdate env res id map rule).rule =
        finishStatus map
          (exchangeConditions env map (exchangeActions env map (writeFields env map rule))) ∧
      (applyUpdate env res id map rule).indexed =
        (if contains map "conditions" then
          some (exchangeConditions env map (exchangeActions env map (writeFields env map rule)))
        else none) ∧
      (applyUpdate env res id map rule).rsp.httpStatus = httpStatusOk := by
  obtain ⟨hrule, hok, hstatus⟩ := writeActions_of_not_actionsFail hactions id
    ⟨writeFields env map rule, { list := fieldEntries env id map }, true⟩ rfl
  unfold applyUpdate
  simp only [hok, Bool.true_eq_false, if_false]
  unfold writeConditions exchangeConditions
  by_cases hkey : contains map "conditions" = true
  · have hnone : checkConditions env res (value map "conditions").toList = none := by
      rw [← Option.not_isSome_iff_eq_none]
      exact fun hsome => hconditions ⟨hkey, hsome⟩
    simp only [hkey, hnone, hrule, if_true, Bool.true_eq_false, if_false]
    exact ⟨trivial, trivial, hstatus⟩
  · simp only [hkey, Bool.false_eq_true, if_false, hok, hrule, Bool.true_eq_false]
    exact ⟨trivial, trivial, hstatus⟩

variable {id : QString} {i : Nat} {rule : Rule D}

theorem findRule_eq_some {rules : List (Rule D)} (h : findRule rules id = some (i, rule)) :
    rules[i]? = some rule ∧ rule.state ≠ .deleted := by
  unfold findRule at h
  split at h
  · cases h
  · split at h
    · cases h
    · rename_i hrule
      split at h
      · cases h
      · rename_i hstate
        cases h
        exact ⟨hrule, hstate⟩

theorem rules_storeUpdated (store : RuleStore D) (i : Nat) (u : Updated D) :
    (storeUpdated store i u).rules = store.rules.set i u.rule := by
  unfold storeUpdated
  split
  · show (store.rules.set i _).set i u.rule = _
    rw [List.set_set]
  · rfl

theorem updateRule_found {store : RuleStore D} (h : findRule store.rules id = some (i, rule))
    (content : QString) :
    updateRule env store id content =
      (storeUpdated store i (updateFound env store.res id content rule),
        (updateFound env store.res id content rule).rsp) := by
  unfold updateRule
  rw [h]

theorem getElem?_updateRule {store : RuleStore D} (h : findRule store.rules id = some (i, rule))
    (content : QString) :
    (updateRule env store id content).1.rules[i]? =
      some (updateFound env store.res id content rule).rule := by
  obtain ⟨hlt, -⟩ := List.getElem?_eq_some_iff.mp (findRule_eq_some h).1
  rw [updateRule_found h, rules_storeUpdated, List.getElem?_set_self hlt]

end RuleRequest
end DeconzRest

import DeconzRest.Rule.Rule

/-!
# The rules of the gateway and their index

An item lists the handles of the rules that it triggers (`rulesInvolved`).  The lists
are filled one rule at a time: `indexRulesTriggers` queues the handles of the enabled
rules, and each time the timer fires one of them is looked up and its trigger items get
its handle.  Nothing takes a handle out of an item again.
-/

namespace DeconzRest

/-- The members of the plugin that the rule requests work on; `ruleHandle` is the
counter behind `Rule::setId`. -/
structure RuleStore (D : Type) where
  rules : List (Rule D) := []
  ruleHandle : Int := 1
  fastRuleCheck : List Int := []
  timerActive : Bool := false
  res : Resources

/-- `getRuleForId`: the place of the rule; a rule that is not deleted comes first. -/
def getRuleForId {D : Type} (rules : List (Rule D)) (id : QString) : Option Nat :=
  match rules.findIdx? fun rule => decide (rule.id = id ∧ rule.state ≠ .deleted) with
  | some i => some i
  | none => rules.findIdx? fun rule => decide (rule.id = id)

/-! ## The trigger items -/

namespace RuleCondition

variable {D : Type}

def itemKey? (res : Resources) (c : RuleCondition D) : Option ItemKey :=
  match res.getResource c.resource c.id with
  | none => none
  | some r => if (res.item r c.suffix).isSome then some (r, c.suffix) else none

end RuleCondition

/-- What the loop of `indexRuleTriggers` has found. -/
structure FoundItems where
  itemDx : Option ItemKey := none
  itemDdx : Option ItemKey := none
  items : List ItemKey := []

namespace FoundItems

variable {D : Type}

/-- One turn of the loop over the conditions. -/
def add (res : Resources) (f : FoundItems) (c : RuleCondition D) : FoundItems :=
  match c.itemKey? res with
  | none => f
  | some key =>
    match c.op with
    | .dx => { f with itemDx := some key }
    | .ddx => { f with itemDdx := some key }
    | .stable | .notStable => f
    | _ => { f with items := f.items ++ [key] }

def triggers (res : Resources) (f : FoundItems) : List ItemKey :=
  match f.itemDx, f.itemDdx with
  | some key, _ => [key]
  | none, some _ => if res.localTime.isSome then [(res.config, rConfigLocalTime)] else []
  | none, none => f.items

end FoundItems

/-- The items that `indexRuleTriggers` comes to for some conditions. -/
def indexItems {D : Type} (res : Resources) (conditions : List (RuleCondition D)) : List ItemKey :=
  (conditions.foldl (FoundItems.add res) {}).triggers res

/-- `item->inRule(handle)` for one item. -/
def Resources.inRule (res : Resources) (handle : Int) (key : ItemKey) : Resources :=
  { res with items := fun k =>
      if k = key then (res.items k).map fun it => it.inRule handle else res.items k }

/-- `indexRuleTriggers` -/
def indexRuleTriggers {D : Type} (res : Resources) (rule : Rule D) : Resources :=
  (indexItems res rule.conditions).foldl (fun res key => res.inRule rule.handle key) res

namespace RuleStore

variable {D : Type}

/-- `indexRulesTriggers` -/
def indexRulesTriggers (store : RuleStore D) : RuleStore D :=
  let queue := (store.rules.filter fun rule =>
    QString.startsWith rule.status (QString.ofLatin1 "e")).map Rule.handle
  { store with
      fastRuleCheck := queue
      timerActive := store.timerActive || decide (queue ≠ []) }

/-- The loop of `fastRuleCheckTimerFired` over the queue: the queue and the resources
behind the first rule that is found, or `none` when all is done. -/
def fastCheck (rules : List (Rule D)) (res : Resources) : List Int → Option (List Int × Resources)
  | [] => none
  | handle :: queue =>
    if handle = 0 then
      (fastCheck rules res queue).map fun r => (0 :: r.1, r.2)
    else
      match rules.find? fun rule => decide (rule.handle = handle) with
      | some rule => some (0 :: queue, indexRuleTriggers res rule)
      | none => (fastCheck rules res queue).map fun r => (0 :: r.1, r.2)

/-- `fastRuleCheckTimerFired` -/
def fastRuleCheckTimerFired (store : RuleStore D) : RuleStore D :=
  match fastCheck store.rules store.res store.fastRuleCheck with
  | some r => { store with fastRuleCheck := r.1, res := r.2, timerActive := true }
  | none => { store with fastRuleCheck := [], timerActive := false }

def setRule (store : RuleStore D) (i : Nat) (rule : Rule D) : RuleStore D :=
  { store with rules := store.rules.set i rule }

end RuleStore
end DeconzRest

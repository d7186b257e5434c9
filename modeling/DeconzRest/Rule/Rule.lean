import DeconzRest.Resource.RuleItem
import DeconzRest.Rule.Condition

/-!
# `Rule`, `RuleAction`, and the resources that rules speak of

Etag, creation time and the flag that asks for a save are left out: no function of
the rule engine that is modelled here reads them.

Which resource an address names is decided by the containers of sensors, lights,
groups, devices and alarm systems.  For the rule engine that is a look-up,
`getResource`; only `/config` is one and the same object for every id.
-/

namespace DeconzRest

open QString

/-- `RuleAction` -/
structure RuleAction where
  address : QString := []
  method : QString := []
  body : QString := []
deriving DecidableEq, Repr

namespace RuleAction

/-- The methods that `setMethod` takes. -/
def isMethod (method : QString) : Bool :=
  decide (method = ofLatin1 "POST" ∨ method = ofLatin1 "PUT" ∨ method = ofLatin1 "DELETE" ∨ method =
    ofLatin1 "GET")

/-- `RuleAction::setMethod` -/
def setMethod (a : RuleAction) (method : QString) : RuleAction :=
  if isMethod method then { a with method := method } else a

/-- `RuleAction::setBody`: the blanks are taken out, wherever they stand. -/
def setBody (a : RuleAction) (body : QString) : RuleAction :=
  { a with body := body.filter fun c => c ≠ unit ' ' }

end RuleAction

/-- `Rule::State` -/
inductive RuleState where
  | normal | deleted
deriving DecidableEq, Repr

/-- `Rule`; `lastTriggered` is in milliseconds since the epoch, `none` when invalid. -/
structure Rule (D : Type) where
  state : RuleState := .normal
  id : QString := []
  handle : Int := -1
  name : QString := []
  lastTriggered : Option Int := none
  timesTriggered : UInt32 := 0
  triggerPeriodic : Int := 0
  owner : QString := []
  status : QString := ofLatin1 "enabled"
  conditions : List (RuleCondition D) := []
  actions : List RuleAction := []

namespace Rule

variable {D : Type}

/-- `Rule::isEnabled` -/
def isEnabled (rule : Rule D) : Bool := decide (rule.status = ofLatin1 "enabled")

end Rule

/-- Names one item: a resource, by its place among all resources, and the suffix. -/
abbrev ItemKey := Nat × String

structure Resources where
  /-- `DeRestPluginPrivate::getResource` -/
  getResource : Option String → QString → Option Nat
  /-- The member `config`. -/
  config : Nat
  getResource_config : ∀ id, getResource (some rConfig) id = some config
  /-- `Resource::prefix` -/
  resourcePrefix : Nat → String
  resourcePrefix_config : resourcePrefix config = rConfig
  items : ItemKey → Option RuleItem

namespace Resources

/-- `resource->item(suffix)` -/
def item (res : Resources) (resource : Nat) (suffix : String) : Option RuleItem :=
  res.items (resource, suffix)

def setItem (res : Resources) (key : ItemKey) (it : RuleItem) : Resources :=
  { res with items := fun k => if k = key then some it else res.items k }

@[simp] theorem getResource_setItem (res : Resources) (key : ItemKey) (it : RuleItem) :
    (res.setItem key it).getResource = res.getResource := rfl

@[simp] theorem resourcePrefix_setItem (res : Resources) (key : ItemKey) (it : RuleItem) :
    (res.setItem key it).resourcePrefix = res.resourcePrefix := rfl

@[simp] theorem config_setItem (res : Resources) (key : ItemKey) (it : RuleItem) :
    (res.setItem key it).config = res.config := rfl

theorem item_setItem (res : Resources) (key : ItemKey) (it : RuleItem) (resource : Nat)
    (suffix : String) :
    (res.setItem key it).item resource suffix = if (resource, suffix) =
      key then some it else res.item resource suffix := rfl

/-- `config.item(RConfigLocalTime)` -/
def localTime (res : Resources) : Option RuleItem := res.item res.config rConfigLocalTime

/-- The configuration, and the sensor `1` with a button. -/
def oneSensor (button : RuleItem) : Resources where
  getResource := fun resource id =>
    if resource = some rConfig then some 0
    else if resource = some rSensors ∧ id = ofLatin1 "1" then some 1
    else none
  config := 0
  getResource_config := fun _ => rfl
  resourcePrefix := fun resource => if resource = 0 then rConfig else rSensors
  resourcePrefix_config := rfl
  items := fun key =>
    if key = (1, "state/buttonevent") then some button
    else if key = (0, rConfigLocalTime) then some {}
    else none

end Resources
end DeconzRest

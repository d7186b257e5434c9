import DeconzRest.Alarm.Keypad
import DeconzRest.Qt.Time
import DeconzRest.Resource.Descriptors

/-!
# `RuleCondition`

A condition is built from the map of a request or of the database: an address,
an operator and a value.  The constructor resolves the address to a resource
prefix, an id and an item suffix, and rewrites the value by operator and suffix:
durations, intervals, booleans, arm states, references to another local time,
numbers.  A condition that it cannot make sense of gets the operator `unknown`.
-/

namespace DeconzRest

open QString

def rConfig : String := "/config"
def rDevices : String := "/devices"
def rGroups : String := "/groups"
def rLights : String := "/lights"
def rInvalidSuffix : String := "invalid/suffix"
def rStateLocaltime : String := "state/localtime"
def rConfigLocalTime : String := "config/localtime"

/-- What the rule code finds outside of itself: Qt, `QString::toInt(&ok)`, the time zone
of the system and the descriptor table. -/
structure RuleEnv (D : Type) where
  qt : Qt D
  stringToInt : QString → Option Int
  zone : TimeZone
  descriptors : List String

/-- `RuleCondition::Operator` -/
inductive Operator where
  | equal | notEqual | greaterThan | lowerThan | dx | ddx | isIn | notIn | stable | notStable
  | unknown
deriving DecidableEq, Repr

namespace Operator

/-- The operator of a text; `not stable` has none. -/
def ofString (s : QString) : Operator :=
  if s = ofLatin1 "eq" then .equal
  else if s = ofLatin1 "ne" then .notEqual
  else if s = ofLatin1 "gt" then .greaterThan
  else if s = ofLatin1 "lt" then .lowerThan
  else if s = ofLatin1 "dx" then .dx
  else if s = ofLatin1 "ddx" then .ddx
  else if s = ofLatin1 "in" then .isIn
  else if s = ofLatin1 "not in" then .notIn
  else if s = ofLatin1 "stable" then .stable
  else .unknown

end Operator

/-- `RuleCondition`; a prefix is `none` where the source has a null pointer. -/
structure RuleCondition (D : Type) where
  address : QString
  operator : QString
  value : QVariant D
  resource : Option String := none
  suffix : String := rInvalidSuffix
  valueResource : Option String := none
  valueSuffix : Option String := none
  id : QString := []
  valueId : QString := []
  op : Operator := .unknown
  num : Int := 0
  weekDays : Nat := 127
  time0 : Int := QTime.null
  time1 : Int := QTime.null

namespace RuleCondition

variable {D : Type}

/-- `RuleCondition::isValid` -/
def isValid (c : RuleCondition D) : Bool := decide (c.op ≠ .unknown)

/-- `RuleCondition::weekDayEnabled` -/
def weekDayEnabled (c : RuleCondition D) (day : Nat) : Bool :=
  decide (c.weekDays &&& 1 <<< (7 - day) ≠ 0)

def addressResource (address : QString) : Option String :=
  if startsWith address (ofLatin1 rSensors) then some rSensors
  else if startsWith address (ofLatin1 rConfig) then some rConfig
  else if startsWith address (ofLatin1 rGroups) then some rGroups
  else if startsWith address (ofLatin1 rLights) then some rLights
  else if startsWith address (ofLatin1 rAlarmSystems) then some rAlarmSystems
  else none

def addressId (address : QString) : QString :=
  if startsWith address (ofLatin1 rSensors) || startsWith address (ofLatin1 rGroups) ||
      startsWith address (ofLatin1 rLights) ||
      startsWith address (ofLatin1 rAlarmSystems) then
    ((split address '/')[1]?).getD []
  else
    []

/-- The old style `illuminance` of a sensor becomes `lux`, wherever it stands. -/
def newStyle (address : QString) : QString :=
  if startsWith address (ofLatin1 rSensors) && endsWith address (ofLatin1 "/illuminance") then
    replaceText address (ofLatin1 "/illuminance") (ofLatin1 "/lux")
  else
    address

/-! ## The value -/

/-- The number of `W([0-9]{1,3})`. -/
def weekDaysOf (s : QString) : Option Nat :=
  match s with
  | w :: digits =>
    if w = unit 'W' ∧ 1 ≤ digits.length ∧ digits.length ≤ 3 then
      digits.foldlM (fun n d => (digitValue d).map fun v => 10 * n + v) 0
    else
      none
  | [] => none

/-- `IAS_PanelStatusFromString` -/
def panelStatusFromString (s : QString) : Int :=
  match PanelStatus.all.findIdx? fun p => decide (ofLatin1 p.name = s) with
  | some i => i
  | none => -1

/-- The start and end times of an interval; the parts are those behind the week days. -/
def withTimes (c : RuleCondition D) (interval : List QString) : RuleCondition D :=
  match interval with
  | [s0, s1] =>
    let t0 := QTime.fromString s0 "T"
    let t1 := QTime.fromString s1 "T"
    if QTime.isValid t0 && QTime.isValid t1 then
      { c with time0 := t0, time1 := t1 }
    else
      { c with op := .unknown }
  | _ => { c with op := .unknown }

/-- The interval of `in` and `not in`.  Week days beyond 127 leave the constructor
without a mark. -/
def withInterval (c : RuleCondition D) (str : QString) : RuleCondition D :=
  match split str '/' with
  | [first, s0, s1] =>
    match weekDaysOf first with
    | some w => if 127 < w then c else withTimes { c with weekDays := w } [s0, s1]
    | none => withTimes c [s0, s1]
  | interval => withTimes c interval

/-- The reference to another local time, for `gt` and `lt`. -/
def withReference (c : RuleCondition D) (str : QString) : RuleCondition D :=
  if endsWith str (ofLatin1 rConfigLocalTime) then
    { c with valueResource := some rConfig, valueSuffix := some rConfigLocalTime }
  else if startsWith str (ofLatin1 rSensors) && endsWith str (ofLatin1 rStateLocaltime) then
    match split str '/' with
    | [_, id, _, _] =>
      { c with
          valueResource := some rSensors
          valueSuffix := some rStateLocaltime
          valueId := id }
    | _ => { c with op := .unknown }
  else
    { c with op := .unknown }

/-- The text is compared as a number: an arm state by its position, anything else by
its value. -/
def withNumberText (env : RuleEnv D) (c : RuleCondition D) (str : QString) : RuleCondition D :=
  if c.suffix = rStateArmState then
    let num := panelStatusFromString str
    if 0 ≤ num then { c with num := num } else { c with op := .unknown }
  else
    match env.stringToInt str with
    | some num => { c with value := .double (env.qt.ofInt num) }
    | none => { c with op := .unknown }

def withText (env : RuleEnv D) (c : RuleCondition D) (str : QString) : RuleCondition D :=
  if c.op = .ddx ∨ c.op = .stable then
    let t := QTime.fromString str "PT"
    if QTime.isValid t then
      { c with time0 := t, num := QTime.secondsFromMidnight t }
    else
      { c with op := .unknown }
  else if c.op = .isIn ∨ c.op = .notIn then
    withInterval c str
  else if str = ofLatin1 "true" ∨ str = ofLatin1 "false" then
    { c with value := .bool (env.qt.toBool (.string str)) }
  else if (c.op = .greaterThan ∨ c.op = .lowerThan) ∧ c.suffix = rStateLocaltime ∧
      endsWith str (ofLatin1 "/localtime") = true then
    withReference c str
  else if c.op = .equal ∨ c.op = .notEqual ∨ c.op = .greaterThan ∨ c.op = .lowerThan then
    withNumberText env c str
  else
    c

def withNumber (env : RuleEnv D) (c : RuleCondition D) : RuleCondition D :=
  match c.value with
  | .double _ | .int _ =>
    match env.qt.toInt c.value with
    | some num => { c with num := num }
    | none => { c with num := 0, op := .unknown }
  | .bool b => { c with num := if b then 1 else 0 }
  | _ => c

/-- What the constructor knows before it looks at the value. -/
def ofAddress (env : RuleEnv D) (address operator : QString) (value : QVariant D) :
    RuleCondition D where
  address := newStyle address
  operator := operator
  value := value
  resource := addressResource address
  suffix := (getResourceItemDescriptor env.descriptors (newStyle address)).getD rInvalidSuffix
  id := addressId address
  op := Operator.ofString operator

/-- `RuleCondition::RuleCondition(const QVariantMap &)`.  Where the source returns early,
the value is a text still, and `withNumber` leaves it alone. -/
def ofMap (env : RuleEnv D) (map : List (QString × QVariant D)) : RuleCondition D :=
  let value := QVariant.value map "value"
  let c := ofAddress env ((QVariant.value map "address").toString env.qt)
    ((QVariant.value map "operator").toString env.qt) value
  match value with
  | .string str => withNumber env (withText env c str)
  | _ => withNumber env c

/-! ## What the value leaves alone -/

def target (c : RuleCondition D) : QString × QString × Option String × String × QString :=
  (c.address, c.operator, c.resource, c.suffix, c.id)

variable (c : RuleCondition D)

theorem target_withTimes (interval : List QString) : (withTimes c interval).target = c.target := by
  unfold withTimes
  split
  · simp only
    split <;> rfl
  · rfl

theorem target_withInterval (str : QString) : (withInterval c str).target = c.target := by
  unfold withInterval
  split
  · split
    · split
      · rfl
      · exact target_withTimes _ _
    · exact target_withTimes _ _
  · exact target_withTimes _ _

theorem target_withReference (str : QString) : (withReference c str).target = c.target := by
  unfold withReference
  split
  · rfl
  · split
    · split <;> rfl
    · rfl

variable (env : RuleEnv D)

theorem target_withNumberText (c : RuleCondition D) (str : QString) :
    (withNumberText env c str).target = c.target := by
  unfold withNumberText
  split
  · simp only
    split <;> rfl
  · split <;> rfl

theorem target_withText (c : RuleCondition D) (str : QString) :
    (withText env c str).target = c.target := by
  unfold withText
  split
  · simp only
    split <;> rfl
  · split
    · exact target_withInterval c str
    · split
      · rfl
      · split
        · exact target_withReference c str
        · split
          · exact target_withNumberText env c str
          · rfl

theorem target_withNumber (c : RuleCondition D) : (withNumber env c).target = c.target := by
  unfold withNumber
  split
  · split <;> rfl
  · split <;> rfl
  · rfl
  · rfl

theorem target_ofMap (map : List (QString × QVariant D)) :
    (ofMap env map).target =
      (ofAddress env ((QVariant.value map "address").toString env.qt)
        ((QVariant.value map "operator").toString env.qt) (QVariant.value map "value")).target := by
  unfold ofMap
  simp only
  split
  · rw [target_withNumber, target_withText]
  · rw [target_withNumber]

theorem addressResource_ne_devices (address : QString) :
    addressResource address ≠ some rDevices := by
  unfold addressResource
  split_ifs <;> decide

theorem resource_ofMap_ne_devices (map : List (QString × QVariant D)) :
    (ofMap env map).resource ≠ some rDevices := by
  have htarget := congrArg (fun t => t.2.2.1) (target_ofMap env map)
  have hresource : (ofMap env map).resource =
      addressResource ((QVariant.value map "address").toString env.qt) := htarget
  rw [hresource]
  exact addressResource_ne_devices _

def requestMap (address operator : String) (value : QVariant D) : List (QString × QVariant D) :=
  [(ofLatin1 "address", .string (ofLatin1 address)),
    (ofLatin1 "operator", .string (ofLatin1 operator)),
    (ofLatin1 "value", value)]

end RuleCondition

/-- Enough of Qt and a few of the descriptors, to run the rule code in a place where the
clock shows UTC. -/
def RuleEnv.utc : RuleEnv Int where
  qt := Qt.whole
  stringToInt := Qt.digits?
  zone := fun _ => 0
  descriptors := ["state/buttonevent", "state/lux", rConfigLocalTime]

end DeconzRest

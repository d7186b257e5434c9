import DeconzRest.Json.Octets
import DeconzRest.Json.Reread
import DeconzRest.Qt.DateTime
import Mathlib.Algebra.Order.Ring.Rat

/-!
# Storage of sensor items

The state and the config of a sensor are stored as JSON maps of their items.  The writer makes a
variant of each item by its type; the readers put times in place of some texts and hand the rest
to `ResourceItem::setValue`.

An item has what these functions read and write of it.  Times are milliseconds since the epoch.
-/

namespace DeconzRest
namespace SensorStorage

open QString
open QDateTime (Format InRange cut fromString)

/-- `ApiDataType` -/
inductive DataType where
  | unknown
  | bool
  | uint8
  | uint16
  | uint32
  | uint64
  | int8
  | int16
  | int32
  | int64
  | real
  | string
  | time
  | timePattern
deriving DecidableEq, Repr

/-- `"state/"` -/
def stateFront : QString := ofLatin1 "state/"

/-- `"config/"` -/
def configFront : QString := ofLatin1 "config/"

/-- The items whose texts the readers replace by times -/
def timesRead : List QString :=
  ["state/lastset", "state/lastupdated", "state/localtime", "state/utc",
    "config/lastchange_time"].map ofLatin1

/-- `ResourceItemDescriptor`.  Names are ASCII, items with the names of times have times, and
`config/on` is a flag. -/
structure Descriptor where
  type : DataType
  suffix : QString
  validMin : Rat := 0
  validMax : Rat := 0
  ascii : suffix.all (fun c => decide (c.toNat < 0x80)) = true
  times : suffix ∈ timesRead → type = .time
  on : suffix = ofLatin1 "config/on" → type = .bool

variable {D : Type}

/-- `ResourceItem`; `lastSet` is `none` when it is no valid time. -/
structure Item (D : Type) where
  rid : Descriptor
  num : Int
  real : D
  str : QString
  lastSet : Option Int

/-- What the system, Qt and deCONZ decide about times -/
structure Clock where
  /-- The offset of the local time in seconds, in a second since the epoch -/
  offset : Int → Int
  /-- The time at which a local clock shows this -/
  fromLocal : Int → Int
  /-- `U_TimeFromISO8601` -/
  fromIso8601 : QString → Int
  /-- `QVariant::toString` of a time -/
  text : Option Int → QString
  /-- `QDateTime::toMSecsSinceEpoch` of an invalid time -/
  ofInvalid : Int
  /-- `QDateTime::currentDateTime` -/
  now : Int

namespace Clock

variable (clock : Clock)

def zone : TimeZone := fun ms => 1000 * clock.offset (ms / 1000)

/-- What the clock of a time spec shows -/
def wall (spec : TimeSpec) (ms : Int) : Int :=
  match spec with
  | .utc => ms
  | .localTime => QDateTime.wall clock.zone ms

/-- The time that a clock of a time spec shows -/
def instant (spec : TimeSpec) (wall : Int) : Int :=
  match spec with
  | .utc => wall
  | .localTime => clock.fromLocal wall

end Clock

/-- The format and the time spec of a time in `ResourceItem::toString` -/
def timeFormat (suffix : QString) : Format × TimeSpec :=
  if suffix = ofLatin1 "state/lastupdated" ∨ suffix = ofLatin1 "state/lastcheckin" then
    (.milliseconds, .utc)
  else if suffix = ofLatin1 "attr/lastannounced" ∨ suffix = ofLatin1 "state/lastset" ∨ suffix =
      ofLatin1 "state/utc" ∨
      suffix = ofLatin1 "config/lastchange_time" then
    (.secondsZ, .utc)
  else if suffix = ofLatin1 "attr/lastseen" then
    (.minutesZ, .utc)
  else if suffix = ofLatin1 "state/sunrise" ∨ suffix = ofLatin1 "state/sunset" then
    (.seconds, .utc)
  else
    (.seconds, .localTime)

section writing

variable (qt : Qt D) (clock : Clock)

/-- `ResourceItem::toString` -/
def toString (item : Item D) : QString :=
  match item.rid.type with
  | .string | .timePattern => item.str
  | .time =>
    if 0 < item.num then
      let (format, spec) := timeFormat item.rid.suffix
      QDateTime.toString format (clock.wall spec item.num)
    else
      []
  | _ => []

/-- `ResourceItem::toVariant` -/
def toVariant (item : Item D) : QVariant D :=
  if item.lastSet = none then
    match item.rid.type with
    | .string | .timePattern => .string []
    | _ => .invalid
  else
    match item.rid.type with
    | .string | .timePattern => .string item.str
    | .bool => .bool (decide (item.num ≠ 0))
    | .time => .string (toString clock item)
    | .real => .double item.real
    | _ => .double (qt.ofInt item.num)

/-- `map[key] = item->toVariant()` for the items of one part of the sensor -/
def putItem (front : QString) (map : List (QString × QVariant D)) (item : Item D) :
    List (QString × QVariant D) :=
  if startsWith item.rid.suffix front then
    Json.insert (item.rid.suffix.drop front.length) (toVariant qt clock item) map
  else
    map

def itemsToString (front : QString) (items : List (Item D)) : QString :=
  fromUtf8 (Json.serialize qt (.map (items.foldl (putItem qt clock front) [])))

/-- `Sensor`: its type and its items. -/
structure Sensor (D : Type) where
  type : QString
  items : List (Item D)

/-- `Sensor::stateToString` -/
def stateToString (sensor : Sensor D) : QString := itemsToString qt clock stateFront sensor.items

/-- `Sensor::configToString` -/
def configToString (sensor : Sensor D) : QString := itemsToString qt clock configFront sensor.items

end writing

/-! ## Reading -/

/-- A `QVariant` of the readers, which may be a time. -/
inductive Entry (D : Type) where
  | variant (v : QVariant D)
  | dateTime (t : Option Int)

/-- `QVariant::isNull`: an empty text of the parser is null. -/
def Entry.isNull : Entry D → Bool
  | .variant .invalid => true
  | .variant (.string s) => decide (s = [])
  | .variant _ => false
  | .dateTime t => decide (t = none)

/-- The range check of `ResourceItem::setValue` -/
def inRange (rid : Descriptor) (n : Int) : Prop :=
  (rid.validMin = 0 ∧ rid.validMax = 0) ∨ (rid.validMin ≤ n ∧ (n : Rat) ≤ rid.validMax)

instance (rid : Descriptor) (n : Int) : Decidable (inRange rid n) :=
  inferInstanceAs (Decidable (_ ∨ _))

section reading

variable (qt : Qt D) (toDouble : QVariant D → Option D) (clock : Clock)

/-- `ResourceItem::setValue(qint64)` -/
def setNumber (item : Item D) (n : Int) : Item D :=
  if inRange item.rid n then { item with num := n, lastSet := some clock.now } else item

/-- The text that is handed to `U_TimeFromISO8601`: historically some items are UTC but stored
without Z. -/
def isoText (suffix str : QString) : QString :=
  if endsWith str [unit 'Z'] = false ∧
      (suffix = ofLatin1 "state/lastupdated" ∨ suffix = ofLatin1 "state/lastcheckin" ∨ suffix =
        ofLatin1 "state/sunrise" ∨ suffix = ofLatin1 "state/sunset") then
    str ++ [unit 'Z']
  else
    str

/-- `ResourceItem::setValue` of a time -/
def setTime (item : Item D) : Entry D → Item D
  | .variant (.string str) =>
    if str = [] then item
    else
      let ms := clock.fromIso8601 (isoText item.rid.suffix str)
      if 0 < ms then { item with num := ms, lastSet := some clock.now } else item
  | .variant _ => item
  | .dateTime t => { item with num := t.getD clock.ofInvalid, lastSet := some clock.now }

/-- `QVariant::toString` -/
def Entry.toString : Entry D → QString
  | .variant v => v.toString qt
  | .dateTime t => clock.text t

/-- `QVariant::toBool` -/
def Entry.toBool : Entry D → Bool
  | .variant v => qt.toBool v
  | .dateTime _ => false

/-- `QVariant::toDouble(&ok)` -/
def Entry.toReal : Entry D → Option D
  | .variant v => toDouble v
  | .dateTime _ => none

/-- `QVariant::toInt(&ok)` -/
def Entry.toInt : Entry D → Option Int
  | .variant v => qt.toInt v
  | .dateTime _ => none

/-- `ResourceItem::setValue(QVariant)` -/
def setValue (item : Item D) (val : Entry D) : Item D :=
  match val with
  | .variant .invalid => { item with lastSet := none }
  | val =>
    match item.rid.type with
    | .string | .timePattern =>
      { item with str := trimmed (val.toString qt clock), lastSet := some clock.now }
    | .bool =>
      { item with num := if val.toBool qt then 1 else 0, lastSet := some clock.now }
    | .time => setTime clock item val
    | .real =>
      match val.toReal toDouble with
      | some d => { item with real := d, lastSet := some clock.now }
      | none => item
    | _ =>
      match val.toInt qt with
      | some n => setNumber clock item n
      | none => item

/-- `ResourceItem::setTimeStamps` -/
def setTimeStamps (t : Option Int) (item : Item D) : Item D := { item with lastSet := t }

/-- The format in which `jsonToState` reads `lastupdated` -/
def updatedFormat (text : QString) : Format := if text.length = 19 then .seconds else .milliseconds

/-- An entry of the map when `jsonToState` comes to the items -/
def stateEntry (key : QString) (v : QVariant D) : Entry D :=
  let text := v.toString qt
  if key = ofLatin1 "lastset" then
    .dateTime (fromString .secondsZ text)
  else if key = ofLatin1 "lastupdated" then
    .dateTime (fromString (updatedFormat text) text)
  else if key = ofLatin1 "localtime" then
    .dateTime ((fromString .seconds text).map (clock.instant .localTime))
  else if key = ofLatin1 "utc" then
    .dateTime (fromString .secondsZ text)
  else
    .variant v

/-- An entry of the map when `jsonToConfig` comes to the items -/
def configEntry (key : QString) (v : QVariant D) : Entry D :=
  if key = ofLatin1 "lastchange_time" then
    .dateTime (fromString .secondsZ (v.toString qt))
  else
    .variant v

def beforeStart : Int := QDateTime.addSecs clock.now (-120)

/-- The time stamp of the state: the last update if that is earlier.  It is compared as a local
time, and an invalid one is earlier than any other. -/
def stateStamp (map : List (QString × QVariant D)) : Option Int :=
  match map.lookup (ofLatin1 "lastupdated") with
  | none => some (beforeStart clock)
  | some v =>
    let text := v.toString qt
    match fromString (updatedFormat text) text with
    | none => none
    | some wall => some (min (clock.fromLocal wall) (beforeStart clock))

/-- One turn of the loop of `jsonToState` -/
def readState (map : List (QString × QVariant D)) (item : Item D) : Item D :=
  if startsWith item.rid.suffix stateFront then
    let key := item.rid.suffix.drop stateFront.length
    match map.lookup key with
    | some v =>
      setTimeStamps (stateStamp qt clock map)
        (setValue qt toDouble clock item (stateEntry qt clock key v))
    | none => item
  else
    item

/-- `Sensor::jsonToState` -/
def jsonToState (json : QString) (sensor : Sensor D) : Sensor D :=
  let var := Json.parse qt json
  if var.2 = false then sensor
  else { sensor with items := sensor.items.map (readState qt toDouble clock var.1.toMap) }

/-- `type().startsWith("CLIP")` -/
def isClip (sensor : Sensor D) : Bool :=
  startsWith sensor.type (ofLatin1 "CLIP")

/-- One turn of the loop of `jsonToConfig` -/
def readConfig (clip : Bool) (map : List (QString × QVariant D)) (item : Item D) : Item D :=
  if clip = false ∧ item.rid.suffix = ofLatin1 "config/reachable" then
    setNumber clock item 0 -- set only from live data
  else if startsWith item.rid.suffix configFront ∧ item.rid.suffix ≠ ofLatin1 "config/pending" then
    let key := item.rid.suffix.drop configFront.length
    match map.lookup key with
    | some v =>
      if (configEntry qt key v).isNull then
        if item.rid.suffix = ofLatin1 "config/on" then
          setTimeStamps (some (beforeStart clock))
            (setValue qt toDouble clock item (.variant (.bool true))) -- default value
        else
          item
      else
        setTimeStamps (some (beforeStart clock))
          (setValue qt toDouble clock item (configEntry qt key v))
    | none => item
  else
    item

/-- The descriptor of `RConfigBattery` -/
def batteryDescriptor : Descriptor where
  type := .uint8
  suffix := ofLatin1 "config/battery"
  validMin := 0
  validMax := 100
  ascii := by decide
  times := fun h => absurd h (by decide)
  on := fun h => absurd h (by decide)

/-- `addItem(DataTypeUInt8, RConfigBattery)`: nothing is added twice. -/
def addBattery (items : List (Item D)) : List (Item D) :=
  if items.any fun item => item.rid.suffix = batteryDescriptor.suffix then items
  else items ++ [{ rid := batteryDescriptor, num := 0, real := qt.ofInt 0, str := [],
                   lastSet := none }]

/-- `Sensor::jsonToConfig` -/
def jsonToConfig (json : QString) (sensor : Sensor D) : Sensor D :=
  let var := Json.parse qt json
  if var.2 = false then sensor
  else
    let map := var.1.toMap
    let items := if QVariant.contains map "battery" && isClip sensor then
        addBattery qt sensor.items
      else
        sensor.items
    { sensor with items := items.map (readConfig qt toDouble clock (isClip sensor) map) }

end reading

end SensorStorage
end DeconzRest

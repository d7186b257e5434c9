import DeconzRest.Json.Value
import DeconzRest.Qt.Radix

/-!
# `DDF_ParseDeviceObject`

A device description file is one JSON object.  A `QJsonValue` is a variant here, `null` an
invalid one, and a `QJsonObject` the list of its members.

The numbers of a `QJsonValue` are doubles.  What Qt makes of them, and what comes back of a
number that was written to a document, are the functions of `DdfEnv`; so is the table of
descriptors behind `getResourceItemDescriptor`.  An item with a `schema` is a generic item: it
can add its own descriptor to the table in front of the lookup, which is left out here.
-/

namespace DeconzRest
namespace DeviceObject

open QString (ofLatin1 ofStd toUIntC toUShortC)
open QVariant (value contains)

variable {D : Type}

/-- A `QJsonObject`, and a `QVariantMap` -/
abbrev JsonObject (D : Type) := List (QString × QVariant D)

/-- `ResourceItemDescriptor::Access` -/
inductive Access where
  | unknown | readWrite | readOnly
deriving DecidableEq, Repr

/-- What a description reads and changes of a `ResourceItemDescriptor`, with its `isValid`.
Suffixes are constants that are compared by their address: two of them differ in their text. -/
structure Descriptor where
  suffix : String := "invalid/suffix"
  access : Access := .unknown
  isValid : Bool := false
deriving DecidableEq, Repr

/-- What the reader and the writer find outside of themselves. -/
structure DdfEnv (D : Type) where
  /-- `QJsonValue::toInt` of a number; `none` is its default. -/
  toInt : D → Option Int
  /-- The number that is read of the digits of an integer -/
  ofInt : Int → D
  /-- The number that is read of what a document makes of a `double` -/
  reread : D → D
  /-- `getResourceItemDescriptor` -/
  descriptor : String → Option Descriptor

variable (env : DdfEnv D)

/-- `QJsonValue::toString` -/
def textOf : QVariant D → QString
  | .string s => s
  | _ => []

/-- `QJsonValue::toBool` -/
def boolOf : QVariant D → Bool
  | .bool b => b
  | _ => false

/-- `QJsonValue::toInt` with a default -/
def intOf (default : Int) : QVariant D → Int
  | .double d => (env.toInt d).getD default
  | _ => default

/-- `QJsonValue::isObject` and `QJsonValue::toObject` -/
def objectOf? : QVariant D → Option (JsonObject D)
  | .map members => some members
  | _ => none

/-- `QJsonValue::isArray` and `QJsonValue::toArray` -/
def arrayOf? : QVariant D → Option (List (QVariant D))
  | .list values => some values
  | _ => none

def objectsOf (values : List (QVariant D)) : List (JsonObject D) := values.filterMap objectOf?

/-! ## Items -/

/-- `DeviceDescription::Item` -/
@[ext]
structure Item (D : Type) where
  name : String := ""
  descriptor : Descriptor := {}
  description : QString := []
  isGenericRead : Bool := false
  isGenericWrite : Bool := false
  isGenericParse : Bool := false
  isPublic : Bool := false
  isStatic : Bool := false
  isImplicit : Bool := false
  isManaged : Bool := false
  awake : Bool := false
  hasIsPublic : Bool := false
  refreshInterval : Int := -1
  parseParameters : Option (JsonObject D) := none
  readParameters : Option (JsonObject D) := none
  writeParameters : Option (JsonObject D) := none
  defaultValue : Option (QVariant D) := none

/-- `DeviceDescription::Item::isValid` -/
def Item.isValid (item : Item D) : Bool :=
  item.name ≠ "" && item.descriptor.isValid

/-- A text in a `BufString<64>`, as a C string; one that is too long is not taken. -/
def bufString (s : QString) : String :=
  let name := String.ofList ((QString.toChars s).takeWhile (· ≠ '\x00'))
  if name.utf8ByteSize ≤ 62 then name else ""

/-- The name of an item in front of the deprecated names -/
def givenName (obj : JsonObject D) : String :=
  if contains obj "name" then bufString (textOf (value obj "name"))
  else if contains obj "id" then bufString (textOf (value obj "id"))
  else ""

def currentName (name : String) : String :=
  if name = "config/colorcapabilities" then "cap/color/capabilities"
  else if name = "config/ctmax" then "cap/color/ct/max"
  else if name = "config/ctmin" then "cap/color/ct/min"
  else name

/-- The access of a descriptor, where the item says it -/
def accessOf (obj : JsonObject D) (d : Descriptor) : Descriptor :=
  if textOf (value obj "access") = ofLatin1 "R" then { d with access := .readOnly }
  else if textOf (value obj "access") = ofLatin1 "RW" then { d with access := .readWrite }
  else d

def describedItem (obj : JsonObject D) (name : String) (d : Descriptor) : Item D :=
  let item : Item D :=
    { name
      descriptor := accessOf obj d
      description := textOf (value obj "description")
      isPublic := boolOf (value obj "public")
      hasIsPublic := contains obj "public"
      isImplicit := boolOf (value obj "implicit")
      awake := boolOf (value obj "awake")
      isManaged := boolOf (value obj "managed") }
  if contains obj "static" then
    { item with isStatic := true, defaultValue := some (value obj "static") }
  else
    { item with
        defaultValue := if contains obj "default" then some (value obj "default") else none
        parseParameters := objectOf? (value obj "parse")
        readParameters := objectOf? (value obj "read")
        refreshInterval :=
          if contains obj "refresh.interval" then intOf env 0 (value obj "refresh.interval") else -1
        writeParameters := objectOf? (value obj "write") }

/-- The name of an item; only generic items, which have a schema, keep a deprecated one. -/
def itemName (obj : JsonObject D) : String :=
  if contains obj "schema" then givenName obj else currentName (givenName obj)

/-- `DDF_ParseItem` -/
def parseItem (obj : JsonObject D) : Item D :=
  if itemName obj = "" then {}
  else
    match env.descriptor (itemName obj) with
    | none => { name := itemName obj, description := textOf (value obj "description") }
    | some d => describedItem env obj (itemName obj) d

section Valid

variable {env} {obj : JsonObject D} {name : String} {d : Descriptor}

@[simp] theorem suffix_accessOf : (accessOf obj d).suffix = d.suffix := by
  unfold accessOf
  split
  · rfl
  · split
    · rfl
    · rfl

@[simp] theorem isValid_accessOf : (accessOf obj d).isValid = d.isValid := by
  unfold accessOf
  split
  · rfl
  · split
    · rfl
    · rfl

@[simp] theorem name_describedItem : (describedItem env obj name d).name = name := by
  unfold describedItem
  split
  · rfl
  · rfl

@[simp] theorem descriptor_describedItem :
    (describedItem env obj name d).descriptor = accessOf obj d := by
  unfold describedItem
  split
  · rfl
  · rfl

theorem parseItem_of_isValid (hvalid : (parseItem env obj).isValid = true) :
    itemName obj ≠ "" ∧ ∃ d, env.descriptor (itemName obj) = some d ∧ d.isValid = true ∧
      parseItem env obj = describedItem env obj (itemName obj) d := by
  unfold parseItem at hvalid ⊢
  by_cases hname : itemName obj = ""
  · rw [if_pos hname] at hvalid
    exact absurd hvalid Bool.false_ne_true
  · rw [if_neg hname] at hvalid ⊢
    cases hd : env.descriptor (itemName obj) with
    | none =>
      rw [hd] at hvalid
      simp [Item.isValid] at hvalid
    | some d =>
      rw [hd] at hvalid
      simp only [Item.isValid, name_describedItem, descriptor_describedItem, isValid_accessOf,
        Bool.and_eq_true] at hvalid
      exact ⟨hname, d, rfl, hvalid.2, rfl⟩

end Valid

/-- `SensorFingerprint` -/
structure Fingerprint where
  endpoint : UInt8 := 0xFF
  profileId : UInt16 := 0xFFFF
  deviceId : UInt16 := 0xFFFF
  inClusters : List UInt16 := []
  outClusters : List UInt16 := []
deriving DecidableEq, Repr

/-- `isValid` of a fingerprint -/
def Fingerprint.isValid (fp : Fingerprint) : Bool := fp.endpoint ≠ 0xFF

/-- The clusters of a list; `none` is a text that is no number. -/
def clustersOf (v : QVariant D) : Option (List UInt16) :=
  match arrayOf? v with
  | some values => values.mapM fun cl => (toUIntC (textOf cl)).map UInt32.toUInt16
  | none => some []

/-- The numbers of a fingerprint; behind the first text that is no number nothing is read, and
nothing is kept. -/
def parseFingerprint (fp : JsonObject D) : Option Fingerprint := do
  let endpoint ← toUIntC (textOf (value fp "endpoint"))
  let profileId ← toUIntC (textOf (value fp "profile"))
  let deviceId ← toUIntC (textOf (value fp "device"))
  let inClusters ← clustersOf (value fp "in")
  let outClusters ← clustersOf (value fp "out")
  return { endpoint := endpoint.toUInt8, profileId := profileId.toUInt16,
           deviceId := deviceId.toUInt16, inClusters, outClusters }

/-- `DeviceDescription::SubDevice` -/
structure SubDevice (D : Type) where
  type : QString := []
  restApi : QString := []
  uniqueId : List QString := []
  metaData : JsonObject D := []
  items : List (Item D) := []
  fingerPrint : Fingerprint := {}
  buttonEvents : List Nat := []

/-- `DeviceDescription::SubDevice::isValid` -/
def SubDevice.isValid (sub : SubDevice D) : Bool :=
  sub.type ≠ [] && sub.restApi ≠ [] && sub.uniqueId ≠ [] && !sub.items.isEmpty

/-- The numbers among the keys of `buttonevents`, each once -/
def buttonEventsOf (members : JsonObject D) : List Nat :=
  members.foldl (fun events e =>
    match QString.toUInt e.1 with
    | some n => if n ∈ events then events else events ++ [n]
    | none => events) []

/-- `DDF_ParseSubDevice` -/
def parseSubDevice (obj : JsonObject D) : SubDevice D :=
  let type := textOf (value obj "type")
  let restApi := textOf (value obj "restapi")
  if type = [] then {}
  else if restApi = [] then { type }
  else
    { type, restApi
      metaData := (objectOf? (value obj "meta")).getD []
      uniqueId := ((arrayOf? (value obj "uuid")).getD []).map textOf
      fingerPrint := ((objectOf? (value obj "fingerprint")).bind parseFingerprint).getD {}
      buttonEvents := ((objectOf? (value obj "buttonevents")).map buttonEventsOf).getD []
      items := ((objectsOf ((arrayOf? (value obj "items")).getD [])).map
        (parseItem env)).filter Item.isValid }

/-! ## Bindings -/

/-- `DDF_ZclReport` -/
structure ZclReport where
  reportableChange : UInt32 := 0
  attributeId : UInt16 := 0
  minInterval : UInt16 := 0
  maxInterval : UInt16 := 0
  manufacturerCode : UInt16 := 0
  dataType : UInt8 := 0
  valid : Bool := false
deriving DecidableEq, Repr

/-- A number of an object between 0 and a greatest one -/
def boundedInt (greatest : Int) (v : QVariant D) : Option Nat :=
  let n := intOf env (-1) v
  if n < 0 ∨ greatest < n then none else some n.toNat

/-- `DDF_ParseZclReport`; `none` is the report that is not valid. -/
def parseZclReport (obj : JsonObject D) : Option ZclReport :=
  if contains obj "at" && contains obj "dt" && contains obj "min" && contains obj "max" then do
    let attributeId ← toUShortC (textOf (value obj "at"))
    let dataType ← (toUShortC (textOf (value obj "dt"))).filter fun dt => dt ≤ 0xFF
    let minInterval ← boundedInt env 65535 (value obj "min")
    let maxInterval ← boundedInt env 65535 (value obj "max")
    let reportableChange ←
      if contains obj "change" then toUIntC (textOf (value obj "change")) else some 0
    let manufacturerCode ←
      if contains obj "mf" then toUShortC (textOf (value obj "mf")) else some 0
    return { reportableChange, attributeId, minInterval := .ofNat minInterval,
             maxInterval := .ofNat maxInterval, manufacturerCode,
             dataType := dataType.toUInt8, valid := true }
  else
    none

/-- `DDF_Binding` -/
structure Binding where
  clusterId : UInt16 := 0
  srcEndpoint : UInt8 := 0
  dstEndpoint : UInt8 := 0
  configGroup : UInt8 := 0
  isGroupBinding : Bool := false
  isUnicastBinding : Bool := false
  reporting : List ZclReport := []
deriving DecidableEq, Repr

/-- `isValid` of a binding -/
def Binding.isValid (bnd : Binding) : Bool :=
  (bnd.isUnicastBinding || bnd.isGroupBinding) && bnd.srcEndpoint ≠ 0

/-- The kind of a binding: whether it is one to a group -/
def bindingKind (v : QVariant D) : Option Bool :=
  if textOf v = ofLatin1 "unicast" then some false
  else if textOf v = ofLatin1 "groupcast" then some true
  else none

/-- `DDF_ParseBinding`; `none` is the binding that is not valid. -/
def parseBinding (obj : JsonObject D) : Option Binding :=
  if contains obj "bind" && contains obj "src.ep" && contains obj "cl" then do
    let isGroup ← bindingKind (value obj "bind")
    let srcEndpoint ← boundedInt env 255 (value obj "src.ep")
    let clusterId ← toUShortC (textOf (value obj "cl"))
    let dstEndpoint ←
      if contains obj "dst.ep" then boundedInt env 254 (value obj "dst.ep") else some 0
    let configGroup ←
      if isGroup && contains obj "config.group" then
        boundedInt env 254 (value obj "config.group")
      else some 0
    return { clusterId, srcEndpoint := .ofNat srcEndpoint, dstEndpoint := .ofNat dstEndpoint
             configGroup := .ofNat configGroup, isGroupBinding := isGroup
             isUnicastBinding := !isGroup
             reporting := (objectsOf ((arrayOf? (value obj "report")).getD [])).filterMap
               (parseZclReport env) }
  else
    none

/-- `DeviceDescription`, as far as an object says it -/
structure DeviceDescription (D : Type) where
  modelIds : List QString := []
  manufacturerNames : List QString := []
  vendor : QString := []
  product : QString := []
  status : QString := []
  matchExpr : QString := []
  sleeper : Int := -1
  supportsMgmtBind : Int := -1
  subDevices : List (SubDevice D) := []
  bindings : List Binding := []

/-- `DeviceDescription::isValid` -/
def DeviceDescription.isValid (d : DeviceDescription D) : Bool :=
  !d.manufacturerNames.isEmpty && !d.modelIds.isEmpty && !d.subDevices.isEmpty

/-- `DDF_ParseStringOrList` -/
def parseStringOrList (v : QVariant D) : List QString :=
  match v with
  | .string s => [s]
  | .list values => values.filterMap fun
      | .string s => some s
      | _ => none
  | _ => []

def settingOf (obj : JsonObject D) (key : String) : Int :=
  if contains obj key then (if boolOf (value obj key) then 1 else 0) else -1

/-- `DDF_ParseDeviceObject` -/
def parseDeviceObject (obj : JsonObject D) : DeviceDescription D :=
  if textOf (value obj "schema") ≠ ofLatin1 "devcap1.schema.json" then {}
  else
    match arrayOf? (value obj "subdevices") with
    | none => {}
    | some subDevices =>
      { manufacturerNames := parseStringOrList (value obj "manufacturername")
        modelIds := parseStringOrList (value obj "modelid")
        product := textOf (value obj "product")
        status := textOf (value obj "status")
        vendor := textOf (value obj "vendor")
        sleeper := settingOf obj "sleeper"
        supportsMgmtBind := settingOf obj "supportsMgmtBind"
        matchExpr := textOf (value obj "matchexpr")
        subDevices := ((objectsOf subDevices).map (parseSubDevice env)).filter
          SubDevice.isValid
        bindings := ((objectsOf ((arrayOf? (value obj "bindings")).getD [])).filterMap
          (parseBinding env)).filter Binding.isValid }

end DeviceObject
end DeconzRest

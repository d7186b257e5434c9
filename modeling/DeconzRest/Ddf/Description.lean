import Mathlib.Data.List.Basic

/-!
# Device descriptions

A device description (DDF) tells for a kind of device which sub-devices and items it has and how the
items are read, written and parsed.  What its file leaves out is merged in from the generic items.

A `QVariant` is kept as its text, `none` being the null variant; a SHA-256 hash is the list of its
bytes.
-/

namespace DeconzRest
namespace Ddf

abbrev Variant := Option String

/-- `ResourceItemDescriptor::Access` -/
inductive Access where
  | unknown
  | readWrite
  | readOnly
deriving DecidableEq, Repr

/-- The storage locations of descriptions: raw JSON and bundles, of the system and of the user -/
inductive StorageLocation where
  | ddfLocation
  | ddfUserLocation
  | ddfBundleLocation
  | ddfBundleUserLocation
deriving DecidableEq, Repr

/-- `DeviceDescription::Item::InvalidItemHandle` -/
def invalidItemHandle : UInt32 := 0

/-- `DeviceDescription::Item::NoRefreshInterval` -/
def noRefreshInterval : Int := -1

/-- `DeviceDescription::Item`; `suffix` and `access` are fields of its descriptor. -/
structure Item where
  handle : UInt32 := invalidItemHandle
  name : String := ""
  suffix : String := ""
  access : Access := .unknown
  isGenericRead : Bool := false
  isGenericWrite : Bool := false
  isGenericParse : Bool := false
  isPublic : Bool := false
  isStatic : Bool := false
  isImplicit : Bool := false
  isManaged : Bool := false
  hasIsPublic : Bool := false
  refreshInterval : Int := noRefreshInterval
  parseParameters : Variant := none
  readParameters : Variant := none
  writeParameters : Variant := none
  defaultValue : Variant := none
deriving DecidableEq, Repr

/-- `DeviceDescription::SubDevice` -/
structure SubDevice where
  items : List Item := []
deriving DecidableEq, Repr

structure DeviceDescription where
  sha256Hash : List UInt8 := List.replicate 32 0
  lastModified : Int := 0
  signedBy : BitVec 64 := 0
  modelIds : List String := []
  manufacturerNames : List String := []
  modelidAtomIndices : List Nat := []
  mfnameAtomIndices : List Nat := []
  storageLocation : Option StorageLocation := none
  path : String := ""
  status : String := ""
  matchExpr : String := ""
  handle : Int := -1
  subDevices : List SubDevice := []
deriving DecidableEq, Repr

namespace DeviceDescription

/-- `DeviceDescription::isValid` -/
def isValid (ddf : DeviceDescription) : Bool :=
  !ddf.manufacturerNames.isEmpty && !ddf.modelIds.isEmpty && !ddf.subDevices.isEmpty

def itemAt (ddf : DeviceDescription) (subDevice item : Nat) : Option Item :=
  (ddf.subDevices[subDevice]?).bind fun sub => sub.items[item]?

def mapItems (f : Item → Item) (ddf : DeviceDescription) : DeviceDescription :=
  { ddf with subDevices := ddf.subDevices.map fun sub => { sub with items := sub.items.map f } }

@[simp] theorem mapItems_handle (f : Item → Item) (ddf : DeviceDescription) :
    (ddf.mapItems f).handle = ddf.handle := rfl

@[simp] theorem mapItems_isValid (f : Item → Item) (ddf : DeviceDescription) :
    (ddf.mapItems f).isValid = ddf.isValid := by
  simp only [mapItems, isValid, List.isEmpty_map]

@[simp] theorem mapItems_itemAt (f : Item → Item) (ddf : DeviceDescription)
    (subDevice item : Nat) :
    (ddf.mapItems f).itemAt subDevice item = (ddf.itemAt subDevice item).map f := by
  unfold mapItems itemAt
  simp only [List.getElem?_map]
  cases ddf.subDevices[subDevice]? with
  | none => rfl
  | some sub => simp only [Option.map_some, Option.bind_some, List.getElem?_map]

/-- The atoms of the names are registered for faster lookups; `atomOf` gives the atom of a name once
its constant is resolved, 0 when it cannot be added. -/
def registerAtoms (atomOf : String → Nat) (ddf : DeviceDescription) : DeviceDescription :=
  { ddf with
    mfnameAtomIndices :=
      ddf.mfnameAtomIndices ++ (ddf.manufacturerNames.map atomOf).filter (· ≠ 0)
    modelidAtomIndices := ddf.modelidAtomIndices ++ (ddf.modelIds.map atomOf).filter (· ≠ 0) }

end DeviceDescription

/-- The merge of the generic items into one item.  What is not static takes the parameters that it
has not got from the generic item; `resolve` loads the scripts they name, which only the merge of a
bundle does here. -/
def mergeGenericItem (genericItems : List Item) (resolve : Variant → Variant) (item : Item) :
    Item :=
  match genericItems.find? fun i => i.suffix == item.suffix with
  | none => item
  | some genItem =>
    let item :=
      { item with
        isImplicit := genItem.isImplicit
        isManaged := genItem.isManaged
        isGenericRead := false
        isGenericWrite := false
        isGenericParse := false }
    let item :=
      if item.isStatic then item
      else
        { item with
          readParameters := resolve (item.readParameters.or genItem.readParameters)
          isGenericRead := item.readParameters.isNone
          writeParameters := resolve (item.writeParameters.or genItem.writeParameters)
          isGenericWrite := item.writeParameters.isNone
          parseParameters := resolve (item.parseParameters.or genItem.parseParameters)
          isGenericParse := item.parseParameters.isNone
          refreshInterval :=
            if item.refreshInterval = noRefreshInterval ∧ genItem.refreshInterval ≠
                item.refreshInterval then
              genItem.refreshInterval
            else item.refreshInterval }
    { item with
      access := if item.access = .unknown then genItem.access else item.access
      isPublic := if item.hasIsPublic then item.isPublic else genItem.isPublic
      defaultValue := item.defaultValue.or genItem.defaultValue }

@[simp] theorem mergeGenericItem_handle (genericItems : List Item) (resolve : Variant → Variant)
    (item : Item) : (mergeGenericItem genericItems resolve item).handle = item.handle := by
  unfold mergeGenericItem
  split
  · rfl
  · simp only
    split <;> rfl

/-- `DDF_MergeGenericItems` -/
def mergeGenericItems (genericItems : List Item) (ddf : DeviceDescription) : DeviceDescription :=
  ddf.mapItems (mergeGenericItem genericItems id)

/-- `DDF_MergeGenericBundleItems`, with the generic items of the bundle -/
def mergeGenericBundleItems (genericItems : List Item) (resolve : Variant → Variant)
    (ddf : DeviceDescription) : DeviceDescription :=
  ddf.mapItems (mergeGenericItem genericItems resolve)

/-- `DDF_LoadScripts`; `resolve` is `DDF_ResolveParamScript`. -/
def loadScripts (resolve : String → Variant → Variant) (ddf : DeviceDescription) :
    DeviceDescription :=
  ddf.mapItems fun item =>
    { item with
      parseParameters := resolve ddf.path item.parseParameters
      readParameters := resolve ddf.path item.readParameters
      writeParameters := resolve ddf.path item.writeParameters }

end Ddf
end DeconzRest

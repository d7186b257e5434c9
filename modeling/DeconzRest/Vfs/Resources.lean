import Mathlib.Data.List.Basic

/-!
# Devices as the virtual file system sees them

The actor of the plugin shows the devices, their sub-devices and their items as a file system.
This module has what it reads of them, and the parsed URL of a request.
-/

namespace DeconzRest
namespace Vfs

/-- `ApiDataType` -/
inductive ApiDataType where
  | unknown | bool | uint8 | uint16 | uint32 | uint64 | int8 | int16 | int32 | int64 | real
  | string | time | timePattern
deriving DecidableEq, Repr

/-- What is read of a `ResourceItem` and its descriptor; the suffix and what `toCString` points at
are octets without a zero. -/
structure Item where
  suffix : List UInt8
  type : ApiDataType
  num : Int64
  cString : List UInt8
  atomIndex : Nat
  /-- `lastSet`, in milliseconds since the epoch -/
  lastSet : Option Int
deriving DecidableEq, Repr

/-- A `Resource`, as its items in the order of `itemForIndex` -/
abbrev Resource := List Item

/-- What is read of a `Device` -/
structure Device where
  key : UInt64
  items : Resource
  subDevices : List Resource
deriving DecidableEq, Repr

def octets (s : String) : List UInt8 := s.toList.map fun c => UInt8.ofNat c.toNat

/-- `/` -/
def slash : UInt8 := 0x2f

/-- `Resource::item` -/
def item (r : Resource) (suffix : List UInt8) : Option Item := r.find? fun i => i.suffix == suffix

/-- `item(RAttrUniqueId)` -/
def uniqueIdItem (r : Resource) : Option Item := item r (octets "attr/uniqueid")

/-- `am_url_parse`: the path elements of a URL, which are separated by slashes. -/
structure UrlParse where
  elements : List (List UInt8)
deriving DecidableEq, Repr

namespace UrlParse

/-- `AM_UrlElementAt`; empty for an index past the last element. -/
def elementAt (url : UrlParse) (i : Nat) : List UInt8 := url.elements.getD i []

def elementCount (url : UrlParse) : Nat := url.elements.length

def textFrom (url : UrlParse) (i : Nat) : List UInt8 := [slash].intercalate (url.elements.drop i)

def text (url : UrlParse) : List UInt8 := url.textFrom 0

end UrlParse

/-- What the plugin takes from the application: `U_sstream_get_mac_address` (0 where it fails),
`U_sstream_put_mac_address`, `AT_GetAtomIndex` and `VFS_ENTRY_MODE_READONLY`. -/
structure Library where
  macFromUrlString : List UInt8 → UInt64
  macText : UInt64 → List UInt8
  atomIndex : List UInt8 → Option Nat
  vfsEntryModeReadonly : UInt32

/-- `VFS_MAX_URL_LENGTH` -/
def vfsMaxUrlLength : Nat := 256

/-- `DEV_GetDevice` -/
def getDevice (devices : List Device) (mac : UInt64) : Option Device :=
  devices.find? fun device => device.key == mac

/-- `plGetDeviceForMac`; there are no devices while there is no plugin. -/
def getDeviceForMac (devices : Option (List Device)) (mac : UInt64) : Option Device :=
  match devices with
  | some devices => getDevice devices mac
  | none => none

/-- `plGetSubDevice` -/
def getSubDevice (lib : Library) (device : Device) (subUniqueId : List UInt8) : Option Resource :=
  match lib.atomIndex subUniqueId with
  | none => none
  | some index =>
    device.subDevices.find? fun r => (uniqueIdItem r).any fun i => i.atomIndex == index

end Vfs
end DeconzRest

import DeconzRest.Vfs.Listing
import Mathlib.Algebra.Ring.Nat
import Mathlib.Algebra.Ring.Int.Defs

/-!
# Reading an entry

A read request names an item by its URL.  The suffix behind the device or the sub-device is looked
up in the descriptor table, whose first entry that ends the suffix counts, and the item is written
as the type of the entry says.
-/

namespace DeconzRest
namespace Vfs

/-! ## Values -/

/-- An argument of the `msg_put` functions of the message, with its width -/
inductive AmValue where
  | u (bits n : Nat)
  | s (bits : Nat) (n : Int)
  | cstring (text : List UInt8)
deriving DecidableEq, Repr

def castU (bits : Nat) (num : Int64) : AmValue := .u bits (num.toInt % 2 ^ bits).toNat

def castS (bits : Nat) (num : Int64) : AmValue := .s bits (Int.bmod num.toInt (2 ^ bits))

/-- The type name and the value that are written; the branch for 64 bit integers asks for the
unsigned type once more. -/
def encode (type : ApiDataType) (item : Item) : Option (List UInt8 × AmValue) :=
  if type = .bool then some (octets "bool", .u 8 (if item.num ≠ 0 then 1 else 0))
  else if type = .uint8 then some (octets "u8", castU 8 item.num)
  else if type = .uint16 then some (octets "u16", castU 16 item.num)
  else if type = .uint32 then some (octets "u32", castU 32 item.num)
  else if type = .uint64 then some (octets "u64", castU 64 item.num)
  else if type = .int8 then some (octets "i8", castS 8 item.num)
  else if type = .int16 then some (octets "i16", castS 16 item.num)
  else if type = .int32 then some (octets "i32", castS 32 item.num)
  else if type = .uint64 then some (octets "i64", .s 64 item.num.toInt)
  else if type = .time then some (octets "time", .s 64 item.num.toInt)
  else if type = .string then some (octets "str", .cstring item.cString)
  else none

inductive Value where
  | bool (b : Bool)
  | num (n : Int)
  | text (s : List UInt8)
deriving DecidableEq, Repr

/-- The current value of an item; unsigned 64 bit numbers are kept in a signed one. -/
def Item.value (item : Item) : Value :=
  match item.type with
  | .bool => .bool (decide (item.num ≠ 0))
  | .string => .text item.cString
  | .timePattern => .text item.cString
  | .uint64 => .num (item.num.toInt % 2 ^ 64)
  | _ => .num item.num.toInt

/-- What a reader makes of a type name and a value -/
def decode (typeName : List UInt8) : AmValue → Option Value
  | .u bits n =>
    if typeName = octets "bool" ∧ bits = 8 then some (.bool (n != 0))
    else if (typeName = octets "u8" ∧ bits = 8) ∨ (typeName = octets "u16" ∧ bits = 16) ∨
        (typeName = octets "u32" ∧ bits = 32) ∨ (typeName = octets "u64" ∧ bits = 64) then
      some (.num n)
    else none
  | .s bits n =>
    if (typeName = octets "i8" ∧ bits = 8) ∨ (typeName = octets "i16" ∧ bits = 16) ∨
        (typeName = octets "i32" ∧ bits = 32) ∨ (typeName = octets "i64" ∧ bits = 64) ∨
        (typeName = octets "time" ∧ bits = 64) then
      some (.num n)
    else none
  | .cstring text => if typeName = octets "str" then some (.text text) else none

def ApiDataType.written : ApiDataType → Bool
  | .int64 | .real | .timePattern | .unknown => false
  | _ => true

def Item.Fits (item : Item) : Prop :=
  match item.type with
  | .uint8 => 0 ≤ item.num.toInt ∧ item.num.toInt < 2 ^ 8
  | .uint16 => 0 ≤ item.num.toInt ∧ item.num.toInt < 2 ^ 16
  | .uint32 => 0 ≤ item.num.toInt ∧ item.num.toInt < 2 ^ 32
  | .int8 => -2 ^ 7 ≤ item.num.toInt ∧ item.num.toInt < 2 ^ 7
  | .int16 => -2 ^ 15 ≤ item.num.toInt ∧ item.num.toInt < 2 ^ 15
  | .int32 => -2 ^ 31 ≤ item.num.toInt ∧ item.num.toInt < 2 ^ 31
  | _ => True

theorem decode_castU {typeName : List UInt8} {bits : Nat} {num : Int64}
    (hbool : typeName ≠ octets "bool")
    (hname : (typeName = octets "u8" ∧ bits = 8) ∨ (typeName = octets "u16" ∧ bits = 16) ∨
      (typeName = octets "u32" ∧ bits = 32) ∨ (typeName = octets "u64" ∧ bits = 64)) :
    decode typeName (castU bits num) = some (.num (num.toInt % 2 ^ bits)) := by
  have hpos : (0 : Int) < 2 ^ bits := Int.pow_pos (by omega)
  have hnonneg := Int.emod_nonneg num.toInt (Int.ne_of_gt hpos)
  simp only [castU, decode]
  rw [if_neg fun hboth => hbool hboth.1, if_pos hname, Int.toNat_of_nonneg hnonneg]

theorem decode_castS {typeName : List UInt8} {bits : Nat} {num : Int64}
    (hname : (typeName = octets "i8" ∧ bits = 8) ∨ (typeName = octets "i16" ∧ bits = 16) ∨
      (typeName = octets "i32" ∧ bits = 32) ∨ (typeName = octets "i64" ∧ bits = 64) ∨
      (typeName = octets "time" ∧ bits = 64)) :
    decode typeName (castS bits num) = some (.num (Int.bmod num.toInt (2 ^ bits))) := by
  simp only [castS, decode]
  rw [if_pos hname]

/-- **What is written can be read again**: it is the value of the item. -/
theorem encode_decodes {item : Item} (hwritten : item.type.written = true) (hfits : item.Fits) :
    ∃ typeName value, encode item.type item = some (typeName, value) ∧ decode typeName value =
      some item.value := by
  unfold Item.Fits at hfits
  unfold Item.value
  cases htype : item.type with
  | unknown | int64 | real | timePattern => simp [htype, ApiDataType.written] at hwritten
  | bool =>
    refine ⟨_, _, rfl, ?_⟩
    by_cases hzero : item.num = 0
    · simp [decode, hzero]
    · simp [decode, hzero]
  | string =>
    refine ⟨_, _, rfl, ?_⟩
    simp [decode]
  | time =>
    refine ⟨_, _, rfl, ?_⟩
    simp [decode]
  | uint64 =>
    refine ⟨_, _, rfl, ?_⟩
    exact decode_castU (by decide) (by simp)
  | uint8 =>
    rw [htype] at hfits
    refine ⟨_, _, rfl, ?_⟩
    rw [decode_castU (by decide) (by simp)]
    congr 2
    omega
  | uint16 =>
    rw [htype] at hfits
    refine ⟨_, _, rfl, ?_⟩
    rw [decode_castU (by decide) (by simp)]
    congr 2
    omega
  | uint32 =>
    rw [htype] at hfits
    refine ⟨_, _, rfl, ?_⟩
    rw [decode_castU (by decide) (by simp)]
    congr 2
    omega
  | int8 =>
    rw [htype] at hfits
    refine ⟨_, _, rfl, ?_⟩
    rw [decode_castS (by simp)]
    congr 2
    rw [Int.bmod_def]
    omega
  | int16 =>
    rw [htype] at hfits
    refine ⟨_, _, rfl, ?_⟩
    rw [decode_castS (by simp)]
    congr 2
    rw [Int.bmod_def]
    omega
  | int32 =>
    rw [htype] at hfits
    refine ⟨_, _, rfl, ?_⟩
    rw [decode_castS (by simp)]
    congr 2
    rw [Int.bmod_def]
    omega

/-- A `ResourceItemDescriptor` of the table -/
structure Descriptor where
  suffix : List UInt8
  type : ApiDataType
deriving DecidableEq, Repr

/-- `getResourceItemDescriptor` -/
def getResourceItemDescriptor (table : List Descriptor) (str : List UInt8) : Option Descriptor :=
  table.find? fun rid => rid.suffix.isSuffixOf str

/-- What is sent for a read request, or that an assertion does not hold -/
inductive ReadEntryRsp where
  | notFound
  | assertionFailed
  | entry (typeName : List UInt8) (mode : UInt32) (mtime : Int) (value : AmValue)
deriving DecidableEq, Repr

/-- The part of `PL_ReadEntryDevicesReq` behind the resource: the suffix is everything from an
element on. -/
def readItem (table : List Descriptor) (r : Resource) (url : UrlParse) (suffixAt : Nat) :
    ReadEntryRsp :=
  if url.elementAt suffixAt = [] then .assertionFailed
  else
    let suffix := url.textFrom suffixAt
    if suffix.length ≤ 1 then .assertionFailed
    else
      match getResourceItemDescriptor table suffix with
      | none => .notFound
      | some rid =>
        match item r rid.suffix with
        | none => .notFound
        | some i =>
          match encode rid.type i with
          | none => .notFound -- nothing was put into the message
          | some (typeName, value) => .entry typeName 0 (i.lastSet.getD 0) value

/-- `PL_ReadEntryDevicesReq` -/
def readEntryDevices (lib : Library) (table : List Descriptor) (devices : Option (List Device))
    (url : UrlParse) : ReadEntryRsp :=
  if 3 < url.elementCount then
    let mac := lib.macFromUrlString (url.elementAt 1)
    if mac = 0 then .notFound
    else
      match getDeviceForMac devices mac with
      | none => .notFound
      | some device =>
        if url.elementAt 2 = octets "subdevices" then
          -- devices/<mac>/subdevices/<subdevice-uniqueid>/<item-suffix>
          if 4 ≤ url.elementCount then
            match getSubDevice lib device (url.elementAt 3) with
            | none => .notFound
            | some r => readItem table r url 4
          else readItem table device.items url 2
        else readItem table device.items url 2
  else .notFound

/-- `PL_ReadEntryReq` -/
def readEntry (lib : Library) (table : List Descriptor) (devices : Option (List Device))
    (url : UrlParse) : ReadEntryRsp :=
  if url.elementCount = 1 then .notFound
  else if 2 ≤ url.elementCount then
    if url.elementAt 0 = octets "devices" then readEntryDevices lib table devices url
    else if url.elementAt 0 = octets ".actor" ∧ url.elementAt 1 = octets "name" then
      .entry (octets "str") lib.vfsEntryModeReadonly 0 (.cstring (octets "rest_plugin"))
    else .notFound
  else .notFound

/-! ## The items that are named -/

section Named

variable (lib : Library) (devices : Option (List Device)) (url : UrlParse)

/-- The URL is one of a device with more elements, or of a sub-device: the resource, and where the
suffix of the item begins. -/
inductive ResourceAt : Resource → Nat → Prop where
  | device {device : Device} (h : OfDevice lib devices url device) (hcount : 3 < url.elementCount)
      (hdir : url.elementAt 2 ≠ octets "subdevices") : ResourceAt device.items 2
  | subDevice {device : Device} {sub : Resource} (h : OfDevice lib devices url device)
      (hcount : 3 < url.elementCount) (hdir : url.elementAt 2 = octets "subdevices")
      (hsub : getSubDevice lib device (url.elementAt 3) = some sub) : ResourceAt sub 4

/-- A suffix that is not empty in front, and not a single character -/
def SuffixAt (suffixAt : Nat) : Prop :=
  url.elementAt suffixAt ≠ [] ∧ 1 < (url.textFrom suffixAt).length

/-- An item that is found by its own suffix and written as it is: the first descriptor that ends
the suffix is its own, its type has a branch and its number is one of the type. -/
structure Readable (table : List Descriptor) (item : Item) : Prop where
  own : getResourceItemDescriptor table item.suffix =
    some { suffix := item.suffix, type := item.type }
  written : item.type.written = true
  fits : item.Fits

end Named

section Read

variable {lib : Library} {table : List Descriptor} {devices : Option (List Device)} {url : UrlParse}

theorem readEntry_resourceAt {r : Resource} {suffixAt : Nat}
    (h : ResourceAt lib devices url r suffixAt) :
    readEntry lib table devices url = readItem table r url suffixAt := by
  cases h with
  | device h hcount hdir =>
    have hone : ¬ url.elementCount = 1 := by omega
    have htwo : 2 ≤ url.elementCount := by omega
    unfold readEntry readEntryDevices
    simp only [if_neg hone, if_pos htwo, h.devicesDir, if_true, if_pos hcount, h.mac, if_neg h.key,
      h.found, if_neg hdir]
  | subDevice h hcount hdir hsub =>
    have hone : ¬ url.elementCount = 1 := by omega
    have htwo : 2 ≤ url.elementCount := by omega
    have hfour : 4 ≤ url.elementCount := by omega
    unfold readEntry readEntryDevices
    simp only [if_neg hone, if_pos htwo, h.devicesDir, if_true, if_pos hcount, h.mac, if_neg h.key,
      h.found, hdir, if_pos hfour, hsub]

theorem readEntry_cases
    (hactor : ¬ (url.elementAt 0 = octets ".actor" ∧ url.elementAt 1 = octets "name")) :
    readEntry lib table devices url = .notFound ∨
      ∃ r suffixAt, ResourceAt lib devices url r suffixAt := by
  unfold readEntry
  split
  · exact .inl rfl
  · split
    · split
      · rename_i hdevices
        unfold readEntryDevices
        split
        · rename_i hcount
          simp only
          split
          · exact .inl rfl
          · rename_i hkey
            split
            · exact .inl rfl
            · rename_i device hfound
              have hdevice : device.key = lib.macFromUrlString (url.elementAt 1) := by
                cases devices with
                | none => cases hfound
                | some devs => simpa using List.find?_some hfound
              have hof : OfDevice lib devices url device :=
                { devicesDir := hdevices
                  mac := hdevice.symm
                  key := hdevice ▸ hkey
                  found := hdevice ▸ hfound }
              split
              · rename_i hdir
                rw [if_pos (by omega)]
                split
                · exact .inl rfl
                · rename_i sub hsub
                  exact .inr ⟨sub, 4, .subDevice hof hcount hdir hsub⟩
              · rename_i hdir
                exact .inr ⟨device.items, 2, .device hof hcount hdir⟩
        · exact .inl rfl
      · exact .inl rfl
    · exact .inl rfl

theorem item_suffix {r : Resource} {suffix : List UInt8} {i : Item} (h : item r suffix = some i) :
    i.suffix = suffix := by
  simpa using List.find?_some h

/-- **Read requests agree with the items.**  A URL that names an item which can be read is answered
with a type name and a value that are read as the value of the item.  A URL that names no item is
not found, unless it is the one of the name of the actor or only the end of it names one. -/
theorem read_entry_correct (lib : Library) (table : List Descriptor)
    (devices : Option (List Device)) (url : UrlParse) :
    (∀ r suffixAt i, ResourceAt lib devices url r suffixAt → SuffixAt url suffixAt →
      item r (url.textFrom suffixAt) = some i → Readable table i →
        ∃ typeName mtime value, readEntry lib table devices url = .entry typeName 0 mtime value ∧
          decode typeName value = some i.value) ∧
    (¬ (url.elementAt 0 = octets ".actor" ∧ url.elementAt 1 = octets "name") →
      (∀ r suffixAt, ResourceAt lib devices url r suffixAt → SuffixAt url suffixAt ∧
        item r (url.textFrom suffixAt) = none ∧ ∀ rid ∈
          table, rid.suffix <:+ url.textFrom suffixAt → rid.suffix = url.textFrom suffixAt) →
      readEntry lib table devices url = .notFound) := by
  refine ⟨fun r suffixAt i hresource hsuffix hitem hreadable => ?_, fun hactor hnone => ?_⟩
  · obtain ⟨typeName, value, hencode, hdecode⟩ := encode_decodes hreadable.written hreadable.fits
    have hown := hreadable.own
    rw [item_suffix hitem] at hown
    refine ⟨typeName, i.lastSet.getD 0, value, ?_, hdecode⟩
    have hlong : ¬ (url.textFrom suffixAt).length ≤ 1 := by
      have hlt := hsuffix.2
      omega
    rw [readEntry_resourceAt hresource]
    unfold readItem
    simp only [if_neg hsuffix.1, if_neg hlong, hown, hitem, hencode]
  · have hcases : readEntry lib table devices url = .notFound ∨
        ∃ r suffixAt, ResourceAt lib devices url r suffixAt := readEntry_cases hactor
    obtain hnotFound | ⟨r, suffixAt, hresource⟩ := hcases
    · exact hnotFound
    · obtain ⟨hsuffix, hitem, hloose⟩ := hnone r suffixAt hresource
      have hlong : ¬ (url.textFrom suffixAt).length ≤ 1 := by
        have hlt := hsuffix.2
        omega
      rw [readEntry_resourceAt hresource]
      unfold readItem
      simp only [if_neg hsuffix.1, if_neg hlong]
      split
      · rfl
      · rename_i rid hrid
        have hends : rid.suffix <:+ url.textFrom suffixAt :=
          List.isSuffixOf_iff_suffix.mp (by simpa using List.find?_some hrid)
        rw [hloose rid (List.mem_of_find?_eq_some hrid) hends, hitem]

end Read

def sampleTable : List Descriptor :=
  [{ suffix := octets "state/on", type := .bool },
    { suffix := octets "state/energy", type := .int64 }]

def plugOn : Item :=
  { suffix := octets "state/on", type := .bool, num := 1, cString := [], atomIndex := 0
    lastSet := some 1700000000000 }

def samplePlug : List Device :=
  [{ key := 0x00212effff000001
     items :=
       [plugOn,
         { suffix := octets "state/energy", type := .int64, num := 5, cString := [], atomIndex := 0
           lastSet := none }]
     subDevices := [[{ itemOf "attr/uniqueid" "00:21:2e:ff:ff:00:00:01-01" with atomIndex := 7 }]] }]

def plugLibrary : Library :=
  { sampleLibrary with
    atomIndex := fun text => if text = octets "00:21:2e:ff:ff:00:00:01-01" then some 7 else none }

def plugUrl (elements : List String) : UrlParse :=
  { elements := ["devices", "00:21:2e:ff:ff:00:00:01"].map octets ++ elements.map octets }

theorem read_entry_correct_plug :
    (∃ typeName mtime value,
      readEntry plugLibrary sampleTable (some samplePlug) (plugUrl ["state", "on"]) =
          .entry typeName 0 mtime value ∧
        decode typeName value = some (.bool true)) ∧
    readEntry plugLibrary sampleTable (some samplePlug)
      { elements := ["devices", "00:21:2e:ff:ff:00:00:02", "state", "on"].map octets } =
        .notFound := by
  have hof : OfDevice plugLibrary (some samplePlug) (plugUrl ["state", "on"])
      (samplePlug.head (by decide)) :=
    { devicesDir := rfl
      mac := by decide +kernel
      key := by decide +kernel
      found := by decide +kernel }
  constructor
  · have hresource : ResourceAt plugLibrary (some samplePlug) (plugUrl ["state", "on"])
        (samplePlug.head (by decide)).items 2 :=
      .device hof (by decide) (by decide)
    have hreadable : Readable sampleTable plugOn :=
      { own := by decide +kernel
        written := rfl
        fits := trivial }
    exact (read_entry_correct plugLibrary sampleTable (some samplePlug) _).1 _ _ plugOn hresource
      ⟨by decide, by decide⟩ (by decide +kernel) hreadable
  · refine (read_entry_correct plugLibrary sampleTable (some samplePlug) _).2 (by decide) ?_
    intro r suffixAt hresource
    -- there is no device with this address
    have hnone : ∀ device, ¬ OfDevice plugLibrary (some samplePlug)
        { elements := ["devices", "00:21:2e:ff:ff:00:00:02", "state", "on"].map octets } device := by
      intro device h
      have hmac : plugLibrary.macFromUrlString (octets "00:21:2e:ff:ff:00:00:02") =
          0x00212effff000002 := by decide +kernel
      have hfound := h.found
      rw [← h.mac] at hfound
      change getDeviceForMac (some samplePlug)
        (plugLibrary.macFromUrlString (octets "00:21:2e:ff:ff:00:00:02")) = some device at hfound
      rw [hmac] at hfound
      cases hfound
    cases hresource with
    | device h hcount hdir => exact absurd h (hnone _)
    | subDevice h hcount hdir hsub => exact absurd h (hnone _)

/-- The actor answers for its name, a 64 bit integer is not found, an assertion fails for the
directory of a sub-device, and a URL that only ends like that of an item is answered. -/
theorem read_entry_differs :
    readEntry plugLibrary sampleTable (some samplePlug)
        { elements := [octets ".actor", octets "name"] } =
      .entry (octets "str") 0 0 (.cstring (octets "rest_plugin")) ∧
    readEntry plugLibrary sampleTable (some samplePlug) (plugUrl ["state", "energy"]) = .notFound ∧
    readEntry plugLibrary sampleTable (some samplePlug)
        (plugUrl ["subdevices", "00:21:2e:ff:ff:00:00:01-01"]) = .assertionFailed ∧
    readEntry plugLibrary sampleTable (some samplePlug) (plugUrl ["any", "state", "on"]) =
      .entry (octets "bool") 0 1700000000000 (.u 8 1) := by
  decide +kernel

end Vfs
end DeconzRest

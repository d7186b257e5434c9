import Mathlib.Algebra.Ring.Nat
import DeconzRest.Ddf.Description
import DeconzRest.Lib.Transition

/-!
# Handles of description items

A resource item refers to its item in the table of descriptions by a 32-bit handle, which packs the
load counter, the index of the description, of the sub-device and of the item.  The handles of a
description are set when it is appended to the table or put back into it.
-/

namespace DeconzRest
namespace Ddf

open List

/-- `HND_MIN_LOAD_COUNTER`, `HND_MAX_LOAD_COUNTER`, `HND_MAX_DESCRIPTIONS`, `HND_MAX_ITEMS` and
`HND_MAX_SUB_DEVS` -/
def minLoadCounter : Nat := 1
def maxLoadCounter : Nat := 15
def maxDescriptions : Nat := 16383
def maxItems : Nat := 1023
def maxSubDevs : Nat := 15

/-- `ItemHandlePack`; the first field takes the lowest bits. -/
structure ItemHandlePack where
  loadCounter : BitVec 4
  description : BitVec 14
  subDevice : BitVec 4
  item : BitVec 10
deriving DecidableEq, Repr

namespace ItemHandlePack

def toNat (h : ItemHandlePack) : Nat :=
  h.loadCounter.toNat + 16 * h.description.toNat + 262144 * h.subDevice.toNat +
    4194304 * h.item.toNat

def handle (h : ItemHandlePack) : UInt32 := UInt32.ofNat h.toNat

def ofHandle (handle : UInt32) : ItemHandlePack where
  loadCounter := BitVec.ofNat 4 handle.toNat
  description := BitVec.ofNat 14 (handle.toNat / 16)
  subDevice := BitVec.ofNat 4 (handle.toNat / 262144)
  item := BitVec.ofNat 10 (handle.toNat / 4194304)

def ofIndices (loadCounter description subDevice item : Nat) : ItemHandlePack where
  loadCounter := BitVec.ofNat 4 loadCounter
  description := BitVec.ofNat 14 description
  subDevice := BitVec.ofNat 4 subDevice
  item := BitVec.ofNat 10 item

theorem toNat_lt (h : ItemHandlePack) : h.toNat < 4294967296 := by
  have hcounter := h.loadCounter.isLt
  have hdescription := h.description.isLt
  have hsub := h.subDevice.isLt
  have hitem := h.item.isLt
  unfold toNat
  omega

theorem handle_toNat (h : ItemHandlePack) : h.handle.toNat = h.toNat :=
  UInt32.toNat_ofNat_of_lt (toNat_lt h)

@[simp] theorem ofHandle_handle (h : ItemHandlePack) : ofHandle h.handle = h := by
  have hcounter := h.loadCounter.isLt
  have hdescription := h.description.isLt
  have hsub := h.subDevice.isLt
  have hitem := h.item.isLt
  obtain ⟨counter, description, sub, item⟩ := h
  simp only at hcounter hdescription hsub hitem
  unfold ofHandle
  rw [handle_toNat]
  unfold toNat
  simp only [mk.injEq]
  refine ⟨?_, ?_, ?_, ?_⟩ <;> apply BitVec.eq_of_toNat_eq <;> rw [BitVec.toNat_ofNat] <;> omega

theorem handle_ne_invalid {h : ItemHandlePack} (hcounter : 0 < h.loadCounter.toNat) :
    h.handle ≠ invalidItemHandle := by
  intro heq
  have hzero : h.toNat = 0 := by
    rw [← handle_toNat, heq]
    rfl
  unfold toNat at hzero
  omega

end ItemHandlePack

/-! ## The table -/

/-- The part of `DeviceDescriptionsPrivate` that the handles are about -/
structure DescriptionTable where
  loadCounter : Nat := minLoadCounter
  genericItems : List Item := []
  descriptions : List DeviceDescription := []
deriving DecidableEq, Repr

/-- The inner loop of `DDF_UpdateItemHandlesForIndex` -/
def updateItems (handle : ItemHandlePack) : List Item → List Item
  | [] => []
  | item :: items =>
    { item with handle := handle.handle } ::
      updateItems { handle with item := handle.item + 1 } items

/-- The outer loop of `DDF_UpdateItemHandlesForIndex` -/
def updateSubDevices (handle : ItemHandlePack) : List SubDevice → List SubDevice
  | [] => []
  | sub :: subDevices =>
    { sub with items := updateItems { handle with item := 0 } sub.items } ::
      updateSubDevices { handle with subDevice := handle.subDevice + 1 } subDevices

/-- What `DDF_UpdateItemHandlesForIndex` does to the description. -/
def updateHandles (loadCounter index : Nat) (ddf : DeviceDescription) : DeviceDescription :=
  { ddf with
    handle := index
    subDevices := updateSubDevices (.ofIndices loadCounter index 0 0) ddf.subDevices }

/-- `DDF_UpdateItemHandlesForIndex` -/
def updateItemHandlesForIndex (descriptions : List DeviceDescription) (loadCounter index : Nat) :
    List DeviceDescription :=
  if descriptions.length ≤ index then descriptions
  else descriptions.modify index (updateHandles loadCounter index)

def DescriptionTable.append (d : DescriptionTable) (ddf : DeviceDescription) : DescriptionTable :=
  let descriptions := d.descriptions ++ [ddf]
  { d with
    descriptions := updateItemHandlesForIndex descriptions d.loadCounter (descriptions.length - 1) }

/-- A generic item replaces the one with its name. -/
def putGenericItem (result : Item) : List Item → List Item
  | [] => [result]
  | genItem :: genericItems =>
    if genItem.name = result.name then result :: genericItems
    else genItem :: putGenericItem result genericItems

/-- A file that `readAllRawJson` finds: a valid generic item, or a device description with the hash
of the file.  Whether a description is scheduled for loading is decided by the load records. -/
inductive RawFile where
  | genericItem (result : Item)
  | device (location : StorageLocation) (hash : List UInt8) (scheduled : Bool)
      (result : DeviceDescription)

/-- What a call of `readAllRawJson` meets: memory for its context, the files, the atoms and the
scripts. -/
structure RawJson where
  memory : Bool := true
  files : List RawFile
  atomOf : String → Nat
  resolve : String → Variant → Variant

/-- One turn of the loop of `readAllRawJson` -/
def readRawFile (atomOf : String → Nat) (d : DescriptionTable) : RawFile → DescriptionTable
  | .genericItem result =>
    let result :=
      { result with
        isGenericRead := result.readParameters.isSome
        isGenericWrite := result.writeParameters.isSome
        isGenericParse := result.parseParameters.isSome }
    { d with genericItems := putGenericItem result d.genericItems }
  | .device location hash scheduled result =>
    if result.isValid ∧ ¬ d.descriptions.any (fun ddf => ddf.sha256Hash == hash) ∧ scheduled then
      d.append
        ({ result with storageLocation := some location, sha256Hash := hash }.registerAtoms
          atomOf)
    else d

/-- The load counter goes round, and leaves 0 out. -/
def nextLoadCounter (loadCounter : Nat) : Nat :=
  if (loadCounter + 1) % maxLoadCounter ≤ minLoadCounter then minLoadCounter
  else (loadCounter + 1) % maxLoadCounter

/-- `DeviceDescriptions::readAllRawJson` -/
def readAllRawJson (raw : RawJson) (d : DescriptionTable) : DescriptionTable :=
  let d := { d with loadCounter := nextLoadCounter d.loadCounter }
  if raw.memory then
    let d := raw.files.foldl (readRawFile raw.atomOf) d
    { d with
      descriptions := d.descriptions.map fun ddf =>
        loadScripts raw.resolve (mergeGenericItems d.genericItems ddf) }
  else d

/-- A bundle file that `readAllBundles` finds, with what its chunks give -/
structure BundleFile where
  location : StorageLocation
  hash : List UInt8
  scheduled : Bool := true
  ddf : DeviceDescription
  genericItems : List Item
  resolve : Variant → Variant
  lastModified : Int
  signedBy : BitVec 64

/-- One turn of the loop of `readAllBundles` -/
def readBundleFile (atomOf : String → Nat) (d : DescriptionTable) (file : BundleFile) :
    DescriptionTable :=
  if ¬ d.descriptions.any (fun ddf => ddf.sha256Hash == file.hash) ∧ file.scheduled ∧
      file.ddf.isValid then
    let ddf :=
      mergeGenericBundleItems file.genericItems file.resolve
        { file.ddf with
          storageLocation := some file.location
          lastModified := file.lastModified
          signedBy := file.signedBy }
    d.append ({ ddf with sha256Hash := file.hash }.registerAtoms atomOf)
  else d

/-- `DeviceDescriptions::readAllBundles` -/
def readAllBundles (atomOf : String → Nat) (files : List BundleFile) (d : DescriptionTable) :
    DescriptionTable :=
  files.foldl (readBundleFile atomOf) d

/-- `handleDDFInitRequest` with the description that `DEV_InitBaseDescriptionForDevice` creates on
the fly -/
def create (atomOf : String → Nat) (ddf1 : DeviceDescription) (d : DescriptionTable) :
    DescriptionTable :=
  d.append { ddf1.registerAtoms atomOf with storageLocation := some .ddfUserLocation }

/-- `DeviceDescriptions::put`; `none` where it indexes outside of the table. -/
def put (ddf : DeviceDescription) (d : DescriptionTable) : Option DescriptionTable :=
  if ¬ ddf.isValid then some d
  else if 0 ≤ ddf.handle ∧ ddf.handle ≤ d.descriptions.length then
    match d.descriptions[ddf.handle.toNat]? with
    | none => none
    | some ddf0 =>
      if ddf.handle = ddf0.handle then
        let index := ddf.handle.toNat
        some
          { d with
            descriptions :=
              updateItemHandlesForIndex (d.descriptions.set index ddf) d.loadCounter index }
      else some d
  else some d

def DescriptionTable.itemAt (d : DescriptionTable) (description subDevice item : Nat) :
    Option Item :=
  (d.descriptions[description]?).bind fun ddf => ddf.itemAt subDevice item

/-- The item that a reference returned by `getItem` refers to -/
inductive ItemRef where
  | generic (index : Nat)
  | table (description subDevice item : Nat)
  | invalid
deriving DecidableEq, Repr

/-- `DeviceDescriptions::getGenericItem` -/
def getGenericItem (d : DescriptionTable) (suffix : String) : ItemRef :=
  match d.genericItems.findIdx? fun item => item.name == suffix with
  | some index => .generic index
  | none => .invalid

/-- `DeviceDescriptions::getItem` for a resource item with this handle and suffix -/
def getItem (d : DescriptionTable) (handle : UInt32) (suffix : String) : ItemRef :=
  if handle = invalidItemHandle then getGenericItem d suffix
  else
    let h := ItemHandlePack.ofHandle handle
    match d.itemAt h.description.toNat h.subDevice.toNat h.item.toNat with
    | none => .invalid
    | some ddfItem =>
      if h.loadCounter = (ItemHandlePack.ofHandle ddfItem.handle).loadCounter then
        .table h.description.toNat h.subDevice.toNat h.item.toNat
      else .invalid

/-! ## The handles of one description -/

/-- The limits that `DDF_UpdateItemHandlesForIndex` asserts of a description -/
structure DeviceDescription.WithinLimits (ddf : DeviceDescription) : Prop where
  subDevices : ddf.subDevices.length ≤ maxSubDevs
  items : ∀ sub ∈ ddf.subDevices, sub.items.length ≤ maxItems

structure Handled (index : Nat) (ddf : DeviceDescription) : Prop where
  handle : ddf.handle = index
  limits : ddf.WithinLimits
  items : ∃ loadCounter, minLoadCounter ≤ loadCounter ∧ loadCounter ≤ maxLoadCounter ∧
    ∀ subDevice item ddfItem, ddf.itemAt subDevice item = some ddfItem → ddfItem.handle =
      (ItemHandlePack.ofIndices loadCounter index subDevice item).handle

theorem getElem?_updateItems (handle : ItemHandlePack) (items : List Item) (item : Nat) :
    (updateItems handle items)[item]? = (items[item]?).map fun ddfItem =>
      { ddfItem with
        handle := { handle with item := handle.item + BitVec.ofNat 10 item }.handle } := by
  -- for every handle to start from, as the loop counts its item field up
  induction items generalizing handle item with
  | nil => rfl
  | cons first rest ih =>
    cases item with
    | zero => simp [updateItems]
    | succ item =>
      simp only [updateItems, List.getElem?_cons_succ, ih]
      rw [Nat.add_comm item 1, BitVec.ofNat_add, BitVec.add_assoc]
      rfl

theorem getElem?_updateSubDevices (handle : ItemHandlePack) (subDevices : List SubDevice)
    (subDevice : Nat) :
    (updateSubDevices handle subDevices)[subDevice]? = (subDevices[subDevice]?).map fun sub =>
      { sub with
        items := updateItems
          { handle with
            subDevice := handle.subDevice + BitVec.ofNat 4 subDevice
            item := 0 } sub.items } := by
  induction subDevices generalizing handle subDevice with
  | nil => rfl
  | cons first rest ih =>
    cases subDevice with
    | zero => simp [updateSubDevices]
    | succ subDevice =>
      simp only [updateSubDevices, List.getElem?_cons_succ, ih]
      rw [Nat.add_comm subDevice 1, BitVec.ofNat_add, BitVec.add_assoc]
      rfl

theorem length_updateItems (handle : ItemHandlePack) (items : List Item) :
    (updateItems handle items).length = items.length := by
  induction items generalizing handle with
  | nil => rfl
  | cons first rest ih => simp only [updateItems, length_cons, ih]

theorem length_updateSubDevices (handle : ItemHandlePack) (subDevices : List SubDevice) :
    (updateSubDevices handle subDevices).length = subDevices.length := by
  induction subDevices generalizing handle with
  | nil => rfl
  | cons first rest ih => simp only [updateSubDevices, length_cons, ih]

theorem updateHandles_itemAt (loadCounter index : Nat) (ddf : DeviceDescription)
    (subDevice item : Nat) :
    (updateHandles loadCounter index ddf).itemAt subDevice item =
      (ddf.itemAt subDevice item).map fun ddfItem =>
        { ddfItem with
          handle := (ItemHandlePack.ofIndices loadCounter index subDevice item).handle } := by
  unfold DeviceDescription.itemAt updateHandles
  simp only [getElem?_updateSubDevices]
  cases ddf.subDevices[subDevice]? with
  | none => rfl
  | some sub =>
    simp only [Option.map_some, Option.bind_some, getElem?_updateItems]
    have hzero (w n : Nat) : BitVec.ofNat w 0 + BitVec.ofNat w n = BitVec.ofNat w n :=
      BitVec.zero_add _
    unfold ItemHandlePack.ofIndices
    rw [hzero, show (0 : BitVec 10) = BitVec.ofNat 10 0 from rfl, hzero]

variable {loadCounter index : Nat} {ddf : DeviceDescription}

theorem withinLimits_updateHandles (h : ddf.WithinLimits) :
    (updateHandles loadCounter index ddf).WithinLimits where
  subDevices := by
    unfold updateHandles
    rw [length_updateSubDevices]
    exact h.subDevices
  items := by
    intro sub hmem
    obtain ⟨subDevice, hsub⟩ := mem_iff_getElem?.mp hmem
    unfold updateHandles at hsub
    simp only [getElem?_updateSubDevices, Option.map_eq_some_iff] at hsub
    obtain ⟨sub0, hsub0, rfl⟩ := hsub
    rw [length_updateItems]
    exact h.items sub0 (mem_of_getElem? hsub0)

theorem handled_updateHandles (hmin : minLoadCounter ≤ loadCounter)
    (hmax : loadCounter ≤ maxLoadCounter) (h : ddf.WithinLimits) :
    Handled index (updateHandles loadCounter index ddf) where
  handle := rfl
  limits := withinLimits_updateHandles h
  items := by
    refine ⟨loadCounter, hmin, hmax, ?_⟩
    intro subDevice item ddfItem hitem
    rw [updateHandles_itemAt, Option.map_eq_some_iff] at hitem
    obtain ⟨_, _, rfl⟩ := hitem
    rfl

theorem withinLimits_mapItems {f : Item → Item} (h : ddf.WithinLimits) :
    (ddf.mapItems f).WithinLimits where
  subDevices := by
    unfold DeviceDescription.mapItems
    rw [length_map]
    exact h.subDevices
  items := by
    intro sub hmem
    unfold DeviceDescription.mapItems at hmem
    obtain ⟨sub0, hmem0, rfl⟩ := mem_map.mp hmem
    rw [length_map]
    exact h.items sub0 hmem0

theorem handled_mapItems {f : Item → Item} {index : Nat}
    (hf : ∀ item, (f item).handle = item.handle) (h : Handled index ddf) :
    Handled index (ddf.mapItems f) where
  handle := h.handle
  limits := withinLimits_mapItems h.limits
  items := by
    obtain ⟨loadCounter, hmin, hmax, hitems⟩ := h.items
    refine ⟨loadCounter, hmin, hmax, ?_⟩
    intro subDevice item ddfItem hitem
    rw [DeviceDescription.mapItems_itemAt, Option.map_eq_some_iff] at hitem
    obtain ⟨ddfItem0, hitem0, rfl⟩ := hitem
    rw [hf]
    exact hitems subDevice item ddfItem0 hitem0

/-! ## The table -/

/-- What every call keeps: the load counter is in its range, and every description has the handles of
its own index. -/
structure DescriptionTable.Handles (d : DescriptionTable) : Prop where
  minCounter : minLoadCounter ≤ d.loadCounter
  maxCounter : d.loadCounter ≤ maxLoadCounter
  handled : ∀ index ddf, d.descriptions[index]? = some ddf → Handled index ddf

theorem updateItemHandlesForIndex_of_lt {descriptions : List DeviceDescription}
    (h : index < descriptions.length) :
    updateItemHandlesForIndex descriptions loadCounter index =
      descriptions.modify index (updateHandles loadCounter index) := by
  unfold updateItemHandlesForIndex
  rw [if_neg (Nat.not_le.mpr h)]

theorem modify_last {α : Type} (f : α → α) :
    ∀ (l : List α) (x : α), (l ++ [x]).modify l.length f = l ++ [f x]
  | [], _ => rfl
  | first :: l, x => congrArg (first :: ·) (modify_last f l x)

theorem append_descriptions (d : DescriptionTable) (ddf : DeviceDescription) :
    (d.append ddf).descriptions = d.descriptions ++
      [updateHandles d.loadCounter d.descriptions.length ddf] := by
  unfold DescriptionTable.append
  simp only [List.length_append, length_singleton, Nat.add_sub_cancel]
  rw [updateItemHandlesForIndex_of_lt (by simp)]
  exact modify_last _ d.descriptions ddf

/-- A property of the descriptions that reading files keeps: it is kept when a description from a
known location is appended, and by the loops over the items. -/
structure KeptByReading (P : List DeviceDescription → Prop) : Prop where
  append : ∀ loadCounter ddf descriptions, ddf.storageLocation.isSome = true → P descriptions →
    P (descriptions ++ [updateHandles loadCounter descriptions.length ddf])
  mapItems : ∀ (f : DeviceDescription → Item → Item) descriptions, P descriptions →
    P (descriptions.map fun ddf => ddf.mapItems (f ddf))

section Reading

variable {P : List DeviceDescription → Prop} (hkept : KeptByReading P)
include hkept

theorem KeptByReading.tableAppend {d : DescriptionTable} {ddf : DeviceDescription}
    (hstored : ddf.storageLocation.isSome = true) (h : P d.descriptions) :
    P (d.append ddf).descriptions := by
  rw [append_descriptions]
  exact hkept.append _ _ _ hstored h

theorem KeptByReading.readRawFile {atomOf : String → Nat} {d : DescriptionTable} {file : RawFile}
    (h : P d.descriptions) : P (readRawFile atomOf d file).descriptions := by
  cases file with
  | genericItem result => exact h
  | device location hash scheduled result =>
    simp only [Ddf.readRawFile]
    split
    · exact hkept.tableAppend rfl h
    · exact h

theorem KeptByReading.merge {genericItems : List Item} {resolve : String → Variant → Variant}
    {descriptions : List DeviceDescription} (h : P descriptions) :
    P (descriptions.map fun ddf => loadScripts resolve (mergeGenericItems genericItems ddf)) := by
  have hmerged := hkept.mapItems (fun _ => mergeGenericItem genericItems id) descriptions h
  have hscripts := hkept.mapItems (fun ddf item =>
    { item with
      parseParameters := resolve ddf.path item.parseParameters
      readParameters := resolve ddf.path item.readParameters
      writeParameters := resolve ddf.path item.writeParameters }) _ hmerged
  rw [map_map] at hscripts
  exact hscripts

theorem KeptByReading.readAllRawJson {raw : RawJson} {d : DescriptionTable}
    (h : P d.descriptions) : P (readAllRawJson raw d).descriptions := by
  unfold Ddf.readAllRawJson
  simp only
  split
  · have hfiles : P (Transition.run (Ddf.readRawFile raw.atomOf)
        { d with loadCounter := nextLoadCounter d.loadCounter } raw.files).descriptions := by
      refine Transition.run_invariant (P := fun d : DescriptionTable => P d.descriptions) ?_ ?_ _
      · exact fun _ _ hread => hkept.readRawFile hread
      · exact h
    exact hkept.merge hfiles
  · exact h

theorem KeptByReading.readAllBundles {atomOf : String → Nat} {files : List BundleFile}
    {d : DescriptionTable} (h : P d.descriptions) :
    P (readAllBundles atomOf files d).descriptions := by
  refine Transition.run_invariant (P := fun d : DescriptionTable => P d.descriptions) ?_ h files
  intro d file h
  unfold readBundleFile
  split
  · exact hkept.tableAppend rfl h
  · exact h

end Reading

variable {d : DescriptionTable}

theorem handles_append (h : d.Handles) (hlimits : ddf.WithinLimits) : (d.append ddf).Handles where
  minCounter := h.minCounter
  maxCounter := h.maxCounter
  handled := by
    intro index ddf1 hget
    rw [append_descriptions, List.getElem?_append] at hget
    split at hget
    · exact h.handled index ddf1 hget
    · rename_i hlast
      have hindex : index = d.descriptions.length := by
        have hsome := List.getElem?_eq_some_iff.mp hget
        obtain ⟨hbound, -⟩ := hsome
        simp only [length_singleton] at hbound
        omega
      subst hindex
      simp only [Nat.sub_self, List.getElem?_cons_zero, Option.some.injEq] at hget
      rw [← hget]
      exact handled_updateHandles h.minCounter h.maxCounter hlimits

variable {atomOf : String → Nat}

theorem withinLimits_registerAtoms (h : ddf.WithinLimits) :
    (ddf.registerAtoms atomOf).WithinLimits :=
  ⟨h.subDevices, h.items⟩

theorem nextLoadCounter_range (loadCounter : Nat) :
    minLoadCounter ≤ nextLoadCounter loadCounter ∧ nextLoadCounter loadCounter ≤ maxLoadCounter := by
  have hmod : (loadCounter + 1) % maxLoadCounter < maxLoadCounter := Nat.mod_lt _ (by decide)
  have hrange : minLoadCounter ≤ maxLoadCounter := by decide
  unfold nextLoadCounter
  split <;> omega

/-- The description that a raw JSON file or a bundle brings, if it brings one -/
def RawFile.description : RawFile → Option DeviceDescription
  | .genericItem _ => none
  | .device _ _ _ result => some result

theorem handles_readRawFile {file : RawFile} (h : d.Handles)
    (hlimits : ∀ ddf ∈ file.description, ddf.WithinLimits) :
    (readRawFile atomOf d file).Handles := by
  cases file with
  | genericItem result => exact ⟨h.minCounter, h.maxCounter, h.handled⟩
  | device location hash scheduled result =>
    have hresult : result.WithinLimits := hlimits result rfl
    simp only [readRawFile]
    split
    · exact handles_append h (withinLimits_registerAtoms ⟨hresult.subDevices, hresult.items⟩)
    · exact h

theorem handles_readRawFiles {files : List RawFile} (h : d.Handles)
    (hlimits : ∀ file ∈ files, ∀ ddf ∈ file.description, ddf.WithinLimits) :
    (files.foldl (readRawFile atomOf) d).Handles :=
  Transition.run_invariant_mem (fun file hmem _ h => handles_readRawFile h (hlimits file hmem)) h

theorem handles_map {f : DeviceDescription → DeviceDescription}
    (hf : ∀ index ddf, Handled index ddf → Handled index (f ddf)) (h : d.Handles) :
    DescriptionTable.Handles { d with descriptions := d.descriptions.map f } where
  minCounter := h.minCounter
  maxCounter := h.maxCounter
  handled := by
    intro index ddf hget
    simp only [List.getElem?_map, Option.map_eq_some_iff] at hget
    obtain ⟨ddf0, hget0, rfl⟩ := hget
    exact hf index ddf0 (h.handled index ddf0 hget0)

theorem handles_readAllRawJson {raw : RawJson} (h : d.Handles)
    (hlimits : ∀ file ∈ raw.files, ∀ ddf ∈ file.description, ddf.WithinLimits) :
    (readAllRawJson raw d).Handles := by
  obtain ⟨hmin, hmax⟩ := nextLoadCounter_range d.loadCounter
  have hcounter : DescriptionTable.Handles
      { d with loadCounter := nextLoadCounter d.loadCounter } := ⟨hmin, hmax, h.handled⟩
  unfold readAllRawJson
  simp only
  split
  · refine handles_map ?_ (handles_readRawFiles hcounter hlimits)
    intro index ddf hhandled
    exact handled_mapItems (fun item => rfl)
      (handled_mapItems (mergeGenericItem_handle _ _) hhandled)
  · exact hcounter

theorem handles_readBundleFile {file : BundleFile} (h : d.Handles) (hlimits : file.ddf.WithinLimits)
    : (readBundleFile atomOf d file).Handles := by
  unfold readBundleFile
  split
  · have hmerged := withinLimits_mapItems (f := mergeGenericItem file.genericItems file.resolve)
      hlimits
    exact handles_append h (withinLimits_registerAtoms ⟨hmerged.subDevices, hmerged.items⟩)
  · exact h

theorem handles_readAllBundles {files : List BundleFile} (h : d.Handles)
    (hlimits : ∀ file ∈ files, file.ddf.WithinLimits) :
    (readAllBundles atomOf files d).Handles :=
  Transition.run_invariant_mem (fun file hmem _ h => handles_readBundleFile h (hlimits file hmem)) h

theorem handles_create {ddf1 : DeviceDescription} (h : d.Handles) (hlimits : ddf1.WithinLimits) :
    (create atomOf ddf1 d).Handles :=
  handles_append h ⟨hlimits.subDevices, hlimits.items⟩

/-- What `put` does to a table whose handles are right: nothing, or it replaces the description at the
handle, or it indexes behind the table. -/
theorem put_cases (ddf : DeviceDescription) (h : d.Handles) :
    (put ddf d = none ∧ ddf.isValid = true ∧ ddf.handle = d.descriptions.length) ∨
      (put ddf d = some d ∧ ¬ (ddf.isValid = true ∧ ddf.handle = d.descriptions.length)) ∨
      ∃ index < d.descriptions.length, ddf.handle = index ∧ put ddf d =
        some
          { d with
            descriptions := d.descriptions.set index (updateHandles d.loadCounter index ddf) } := by
  unfold put
  by_cases hvalid : ddf.isValid = true
  · rw [if_neg (not_not.mpr hvalid)]
    by_cases hrange : 0 ≤ ddf.handle ∧ ddf.handle ≤ d.descriptions.length
    · rw [if_pos hrange]
      obtain ⟨index, hindex⟩ := Int.eq_ofNat_of_zero_le hrange.1
      rw [hindex, Int.toNat_natCast]
      cases hget : d.descriptions[index]? with
      | none =>
        have hbound := List.getElem?_eq_none_iff.mp hget
        refine .inl ⟨rfl, hvalid, ?_⟩
        omega
      | some ddf0 =>
        obtain ⟨hbound, -⟩ := List.getElem?_eq_some_iff.mp hget
        have hsame := (h.handled index ddf0 hget).handle
        refine .inr (.inr ⟨index, hbound, rfl, ?_⟩)
        simp only [hsame, if_true]
        rw [updateItemHandlesForIndex_of_lt (by rw [length_set]; exact hbound)]
        congr 2
        exact ext_getElem? fun place => by
          rw [List.getElem?_modify, List.getElem?_set, List.getElem?_set]
          split <;> simp_all
    · rw [if_neg hrange]
      refine .inr (.inl ⟨rfl, fun hbehind => hrange ?_⟩)
      rw [hbehind.2]
      exact ⟨Int.natCast_nonneg _, Int.le_refl _⟩
  · rw [if_pos hvalid]
    exact .inr (.inl ⟨rfl, fun hbehind => hvalid hbehind.1⟩)

theorem handles_put {d d' : DescriptionTable} (h : d.Handles) (hlimits : ddf.WithinLimits)
    (hput : put ddf d = some d') : d'.Handles := by
  obtain ⟨hnone, -⟩ | ⟨hsame, -⟩ | ⟨index, hbound, -, hset⟩ := put_cases ddf h
  · rw [hnone] at hput
    exact absurd hput (by simp)
  · rw [hsame, Option.some.injEq] at hput
    exact hput ▸ h
  · rw [hset, Option.some.injEq] at hput
    subst hput
    refine ⟨h.minCounter, h.maxCounter, ?_⟩
    intro place ddf1 hget
    rw [List.getElem?_set] at hget
    split at hget
    · rename_i hplace
      rw [Option.some.injEq] at hget
      rw [← hget, ← hplace]
      exact handled_updateHandles h.minCounter h.maxCounter hlimits
    · exact h.handled place ddf1 hget

/-! ## Runs -/

inductive Call where
  | readAllRawJson (raw : RawJson)
  | readAllBundles (atomOf : String → Nat) (files : List BundleFile)
  | create (atomOf : String → Nat) (ddf1 : DeviceDescription)
  | put (ddf : DeviceDescription)

/-- One call; `none` where it indexes outside of the table. -/
def step (d : DescriptionTable) : Call → Option DescriptionTable
  | .readAllRawJson raw => some (readAllRawJson raw d)
  | .readAllBundles atomOf files => some (readAllBundles atomOf files d)
  | .create atomOf ddf1 => some (create atomOf ddf1 d)
  | .put ddf => put ddf d

def run (d : DescriptionTable) : List Call → Option DescriptionTable
  | [] => some d
  | call :: calls => (step d call).bind fun d => run d calls

def Call.descriptions : Call → List DeviceDescription
  | .readAllRawJson raw => raw.files.filterMap RawFile.description
  | .readAllBundles _ files => files.map BundleFile.ddf
  | .create _ ddf1 => [ddf1]
  | .put ddf => [ddf]

/-- The asserted limits hold through a run: of the descriptions that the calls bring, and of the
number of descriptions in the table. -/
def Limits (d : DescriptionTable) : List Call → Prop
  | [] => True
  | call :: calls =>
    (∀ ddf ∈ call.descriptions, ddf.WithinLimits) ∧ ∀ d', step d call = some d' →
      d'.descriptions.length ≤ maxDescriptions ∧ Limits d' calls

/-- The call is a `put` of a valid description whose handle is the number of descriptions. -/
def Call.PutsBehind (d : DescriptionTable) : Call → Prop
  | .put ddf => ddf.isValid = true ∧ ddf.handle = d.descriptions.length
  | _ => False

/-- No call of a run puts a description behind the table. -/
def PutsWithin (d : DescriptionTable) : List Call → Prop
  | [] => True
  | call :: calls =>
    ¬ call.PutsBehind d ∧ ∀ d', step d call = some d' → PutsWithin d' calls

structure Consistent (d : DescriptionTable) : Prop where
  description : ∀ (index : Nat) (ddf : DeviceDescription), d.descriptions[index]? = some ddf →
    ddf.handle = index
  valid : ∀ description subDevice item ddfItem, d.itemAt description subDevice item = some ddfItem →
    ddfItem.handle ≠ invalidItemHandle
  unpacks : ∀ description subDevice item ddfItem, d.itemAt description subDevice item =
    some ddfItem → (ItemHandlePack.ofHandle ddfItem.handle).description.toNat =
      description ∧ (ItemHandlePack.ofHandle ddfItem.handle).subDevice.toNat = subDevice ∧
        (ItemHandlePack.ofHandle ddfItem.handle).item.toNat = item
  distinct : ∀ description subDevice item ddfItem description' subDevice' item' ddfItem',
    d.itemAt description subDevice item = some ddfItem → d.itemAt description' subDevice' item' =
      some ddfItem' → ddfItem.handle =
        ddfItem'.handle → description = description' ∧ subDevice = subDevice' ∧ item = item'
  found : ∀ description subDevice item ddfItem suffix, d.itemAt description subDevice item =
    some ddfItem → getItem d ddfItem.handle suffix = .table description subDevice item

theorem toNat_ofNat_field {w n : Nat} (h : n < 2 ^ w) : (BitVec.ofNat w n).toNat = n := by
  rw [BitVec.toNat_ofNat, Nat.mod_eq_of_lt h]

theorem DescriptionTable.Handles.item {d : DescriptionTable} (h : d.Handles)
    (hlength : d.descriptions.length ≤ maxDescriptions) {description subDevice item : Nat}
    {ddfItem : Item} (hitem : d.itemAt description subDevice item = some ddfItem) :
    ∃ loadCounter, minLoadCounter ≤ loadCounter ∧ loadCounter < 2 ^ 4 ∧ description < 2 ^ 14 ∧
      subDevice < 2 ^ 4 ∧ item < 2 ^ 10 ∧
      ddfItem.handle =
        (ItemHandlePack.ofIndices loadCounter description subDevice item).handle := by
  unfold DescriptionTable.itemAt at hitem
  obtain ⟨ddf, hget, hat⟩ := Option.bind_eq_some_iff.mp hitem
  have hhandled := h.handled description ddf hget
  obtain ⟨loadCounter, hmin, hmax, hhandle⟩ := hhandled.items
  have hbound := (List.getElem?_eq_some_iff.mp hget).1
  obtain ⟨sub, hsub, hfound⟩ := Option.bind_eq_some_iff.mp hat
  have hsubBound := (List.getElem?_eq_some_iff.mp hsub).1
  have hsubLimit := hhandled.limits.subDevices
  have hitemBound := (List.getElem?_eq_some_iff.mp hfound).1
  have hitemLimit := hhandled.limits.items sub (mem_of_getElem? hsub)
  unfold maxDescriptions at hlength
  unfold maxSubDevs at hsubLimit
  unfold maxItems at hitemLimit
  unfold maxLoadCounter at hmax
  exact ⟨loadCounter, hmin, by omega, by omega, by omega, by omega,
    hhandle subDevice item ddfItem hat⟩

theorem unpacks_of_handles (h : d.Handles) (hlength : d.descriptions.length ≤ maxDescriptions)
    {description subDevice item : Nat} {ddfItem : Item}
    (hitem : d.itemAt description subDevice item = some ddfItem) :
    (ItemHandlePack.ofHandle ddfItem.handle).description.toNat = description ∧
      (ItemHandlePack.ofHandle ddfItem.handle).subDevice.toNat = subDevice ∧
      (ItemHandlePack.ofHandle ddfItem.handle).item.toNat = item := by
  obtain ⟨loadCounter, -, -, hdescription, hsub, hitemBound, hhandle⟩ := h.item hlength hitem
  rw [hhandle, ItemHandlePack.ofHandle_handle]
  exact ⟨toNat_ofNat_field hdescription, toNat_ofNat_field hsub, toNat_ofNat_field hitemBound⟩

theorem valid_of_handles (h : d.Handles) (hlength : d.descriptions.length ≤ maxDescriptions)
    {description subDevice item : Nat} {ddfItem : Item}
    (hitem : d.itemAt description subDevice item = some ddfItem) :
    ddfItem.handle ≠ invalidItemHandle := by
  obtain ⟨loadCounter, hmin, hmax, -, -, -, hhandle⟩ := h.item hlength hitem
  rw [hhandle]
  apply ItemHandlePack.handle_ne_invalid
  show 0 < (BitVec.ofNat 4 loadCounter).toNat
  rw [toNat_ofNat_field hmax]
  exact hmin

theorem consistent_of_handles (h : d.Handles) (hlength : d.descriptions.length ≤ maxDescriptions) :
    Consistent d where
  description := fun index ddf hget => (h.handled index ddf hget).handle
  valid := fun _ _ _ _ hitem => valid_of_handles h hlength hitem
  unpacks := fun _ _ _ _ hitem => unpacks_of_handles h hlength hitem
  distinct := by
    intro description subDevice item ddfItem description' subDevice' item' ddfItem' hitem hitem'
      heq
    obtain ⟨hdescription, hsub, hplace⟩ := unpacks_of_handles h hlength hitem
    obtain ⟨hdescription', hsub', hplace'⟩ := unpacks_of_handles h hlength hitem'
    rw [← heq] at hdescription' hsub' hplace'
    exact ⟨hdescription.symm.trans hdescription', hsub.symm.trans hsub', hplace.symm.trans hplace'⟩
  found := by
    intro description subDevice item ddfItem suffix hitem
    obtain ⟨hdescription, hsub, hplace⟩ := unpacks_of_handles h hlength hitem
    unfold getItem
    rw [if_neg (valid_of_handles h hlength hitem)]
    simp only [hdescription, hsub, hplace, hitem, if_true]

variable {call : Call}

theorem handles_step (h : d.Handles) (hlimits : ∀ ddf ∈ call.descriptions, ddf.WithinLimits)
    (hput : ¬ call.PutsBehind d) :
    ∃ d', step d call = some d' ∧ d'.Handles := by
  cases call with
  | readAllRawJson raw =>
    refine ⟨_, rfl, handles_readAllRawJson h fun file hfile ddf hddf => ?_⟩
    exact hlimits ddf (mem_filterMap.mpr ⟨file, hfile, hddf⟩)
  | readAllBundles atomOf files =>
    exact ⟨_, rfl, handles_readAllBundles h fun file hfile =>
      hlimits file.ddf (mem_map_of_mem hfile)⟩
  | create atomOf ddf1 =>
    exact ⟨_, rfl, handles_create h (hlimits ddf1 mem_cons_self)⟩
  | put ddf =>
    have hwithin := hlimits ddf mem_cons_self
    obtain ⟨-, hbehind⟩ | ⟨hsame, -⟩ | ⟨index, hbound, -, hset⟩ := put_cases ddf h
    · exact absurd hbehind hput
    · exact ⟨d, hsame, h⟩
    · exact ⟨_, hset, handles_put h hwithin hset⟩

theorem handles_of_step {d d' : DescriptionTable} (h : d.Handles)
    (hlimits : ∀ ddf ∈ call.descriptions, ddf.WithinLimits) (hstep : step d call = some d') :
    d'.Handles := by
  by_cases hput : call.PutsBehind d
  · cases call with
    | put ddf => exact handles_put h (hlimits ddf mem_cons_self) hstep
    | readAllRawJson | readAllBundles | create => exact absurd hput id
  · obtain ⟨d'', hstep', hhandles⟩ := handles_step h hlimits hput
    rw [hstep', Option.some.injEq] at hstep
    exact hstep ▸ hhandles

/-- Every table that a run within the limits reaches is consistent, and no call of the run indexes
outside of the table. -/
def StaysConsistent (d : DescriptionTable) (calls : List Call) : Prop :=
  ∀ before after, calls = before ++ after → ∃ d', run d before = some d' ∧ Consistent d'

theorem step_of_putsBehind (h : d.Handles) (hput : call.PutsBehind d) : step d call = none := by
  cases call with
  | put ddf =>
    obtain ⟨hnone, -⟩ | ⟨-, hnot⟩ | ⟨index, hbound, hhandle, -⟩ := put_cases ddf h
    · exact hnone
    · exact absurd hput hnot
    · have hbehind := hput.2
      rw [hhandle] at hbehind
      omega
  | readAllRawJson | readAllBundles | create => exact absurd hput id

theorem staysConsistent_iff {calls : List Call} (h : d.Handles)
    (hlength : d.descriptions.length ≤ maxDescriptions) (hlimits : Limits d calls) :
    StaysConsistent d calls ↔ PutsWithin d calls := by
  -- what carries the induction is `Handles`: every call that goes through keeps it
  induction calls generalizing d with
  | nil =>
    refine ⟨fun _ => trivial, fun _ before after heq => ?_⟩
    obtain ⟨rfl, -⟩ := append_eq_nil_iff.mp heq.symm
    exact ⟨d, rfl, consistent_of_handles h hlength⟩
  | cons call calls ih =>
    obtain ⟨hcall, hrest⟩ := hlimits
    have hlater : ∀ d', step d call = some d' →
        (StaysConsistent d' calls ↔ PutsWithin d' calls) := fun d' hstep =>
      ih (handles_of_step h hcall hstep) (hrest d' hstep).1 (hrest d' hstep).2
    constructor
    · intro hstays
      refine ⟨?_, fun d' hstep => (hlater d' hstep).mp ?_⟩
      · intro hput
        obtain ⟨d', hrun, -⟩ := hstays [call] calls rfl
        unfold run at hrun
        rw [step_of_putsBehind h hput] at hrun
        exact absurd hrun (by simp)
      · intro before after heq
        obtain ⟨d'', hrun, hconsistent⟩ := hstays (call :: before) after (by rw [heq]; rfl)
        unfold run at hrun
        rw [hstep, Option.bind_some] at hrun
        exact ⟨d'', hrun, hconsistent⟩
    · rintro ⟨hput, hwithin⟩
      obtain ⟨d', hstep, -⟩ := handles_step h hcall hput
      intro before after heq
      cases before with
      | nil => exact ⟨d, rfl, consistent_of_handles h hlength⟩
      | cons first before =>
        obtain ⟨rfl, htail⟩ := List.cons.inj heq
        obtain ⟨d'', hrun, hconsistent⟩ :=
          (hlater d' hstep).mpr (hwithin d' hstep) before after htail
        refine ⟨d'', ?_, hconsistent⟩
        unfold run
        rw [hstep, Option.bind_some]
        exact hrun

/-- The handles stay consistent through a run from the start exactly when no `put` of the run takes a
valid description whose handle is the number of descriptions then. -/
theorem handles_consistent_iff (calls : List Call) (hlimits : Limits {} calls) :
    StaysConsistent {} calls ↔ PutsWithin {} calls := by
  refine staysConsistent_iff ⟨by decide, by decide, ?_⟩ (by decide) hlimits
  intro index ddf hget
  exact absurd hget (by simp)

def sampleDdf (handle : Int) : DeviceDescription :=
  { manufacturerNames := ["LUMI"], modelIds := ["lumi.weather"], handle := handle
    subDevices := [{ items := [{ suffix := "attr/name" }, { suffix := "state/on" }] }] }

theorem sampleDdf_within (handle : Int) : (sampleDdf handle).WithinLimits where
  subDevices := (by decide : (sampleDdf 0).subDevices.length ≤ maxSubDevs)
  items := (by decide : ∀ sub ∈ (sampleDdf 0).subDevices, sub.items.length ≤ maxItems)

/-- A description that is created on the fly is put back under its handle. -/
theorem handles_consistent_put_back :
    StaysConsistent {} [.create (fun _ => 1) (sampleDdf (-1)), .put (sampleDdf 0)] := by
  refine (handles_consistent_iff _ ?_).mpr ?_
  · refine ⟨?_, ?_⟩
    · intro ddf hmem
      rw [mem_singleton.mp hmem]
      exact sampleDdf_within _
    · intro d' hstep
      rw [← Option.some.inj hstep]
      refine ⟨by decide, ?_, ?_⟩
      · intro ddf hmem
        rw [mem_singleton.mp hmem]
        exact sampleDdf_within _
      · intro d'' hput
        rw [← Option.some.inj hput]
        exact ⟨by decide, trivial⟩
  · refine ⟨id, fun d' hstep => ?_⟩
    rw [← Option.some.inj hstep]
    exact ⟨fun hput => absurd hput.2 (by decide), fun _ _ => trivial⟩

/-- A valid description with the handle 0 is put into the empty table. -/
theorem put_behind_table : ¬ ∀ calls, Limits {} calls → StaysConsistent {} calls := by
  intro h
  have hput : step {} (.put (sampleDdf 0)) = none := by decide
  have hlimits : Limits {} [.put (sampleDdf 0)] := by
    refine ⟨?_, ?_⟩
    · intro ddf hmem
      rw [mem_singleton.mp hmem]
      exact sampleDdf_within _
    · intro d' hstep
      rw [hput] at hstep
      exact absurd hstep (by simp)
  obtain ⟨d', hrun, -⟩ := h _ hlimits [.put (sampleDdf 0)] [] rfl
  unfold run at hrun
  rw [hput] at hrun
  exact absurd hrun (by simp)

end Ddf
end DeconzRest

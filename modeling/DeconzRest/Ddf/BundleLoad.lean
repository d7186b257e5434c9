import DeconzRest.Ddf.BundleItems
import DeconzRest.Ddf.Identifiers
import DeconzRest.Ddf.Upload

/-!
# Assertions while a bundle is loaded

A bundle is valid when it has the chunks `RIFF`, `DDFB` and `DESC`.  What `readAllBundles` makes of
the external files of the bundle is asserted to have sizes and contents that nobody has checked:
here every assertion on the way is an exit of its own, and `safe_iff` says which bundles meet none.

The pointers of the assertions are never null, and the path of a file is never empty; these
assertions are left out, and so is what loading does to the atoms and the constants.
-/

namespace DeconzRest
namespace DeviceObject

open List Option

open Json (ascii)
open QString (ofLatin1)
open QVariant (value contains)
open Ddf (ExtfChunk tag findChunk findFrom ddfbHash isValidDDFBundle walkStates collected
  isBundleScheduled)

variable {D : Type}

/-! ## Descriptors -/

/-- `API_DataTypeFromString` knows the type. -/
def isDataType (type : QString) : Bool :=
  decide (type ∈ ["bool", "uint8", "uint16", "uint32", "uint64", "int8", "int16", "int32", "int64",
    "string", "double", "time", "timepattern"].map ofLatin1)

/-- `QString::toLower`, as far as the names of the types can tell -/
def toLower (s : QString) : QString :=
  s.map fun u => if QString.unit 'A' ≤ u ∧ u ≤ QString.unit 'Z' then u + 32 else u

/-- `getResourceItemDescriptor`: the first descriptor in whose suffix the name ends -/
def getDescriptor (rids : List Descriptor) (name : String) : Option Descriptor :=
  rids.find? fun rid => decide (rid.suffix.toList <:+ name.toList)

/-- `R_AddResourceItemDescriptor` -/
def addDescriptor (rids : List Descriptor) (rid : Descriptor) : List Descriptor :=
  if rid.isValid && rids.all fun known => known.suffix ≠ rid.suffix then rids ++ [rid] else rids

/-- The descriptors behind an item: one with a schema and a name that is not known adds its own. -/
def withDynamic (rids : List Descriptor) (obj : JsonObject D) : List Descriptor :=
  if itemName obj = "" ∨ (getDescriptor rids (itemName obj)).isSome then rids
  else if textOf (value obj "schema") = ofLatin1 "resourceitem1.schema.json" then
    addDescriptor rids (accessOf obj
      { suffix := itemName obj, isValid := isDataType (toLower (textOf (value obj "datatype"))) })
  else rids

section Parse

variable (env : DdfEnv D)

/-- `DDF_ParseItem`, with the descriptors behind it -/
def parseItemIn (rids : List Descriptor) (obj : JsonObject D) : Item D × List Descriptor :=
  (parseItem { env with descriptor := getDescriptor (withDynamic rids obj) } obj,
    withDynamic rids obj)

/-- The loop over the items of a sub-device -/
def parseItemsIn (rids : List Descriptor) : List (JsonObject D) → List (Item D) × List Descriptor
  | [] => ([], rids)
  | obj :: objs =>
    let (item, rids) := parseItemIn env rids obj
    let (items, rids) := parseItemsIn rids objs
    (item :: items, rids)

/-- `DDF_ParseSubDevice` -/
def parseSubDeviceIn (rids : List Descriptor) (obj : JsonObject D) :
    SubDevice D × List Descriptor :=
  if textOf (value obj "type") = [] ∨ textOf (value obj "restapi") = [] then
    (parseSubDevice env obj, rids)
  else
    let (items, rids) := parseItemsIn env rids (objectsOf ((arrayOf? (value obj "items")).getD []))
    ({ parseSubDevice env obj with items := items.filter Item.isValid }, rids)

def parseSubDevicesIn (rids : List Descriptor) :
    List (JsonObject D) → List (SubDevice D) × List Descriptor
  | [] => ([], rids)
  | obj :: objs =>
    let (sub, rids) := parseSubDeviceIn env rids obj
    let (subs, rids) := parseSubDevicesIn rids objs
    (sub :: subs, rids)

/-- `DDF_ParseDeviceObject` -/
def parseDeviceObjectIn (rids : List Descriptor) (obj : JsonObject D) :
    DeviceDescription D × List Descriptor :=
  if textOf (value obj "schema") ≠ ofLatin1 "devcap1.schema.json" then ({}, rids)
  else
    match arrayOf? (value obj "subdevices") with
    | none => ({}, rids)
    | some subDevices =>
      let (subs, rids) := parseSubDevicesIn env rids (objectsOf subDevices)
      ({ parseDeviceObject env obj with subDevices := subs.filter SubDevice.isValid }, rids)

end Parse

/-- `JSON_Schema` -/
inductive JsonSchema where
  | unknown | constants1 | constants2 | resourceItem1 | subDevice1 | devCap1
deriving DecidableEq, Repr

/-- The text between the quotes behind `"schema"` -/
def schemaText (data : List UInt8) : Option (List UInt8) := do
  let pos ← findFrom data 0 (ascii "\"schema\"")
  let quote ← findFrom data (pos + 8) (ascii "\"")
  let closing ← findFrom data (quote + 1) (ascii "\"")
  if quote + 1 < closing then some ((data.drop (quote + 1)).take (closing - (quote + 1))) else none

/-- `DDF_GetJsonSchema` behind its assertions -/
def schemaOf (data : List UInt8) : JsonSchema :=
  if data.head? ≠ some 0x7B ∧ data.head? ≠ some 0x5B then .unknown -- not JSON object or array
  else
    match schemaText data with
    | none => .unknown
    | some text =>
      if text = ascii "devcap1.schema.json" then .devCap1
      else if text = ascii "resourceitem1.schema.json" then .resourceItem1
      else if text = ascii "constants1.schema.json" then .constants1
      else if text = ascii "constants2.schema.json" then .constants2
      else if text = ascii "subdevice1.schema.json" then .subDevice1
      else .unknown

/-! ## Assertions -/

/-- The assertions that can fail, by what they are about -/
inductive Assertion where
  | jsonSchemaSize | deviceFileSize | itemFile
  | descriptionIndex | loadCounter | itemIndex | subDeviceIndex
deriving DecidableEq, Repr

/-- How `readAllBundles` is done with a bundle that is not loaded. -/
inductive Exit where
  /-- It goes on with the next file. -/
  | skips
  /-- It meets an assertion that fails. -/
  | asserts (a : Assertion)
  /-- It does not come back from the repair of a script. -/
  | endless
deriving DecidableEq, Repr

structure BundleEnv (D : Type) where
  sha256 : List UInt8 → List UInt8
  timeFromISO8601 : List UInt8 → Int
  /-- The number of descriptors that fit in the scratch memory -/
  room : Nat
  /-- `QJsonDocument::fromJson`; `none` is an error. -/
  fromJson : List UInt8 → Option (QVariant D)
  ddf : DdfEnv D
  js : ScriptEnv D

/-- What loading reads of the state: the hashes of the descriptions, the load counter, which is kept
in its range, the load records and the names and descriptors that are known. -/
structure LoadState where
  hashes : List (List UInt8)
  loadCounter : Nat
  minCounter : Ddf.minLoadCounter ≤ loadCounter
  maxCounter : loadCounter ≤ Ddf.maxLoadCounter
  atoms : Ddf.AtomTable
  records : List Ddf.LoadRecord
  rids : List Descriptor

/-- `DDF_GetJsonSchema` -/
def getJsonSchema (data : List UInt8) (dataSize : Nat) : Except Exit JsonSchema :=
  if 0 < dataSize then .ok (schemaOf data) else .error (.asserts .jsonSchemaSize)

def BundleFile.octets (bundle : BundleFile) (extf : ExtfChunk) : List UInt8 :=
  (bundle.data.drop extf.fileData).take extf.fileSize

/-- The loops of `DDF_ReadConstantsJson` and of `readAllBundles` for the first file of a type with a
schema -/
def firstWithSchema (bundle : BundleFile) (type : List UInt8) (schema : JsonSchema) :
    List ExtfChunk → Except Exit (Option ExtfChunk)
  | [] => .ok none
  | extf :: rest =>
    if extf.fileType ≠ type then firstWithSchema bundle type schema rest
    else do
      let found ← getJsonSchema (bundle.octets extf) extf.fileSize
      if found = schema then return some extf else firstWithSchema bundle type schema rest

section Load

variable (env : BundleEnv D)

/-- `DDF_ReadDeviceFile` behind its assertions -/
def deviceOf (bundle : BundleFile) (rids : List Descriptor) (extf : ExtfChunk) :
    DeviceDescription D × List Descriptor :=
  match env.fromJson (bundle.octets extf) with
  | some (.map obj) => parseDeviceObjectIn env.ddf rids obj
  | _ => ({}, rids)

/-- `DDF_ReadDeviceFile` -/
def readDeviceFile (bundle : BundleFile) (rids : List Descriptor) (extf : ExtfChunk) :
    Except Exit (DeviceDescription D × List Descriptor) :=
  if 64 < extf.fileSize then .ok (deviceOf env bundle rids extf)
  else .error (.asserts .deviceFileSize)

/-- `DDF_ReadItemFile` -/
def readItemFile (bundle : BundleFile) (rids : List Descriptor) (extf : ExtfChunk) :
    Item D × List Descriptor :=
  if extf.fileSize < 16 then ({}, rids)
  else
    match env.fromJson (bundle.octets extf) with
    | some (.map obj) => parseItemIn env.ddf rids obj
    | _ => ({}, rids)

def BundleFile.isItemFile (bundle : BundleFile) (extf : ExtfChunk) : Bool :=
  (ascii "generic/items").isPrefixOf ((bundle.data.drop extf.path).take extf.pathLength)

/-- The first loop of `DDF_MergeGenericBundleItems` -/
def readGenericItems (bundle : BundleFile) (rids : List Descriptor) :
    List ExtfChunk → Except Exit (List (Item D))
  | [] => .ok []
  | extf :: rest =>
    if bundle.isItemFile extf then
      let (item, rids) := readItemFile env bundle rids extf
      if item.isValid then (item :: ·) <$> readGenericItems bundle rids rest
      else .error (.asserts .itemFile)
    else readGenericItems bundle rids rest

end Load

/-- The inner loop of `DDF_UpdateItemHandlesForIndex` -/
def assertItems (item : BitVec 10) : List (Item D) → Except Exit Unit
  | [] => .ok ()
  | _ :: items =>
    if item.toNat < Ddf.maxItems then assertItems (item + 1) items
    else .error (.asserts .itemIndex)

/-- The outer loop of `DDF_UpdateItemHandlesForIndex` -/
def assertSubDevices (subDevice : BitVec 4) : List (SubDevice D) → Except Exit Unit
  | [] => .ok ()
  | sub :: subDevices => do
      assertItems 0 sub.items
      if subDevice.toNat < Ddf.maxSubDevs then assertSubDevices (subDevice + 1) subDevices
      else .error (.asserts .subDeviceIndex)

/-- The assertions of `DDF_UpdateItemHandlesForIndex` for the description at an index -/
def assertHandles (loadCounter index : Nat) (ddf : DeviceDescription D) : Except Exit Unit :=
  if ¬ index < Ddf.maxDescriptions then .error (.asserts .descriptionIndex)
  else if ¬ (Ddf.minLoadCounter ≤ loadCounter ∧ loadCounter ≤ Ddf.maxLoadCounter) then
    .error (.asserts .loadCounter)
  else assertSubDevices 0 ddf.subDevices

section Load

variable (env : BundleEnv D) (st : LoadState) (file : List UInt8)

/-- The external files that the loop of `readAllBundles` puts into its list, the last one first -/
def externalFiles (c : ByteStream) : List ExtfChunk :=
  match walkStates (c.size + 2) ⟨env.room, c⟩ with
  | none => []
  | some states => ((collected states).map Prod.snd).reverse

/-- The external files of a bundle that is new and has a scheduled description -/
def filesToLoad : Option (List ExtfChunk) :=
  match findChunk (.ofBytes file) (tag "RIFF") with
  | (none, _) => none
  | (some _, bs) =>
    match findChunk bs (tag "DDFB") with
    | (none, _) => none
    | (some chunkSize, bs) =>
      if ddfbHash env.sha256 file (bs.sub chunkSize) ∈ st.hashes then none
      else
        match findChunk bs (tag "DESC") with
        | (none, _) => none
        | (some descSize, desc) =>
          if (isBundleScheduled env.timeFromISO8601 st.atoms
              ((file.drop (desc.start + desc.pos)).take descSize) st.records 0).1 then
            some (externalFiles env (bs.sub chunkSize))
          else none

/-- A description that was read is merged with the generic items, and gets its handles. -/
def addDescription (bundle : BundleFile) (rids : List Descriptor) (ddf : DeviceDescription D) :
    Except Exit (DeviceDescription D) := do
  let genericItems ← readGenericItems env bundle rids bundle.extChunks
  match mergeGenericBundleItems env.js bundle genericItems ddf with
  | none => .error .endless
  | some ddf => do
      assertHandles st.loadCounter st.hashes.length ddf
      return ddf

/-- The actual content of a bundle, in its main file -/
def loadMain (bundle : BundleFile) (extfDDFC : ExtfChunk) : Except Exit (DeviceDescription D) := do
  let (ddf, rids) ← readDeviceFile env bundle st.rids extfDDFC
  if ddf.isValid then addDescription env st bundle rids ddf else .error .skips

/-- What `readAllBundles` does with the external files of a bundle -/
def loadFiles (bundle : BundleFile) : Except Exit (DeviceDescription D) :=
  if bundle.extChunks = [] then .error .skips -- must not be empty
  else do
    let _ ← firstWithSchema bundle (tag "JSON") .constants2 bundle.extChunks
    let extfDDFC ← firstWithSchema bundle (tag "DDFC") .devCap1 bundle.extChunks
    match extfDDFC with
    | none => .error .skips -- main DDF JSON must be present
    | some extfDDFC => loadMain env st bundle extfDDFC

/-- One turn of the loop of `readAllBundles` -/
def loadBundle : Except Exit (DeviceDescription D) :=
  match filesToLoad env st file with
  | none => .error .skips
  | some extfs => loadFiles env st { data := file, extChunks := extfs }

end Load

def NeverAsserts {α : Type} (run : Except Exit α) : Prop := ∀ a, run ≠ .error (.asserts a)

section Exits

variable {α : Type}

theorem neverAsserts_ok (v : α) : NeverAsserts (.ok v) := fun _ h => nomatch h

theorem neverAsserts_skips : NeverAsserts (.error .skips : Except Exit α) := fun _ h => nomatch h

theorem neverAsserts_endless : NeverAsserts (.error .endless : Except Exit α) :=
  fun _ h => nomatch h

theorem not_neverAsserts (a : Assertion) :
    ¬ NeverAsserts (.error (.asserts a) : Except Exit α) := fun h => h a rfl

end Exits

/-! ## The steps -/

def BundleFile.hasSchema (bundle : BundleFile) (type : List UInt8) (schema : JsonSchema)
    (extf : ExtfChunk) : Bool :=
  decide (extf.fileType = type ∧ schemaOf (bundle.octets extf) = schema)

/-- No file of the type is empty up to the first one with the schema. -/
def BundleFile.SizesKnown (bundle : BundleFile) (type : List UInt8) (schema : JsonSchema)
    (extfs : List ExtfChunk) : Prop :=
  ∀ front extf back, extfs = front ++ extf :: back → extf.fileType = type →
    (∀ e ∈ front, bundle.hasSchema type schema e = false) → 0 < extf.fileSize

section Steps

variable {env : BundleEnv D} {bundle : BundleFile} {type : List UInt8} {schema : JsonSchema}

theorem sizesKnown_nil : bundle.SizesKnown type schema [] := by
  intro front extf back hsplit
  exact absurd hsplit.symm (append_ne_nil_of_right_ne_nil _ (cons_ne_nil _ _))

theorem sizesKnown_cons {extf : ExtfChunk} {rest : List ExtfChunk} :
    bundle.SizesKnown type schema (extf :: rest) ↔ (extf.fileType = type → 0 < extf.fileSize) ∧
      (bundle.hasSchema type schema extf = false → bundle.SizesKnown type schema rest) := by
  constructor
  · intro h
    refine ⟨fun htype => h [] extf rest rfl htype (fun e he => absurd he not_mem_nil), ?_⟩
    rintro hfirst front e back rfl htype hfront
    exact h (extf :: front) e back rfl htype (forall_mem_cons.mpr ⟨hfirst, hfront⟩)
  · rintro ⟨hsize, hrest⟩ front e back hsplit htype hfront
    cases front with
    | nil =>
      rw [(List.cons.inj hsplit).1] at hsize
      exact hsize htype
    | cons first front =>
      obtain ⟨rfl, rfl⟩ := List.cons.inj hsplit
      obtain ⟨hfirst, hfront⟩ := forall_mem_cons.mp hfront
      exact hrest hfirst front e back rfl htype hfront

theorem firstWithSchema_cons (extf : ExtfChunk) (rest : List ExtfChunk) :
    firstWithSchema bundle type schema (extf :: rest) = if extf.fileType = type ∧ ¬ 0 <
      extf.fileSize then .error (.asserts .jsonSchemaSize)
      else if bundle.hasSchema type schema extf then .ok (some extf)
      else firstWithSchema bundle type schema rest := by
  rw [firstWithSchema]
  by_cases htype : extf.fileType = type
  · rw [if_neg (not_not_intro htype)]
    unfold getJsonSchema BundleFile.hasSchema
    by_cases hsize : 0 < extf.fileSize
    · simp only [htype, hsize, not_true_eq_false, and_false, if_true, if_false, true_and,
        decide_eq_true_eq]
      rfl
    · rw [if_neg hsize, if_pos ⟨htype, hsize⟩]
      rfl
  · rw [if_pos htype, if_neg fun h => htype h.1, if_neg]
    exact Bool.eq_false_iff.mp (decide_eq_false fun h => htype h.1)

theorem firstWithSchema_of_sizesKnown {extfs : List ExtfChunk}
    (h : bundle.SizesKnown type schema extfs) : firstWithSchema bundle type schema extfs =
      .ok (extfs.find? (bundle.hasSchema type schema)) := by
  induction extfs with
  | nil => rfl
  | cons extf rest ih =>
    obtain ⟨hsize, hrest⟩ := sizesKnown_cons.mp h
    rw [firstWithSchema_cons, if_neg fun hempty => hempty.2 (hsize hempty.1), List.find?_cons]
    cases hfound : bundle.hasSchema type schema extf with
    | true => rfl
    | false => exact ih (hrest hfound)

theorem firstWithSchema_of_not {extfs : List ExtfChunk}
    (h : ¬ bundle.SizesKnown type schema extfs) :
    firstWithSchema bundle type schema extfs = .error (.asserts .jsonSchemaSize) := by
  induction extfs with
  | nil => exact absurd sizesKnown_nil h
  | cons extf rest ih =>
    rw [firstWithSchema_cons]
    split
    · rfl
    · rename_i hsize
      have hknown : extf.fileType = type → 0 < extf.fileSize := by
        intro htype
        by_contra hempty
        exact hsize ⟨htype, hempty⟩
      rw [sizesKnown_cons] at h
      split
      · rename_i hfound
        refine absurd ⟨hknown, fun hnot => ?_⟩ h
        exact absurd (hfound.symm.trans hnot) Bool.false_ne_true.symm
      · exact ih fun hrest => h ⟨hknown, fun _ => hrest⟩

def itemsOfFiles (env : BundleEnv D) (bundle : BundleFile) (rids : List Descriptor) :
    List ExtfChunk → List (Item D)
  | [] => []
  | extf :: rest =>
    if bundle.isItemFile extf then
      (readItemFile env bundle rids extf).1 ::
        itemsOfFiles env bundle (readItemFile env bundle rids extf).2 rest
    else itemsOfFiles env bundle rids rest

theorem readGenericItems_eq {rids : List Descriptor} {extfs : List ExtfChunk} :
    readGenericItems env bundle rids extfs = if ∀ item ∈
      itemsOfFiles env bundle rids extfs, item.isValid = true then
        .ok (itemsOfFiles env bundle rids extfs)
      else .error (.asserts .itemFile) := by
  induction extfs generalizing rids with
  | nil => exact (if_pos fun _ h => absurd h not_mem_nil).symm
  | cons extf rest ih =>
    rw [readGenericItems, itemsOfFiles]
    by_cases hfile : bundle.isItemFile extf = true
    · rw [if_pos hfile, if_pos hfile]
      simp only [forall_mem_cons]
      by_cases hvalid : (readItemFile env bundle rids extf).1.isValid = true
      · rw [if_pos hvalid, ih]
        simp only [hvalid, true_and]
        split
        · rfl
        · rfl
      · rw [if_neg hvalid, if_neg fun h => hvalid h.1]
    · rw [if_neg hfile, if_neg hfile]
      exact ih

theorem assertItems_eq {item : BitVec 10} {items : List (Item D)}
    (h : item.toNat ≤ Ddf.maxItems) : assertItems item items = if item.toNat + items.length ≤
      Ddf.maxItems then .ok () else .error (.asserts .itemIndex) := by
  induction items generalizing item with
  | nil => exact (if_pos h).symm
  | cons first items ih =>
    rw [assertItems, length_cons]
    unfold Ddf.maxItems at h ih ⊢
    by_cases hlt : item.toNat < 1023
    · have hnext : (item + 1).toNat = item.toNat + 1 := by bv_omega
      rw [if_pos hlt, ih (by omega), hnext, Nat.add_right_comm, Nat.add_assoc]
    · rw [if_neg hlt, if_neg (by omega)]

theorem neverAsserts_assertSubDevices_iff {subDevice : BitVec 4} {subs : List (SubDevice D)}
    (h : subDevice.toNat ≤ Ddf.maxSubDevs) :
    NeverAsserts (assertSubDevices subDevice subs) ↔
      (∀ sub ∈ subs, sub.items.length ≤ Ddf.maxItems) ∧ subDevice.toNat + subs.length ≤
        Ddf.maxSubDevs := by
  induction subs generalizing subDevice with
  | nil => exact iff_of_true (neverAsserts_ok _) ⟨fun _ h => absurd h not_mem_nil, h⟩
  | cons sub subs ih =>
    have hzero : (0 : BitVec 10).toNat = 0 := rfl
    have hitems : assertItems 0 sub.items = _ := assertItems_eq (Nat.zero_le _)
    rw [hzero, Nat.zero_add] at hitems
    rw [assertSubDevices, hitems, forall_mem_cons, length_cons]
    by_cases hlength : sub.items.length ≤ Ddf.maxItems
    · rw [if_pos hlength]
      unfold Ddf.maxSubDevs at h ih ⊢
      show NeverAsserts (if subDevice.toNat < 15 then _ else _) ↔ _
      by_cases hlt : subDevice.toNat < 15
      · have hnext : (subDevice + 1).toNat = subDevice.toNat + 1 := by bv_omega
        rw [if_pos hlt, ih (by omega), hnext, Nat.add_right_comm, Nat.add_assoc]
        exact ⟨fun hall => ⟨⟨hlength, hall.1⟩, hall.2⟩, fun hall => ⟨hall.1.2, hall.2⟩⟩
      · rw [if_neg hlt]
        exact iff_of_false (not_neverAsserts _) fun hall => by have := hall.2; omega
    · rw [if_neg hlength]
      exact iff_of_false (not_neverAsserts _) fun hall => hlength hall.1.1

end Steps

/-- The limits that `DDF_UpdateItemHandlesForIndex` asserts of a description -/
structure DeviceDescription.WithinLimits (ddf : DeviceDescription D) : Prop where
  subDevices : ddf.subDevices.length ≤ Ddf.maxSubDevs
  items : ∀ sub ∈ ddf.subDevices, sub.items.length ≤ Ddf.maxItems

theorem neverAsserts_assertHandles_iff {loadCounter index : Nat} {ddf : DeviceDescription D}
    (hmin : Ddf.minLoadCounter ≤ loadCounter) (hmax : loadCounter ≤ Ddf.maxLoadCounter) :
    NeverAsserts (assertHandles loadCounter index ddf) ↔ index < Ddf.maxDescriptions ∧
      ddf.WithinLimits := by
  unfold assertHandles
  by_cases hindex : index < Ddf.maxDescriptions
  · have hzero : (0 : BitVec 4).toNat = 0 := rfl
    have hsubs : NeverAsserts (assertSubDevices 0 ddf.subDevices) ↔ _ :=
      neverAsserts_assertSubDevices_iff (Nat.zero_le _)
    rw [hzero, Nat.zero_add] at hsubs
    rw [if_neg (not_not_intro hindex), if_neg (not_not_intro ⟨hmin, hmax⟩), hsubs]
    exact ⟨fun h => ⟨hindex, h.2, h.1⟩, fun h => ⟨h.2.items, h.2.subDevices⟩⟩
  · rw [if_pos hindex]
    exact iff_of_false (not_neverAsserts _) fun h => hindex h.1

theorem map_length_merge {js : ScriptEnv D} {bundle : BundleFile} {genericItems : List (Item D)}
    {ddf merged : DeviceDescription D}
    (h : mergeGenericBundleItems js bundle genericItems ddf = some merged) :
    (merged.subDevices.map fun sub => sub.items.length) =
      ddf.subDevices.map fun sub => sub.items.length := by
  unfold mergeGenericBundleItems at h
  obtain ⟨subs, hsubs, rfl⟩ := map_eq_some_iff.mp h
  refine map_of_mapM _ _ (fun sub sub' hsub => ?_) hsubs
  unfold mergeBundleSubDevice at hsub
  obtain ⟨items, hitems, rfl⟩ := map_eq_some_iff.mp hsub
  have hlength := congrArg List.length
    (map_of_mapM (fun _ => ()) (fun _ => ()) (fun _ _ _ => rfl) hitems)
  rwa [length_map, length_map] at hlength

theorem withinLimits_iff {ddf : DeviceDescription D} : ddf.WithinLimits ↔
    (ddf.subDevices.map fun sub => sub.items.length).length ≤ Ddf.maxSubDevs ∧ ∀ n ∈
      ddf.subDevices.map fun sub => sub.items.length, n ≤ Ddf.maxItems := by
  rw [length_map, List.forall_mem_map]
  exact ⟨fun h => ⟨h.subDevices, h.items⟩, fun h => ⟨h.1, h.2⟩⟩

theorem withinLimits_merge_iff {js : ScriptEnv D} {bundle : BundleFile}
    {genericItems : List (Item D)} {ddf merged : DeviceDescription D}
    (h : mergeGenericBundleItems js bundle genericItems ddf = some merged) :
    merged.WithinLimits ↔ ddf.WithinLimits := by
  rw [withinLimits_iff, withinLimits_iff, map_length_merge h]

/-! ## Bundles -/

def BundleFile.mainFile (bundle : BundleFile) : Option ExtfChunk :=
  bundle.extChunks.find? (bundle.hasSchema (tag "DDFC") .devCap1)

/-- What the assertions ask of the external files of a bundle: no file of which the schema is looked
for is empty, the main file is longer than 64 octets, and if it is a description, all files of
generic items are items and the numbers of its sub-devices and items are within their limits. -/
structure Sound (env : BundleEnv D) (st : LoadState) (bundle : BundleFile) : Prop where
  constants : bundle.SizesKnown (tag "JSON") .constants2 bundle.extChunks
  description : bundle.SizesKnown (tag "DDFC") .devCap1 bundle.extChunks
  main : ∀ extf, bundle.mainFile = some extf → 64 < extf.fileSize
  items : ∀ extf, bundle.mainFile = some extf → (deviceOf env bundle st.rids extf).1.isValid =
    true →
    ∀ item ∈ itemsOfFiles env bundle (deviceOf env bundle st.rids extf).2 bundle.extChunks,
      item.isValid = true
  limits : ∀ extf, bundle.mainFile = some extf → (deviceOf env bundle st.rids extf).1.isValid =
    true →
    -- otherwise the merge does not end
    AllScriptsEnd env.js bundle
      (itemsOfFiles env bundle (deviceOf env bundle st.rids extf).2 bundle.extChunks)
      (deviceOf env bundle st.rids extf).1 →
    st.hashes.length < Ddf.maxDescriptions ∧ (deviceOf env bundle st.rids extf).1.WithinLimits

/-- Loading the bundle meets no assertion that fails. -/
def Safe (env : BundleEnv D) (st : LoadState) (file : List UInt8) : Prop :=
  (isValidDDFBundle env.sha256 file).isSome = true → NeverAsserts (loadBundle env st file)

section Bundles

variable {env : BundleEnv D} {st : LoadState} {bundle : BundleFile}

theorem neverAsserts_addDescription_iff {rids : List Descriptor} {ddf : DeviceDescription D} :
    NeverAsserts (addDescription env st bundle rids ddf) ↔
      (∀ item ∈ itemsOfFiles env bundle rids bundle.extChunks, item.isValid = true) ∧
        (AllScriptsEnd env.js bundle (itemsOfFiles env bundle rids bundle.extChunks) ddf →
          st.hashes.length < Ddf.maxDescriptions ∧ ddf.WithinLimits) := by
  unfold addDescription
  rw [readGenericItems_eq]
  by_cases hvalid : ∀ item ∈ itemsOfFiles env bundle rids bundle.extChunks, item.isValid = true
  · rw [if_pos hvalid, and_iff_right hvalid, ← isSome_mergeGenericBundleItems_iff]
    show NeverAsserts (match mergeGenericBundleItems env.js bundle
      (itemsOfFiles env bundle rids bundle.extChunks) ddf with
      | none => .error .endless
      | some ddf => do
          assertHandles st.loadCounter st.hashes.length ddf
          return ddf) ↔ _
    cases hmerge : mergeGenericBundleItems env.js bundle
        (itemsOfFiles env bundle rids bundle.extChunks) ddf with
    | none => exact iff_of_true neverAsserts_endless fun h => absurd h Bool.false_ne_true
    | some merged =>
      have hhandles : NeverAsserts (assertHandles st.loadCounter st.hashes.length merged) ↔ _ :=
        neverAsserts_assertHandles_iff st.minCounter st.maxCounter
      rw [withinLimits_merge_iff hmerge] at hhandles
      rw [isSome_some, eq_self_iff_true, forall_true_left, ← hhandles]
      simp only
      cases assertHandles st.loadCounter st.hashes.length merged with
      | ok u => exact iff_of_true (neverAsserts_ok _) (neverAsserts_ok _)
      | error exit =>
        exact ⟨fun h a ha => h a (Except.error.inj ha ▸ rfl),
          fun h a ha => h a (Except.error.inj ha ▸ rfl)⟩
  · rw [if_neg hvalid]
    exact iff_of_false (not_neverAsserts _) fun h => hvalid h.1

theorem neverAsserts_loadMain_iff {extf : ExtfChunk} :
    NeverAsserts (loadMain env st bundle extf) ↔ 64 < extf.fileSize ∧
      ((deviceOf env bundle st.rids extf).1.isValid = true →
        NeverAsserts (addDescription env st bundle (deviceOf env bundle st.rids extf).2
          (deviceOf env bundle st.rids extf).1)) := by
  unfold loadMain readDeviceFile
  by_cases hsize : 64 < extf.fileSize
  · rw [if_pos hsize, and_iff_right hsize]
    show NeverAsserts (if (deviceOf env bundle st.rids extf).1.isValid then
      addDescription env st bundle (deviceOf env bundle st.rids extf).2
        (deviceOf env bundle st.rids extf).1
      else .error .skips) ↔ _
    split
    · rename_i hvalid
      exact ⟨fun h _ => h, fun h => h hvalid⟩
    · rename_i hnot
      exact iff_of_true neverAsserts_skips fun h => absurd h hnot
  · rw [if_neg hsize]
    exact iff_of_false (not_neverAsserts _) fun h => hsize h.1

theorem neverAsserts_loadFiles_iff :
    NeverAsserts (loadFiles env st bundle) ↔ Sound env st bundle := by
  unfold loadFiles
  by_cases hempty : bundle.extChunks = []
  · rw [if_pos hempty]
    have hknown (type : List UInt8) (schema : JsonSchema) :
        bundle.SizesKnown type schema bundle.extChunks := by
      rw [hempty]
      exact sizesKnown_nil
    have hmain (extf : ExtfChunk) : bundle.mainFile ≠ some extf := by
      unfold BundleFile.mainFile
      rw [hempty]
      exact (some_ne_none extf).symm
    exact iff_of_true neverAsserts_skips ⟨hknown _ _, hknown _ _,
      fun extf h => absurd h (hmain extf), fun extf h => absurd h (hmain extf),
      fun extf h => absurd h (hmain extf)⟩
  · rw [if_neg hempty]
    by_cases hconstants : bundle.SizesKnown (tag "JSON") .constants2 bundle.extChunks
    · by_cases hdescription : bundle.SizesKnown (tag "DDFC") .devCap1 bundle.extChunks
      · rw [firstWithSchema_of_sizesKnown hconstants, firstWithSchema_of_sizesKnown hdescription]
        show NeverAsserts (match bundle.mainFile with
          | none => .error .skips
          | some extfDDFC => loadMain env st bundle extfDDFC) ↔ _
        cases hmain : bundle.mainFile with
        | none =>
          exact iff_of_true neverAsserts_skips ⟨hconstants, hdescription,
            fun _ h => absurd (hmain.symm.trans h) (some_ne_none _).symm,
            fun _ h => absurd (hmain.symm.trans h) (some_ne_none _).symm,
            fun _ h => absurd (hmain.symm.trans h) (some_ne_none _).symm⟩
        | some extf =>
          simp only
          rw [neverAsserts_loadMain_iff, neverAsserts_addDescription_iff]
          constructor
          · rintro ⟨hsize, hrest⟩
            refine ⟨hconstants, hdescription, fun e he => ?_, fun e he => ?_, fun e he => ?_⟩ <;>
              obtain rfl := some_inj.mp (hmain.symm.trans he)
            · exact hsize
            · exact fun hvalid => (hrest hvalid).1
            · exact fun hvalid => (hrest hvalid).2
          · intro h
            exact ⟨h.main extf hmain,
              fun hvalid => ⟨h.items extf hmain hvalid, h.limits extf hmain hvalid⟩⟩
      · rw [firstWithSchema_of_sizesKnown hconstants, firstWithSchema_of_not hdescription]
        exact iff_of_false (not_neverAsserts _) fun h => hdescription h.description
    · rw [firstWithSchema_of_not hconstants]
      exact iff_of_false (not_neverAsserts _) fun h => hconstants h.constants

/-- A valid bundle meets no assertion that fails exactly if its external files are sound, where it
is new and has a scheduled description. -/
theorem safe_iff (env : BundleEnv D) (st : LoadState) (file : List UInt8) :
    Safe env st file ↔ ((isValidDDFBundle env.sha256 file).isSome = true →
      ∀ extfs, filesToLoad env st file = some extfs →
        Sound env st { data := file, extChunks := extfs }) := by
  refine imp_congr_right fun _ => ?_
  unfold loadBundle
  cases filesToLoad env st file with
  | none => exact iff_of_true neverAsserts_skips fun _ h => absurd h (some_ne_none _).symm
  | some extfs =>
    simp only
    rw [neverAsserts_loadFiles_iff]
    exact ⟨fun h _ heq => some_inj.mp heq ▸ h, fun h => h extfs rfl⟩

end Bundles

def emptyConstants : List UInt8 :=
  [82, 73, 70, 70, 95, 0, 0, 0, 68, 68, 70, 66, 87, 0, 0, 0, 68, 69, 83, 67, 59, 0, 0, 0, 123, 34,
    108, 97, 115, 116, 95, 109, 111, 100, 105, 102, 105, 101, 100, 34, 58, 34, 34, 44, 34, 100,
    101, 118, 105, 99, 101, 95, 105, 100, 101, 110, 116, 105, 102, 105, 101, 114, 115, 34, 58, 91,
    91, 34, 76, 85, 77, 73, 34, 44, 34, 112, 108, 117, 103, 34, 93, 93, 125, 69, 88, 84, 70, 12, 0,
    0, 0, 74, 83, 79, 78, 0, 0, 0, 0, 0, 0, 0, 0]

def waitingState : LoadState where
  hashes := []
  loadCounter := 1
  minCounter := Nat.le_refl 1
  maxCounter := by decide
  atoms := Ddf.sampleAtoms
  records := [Ddf.upperCaseDevice.loadRecord .scheduled]
  rids := [{ suffix := "state/on", isValid := true }]

def anyEnv : BundleEnv Unit where
  sha256 _ := [0]
  timeFromISO8601 _ := 0
  room := 4
  fromJson _ := none
  ddf := onlyOn
  js := noScripts

/-- The schema of the empty file is looked for. -/
theorem emptyConstants_asserts :
    loadBundle anyEnv waitingState emptyConstants = .error (.asserts .jsonSchemaSize) ∧
      ¬ Safe anyEnv waitingState emptyConstants := by
  have hfiles : filesToLoad anyEnv waitingState emptyConstants =
      some [{ fileType := tag "JSON", path := 97, fileData := 103 }] := by decide +kernel
  have hasserts : loadBundle anyEnv waitingState emptyConstants =
      .error (.asserts .jsonSchemaSize) := by
    unfold loadBundle
    rw [hfiles]
    rfl
  exact ⟨hasserts, fun h => h (by decide +kernel) _ hasserts⟩

end DeviceObject
end DeconzRest

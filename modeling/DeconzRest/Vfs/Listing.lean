import DeconzRest.Lib.Paging
import DeconzRest.Vfs.Resources

/-!
# Directory listings

A request asks for the entries of a directory from an index on, and for no more than a number of
them.  The response says with which index to go on.
-/

namespace DeconzRest
namespace Vfs

open Paging List

structure DirEntry where
  name : List UInt8
  isDir : Bool
  icon : UInt16
deriving DecidableEq, Repr

/-- `am_ls_dir_req` -/
structure LsDirReq where
  url : UrlParse
  reqIndex : Nat
  maxCount : Nat
deriving DecidableEq, Repr

/-- The response up to the message it is written to -/
inductive LsDirRsp where
  | notFound
  | fail
  | ok (reqIndex nextIndex count : Nat) (entries : List DirEntry)
deriving DecidableEq, Repr

def directory (name : List UInt8) : DirEntry := { name, isDir := true, icon := 0 }

/-- `LS_Element` -/
structure LsElement where
  name : List UInt8
  isDir : Bool
deriving DecidableEq, Repr

/-- The characters of the next path element that fit into the buffer, and whether a slash comes
behind them; `none` if the suffix is not below the path. -/
def nextElement (path suffix : List UInt8) : Option LsElement :=
  if suffix.length ≤ path.length then none
  else if !path.isPrefixOf suffix then none
  else
    let str := (suffix.drop path.length).take 31
    let name := str.takeWhile (· ≠ slash)
    if name = [] then none -- unlikely
    else some { name, isDir := name.length < str.length }

/-- `plListElements`: an element that agrees with the whole new name up to its end counts as
already in the list. -/
def listElements (path : List UInt8) (ls : List LsElement) (item : Item) : List LsElement :=
  match nextElement path item.suffix with
  | none => ls
  | some element =>
    if ls.any fun l => element.name.isPrefixOf l.name then ls else ls ++ [element]

/-- `plCreateItemElementListForPathIndex` -/
def createItemElementList (url : UrlParse) (r : Resource) (pathAt : Nat) : List LsElement :=
  let path := (url.elements.drop pathAt).flatMap fun element => element ++ [slash]
  r.foldl (listElements path) []

/-- The loop over the elements, at the index `i` with `count` entries written -/
def itemsLoop (req : LsDirReq) : List LsElement → Nat → Nat → List DirEntry
  | [], _, _ => []
  | l :: ls, i, count =>
    if req.reqIndex ≤ i then
      if count = req.maxCount then itemsLoop req ls (i + 1) count
      else
        { name := l.name, isDir := l.isDir, icon := if l.isDir then 0 else 1 } ::
          itemsLoop req ls (i + 1) (count + 1)
    else itemsLoop req ls (i + 1) count

/-- The part of `PL_ListDirectoryDevices2Req` for items; the next index is always 0. -/
def listItems (req : LsDirReq) (r : Resource) (pathAt : Nat) (subdevices : Bool) : LsDirRsp :=
  let ls := createItemElementList req.url r pathAt
  let entries := itemsLoop req ls 0 0
  -- append /devices/<mac>/subdevices after items
  let entries :=
    if req.url.elementCount = 2 ∧ req.reqIndex ≤ ls.length ∧ entries.length < req.maxCount ∧
        subdevices then
      entries ++ [directory (octets "subdevices")]
    else entries
  .ok req.reqIndex 0 entries.length entries

/-- The loop over the sub-devices, at the index `i` with `count` entries written -/
def subDevicesLoop (req : LsDirReq) : List Resource → Nat → Nat → List DirEntry
  | [], _, _ => []
  | sub :: subs, i, count =>
    if req.reqIndex ≤ i then
      if count = req.maxCount then subDevicesLoop req subs (i + 1) count
      else
        match uniqueIdItem sub with
        | none => subDevicesLoop req subs (i + 1) count -- unlikely
        | some uniqueId =>
          if uniqueId.cString = [] then subDevicesLoop req subs (i + 1) count
          else directory uniqueId.cString :: subDevicesLoop req subs (i + 1) (count + 1)
    else subDevicesLoop req subs (i + 1) count

/-- `PL_ListDirectoryDevicesSubdevicesReq` for three path elements -/
def listDirectoryDevicesSubdevices (req : LsDirReq) (device : Device) : LsDirRsp :=
  let entries := subDevicesLoop req device.subDevices 0 0
  let count := entries.length + req.reqIndex
  .ok req.reqIndex (if count = device.subDevices.length then 0 else count) count entries

/-- `PL_ListDirectoryDevices2Req` -/
def listDirectoryDevices2 (lib : Library) (devices : Option (List Device)) (req : LsDirReq) :
    LsDirRsp :=
  if vfsMaxUrlLength < req.url.text.length then .fail
  else
    let mac := lib.macFromUrlString (req.url.elementAt 1)
    if mac = 0 then .notFound
    else
      match getDeviceForMac devices mac with
      | none => .notFound
      | some device =>
        -- check if this request is about subdevices
        if 3 ≤ req.url.elementCount ∧ req.url.elementAt 2 = octets "subdevices" then
          if req.url.elementCount = 3 then listDirectoryDevicesSubdevices req device
          else
            match getSubDevice lib device (req.url.elementAt 3) with
            | none => .notFound
            | some subDevice => listItems req subDevice 4 (!device.subDevices.isEmpty)
        else listItems req device.items 2 (!device.subDevices.isEmpty)

/-- The loop over the devices from the requested index on: the index where it ends, the next
index, and the entries. -/
def devicesLoop (lib : Library) (maxCount : Nat) :
    List Device → Nat → Nat → Nat → Nat × Nat × List DirEntry
  | [], i, nextIndex, _ => (i, nextIndex, [])
  | device :: devices, i, nextIndex, count =>
    if count < maxCount then
      let entry := directory (lib.macText device.key)
      if count + 1 = 16 then (i, nextIndex + 1, [entry])
      else
        let (i, nextIndex, entries) :=
          devicesLoop lib maxCount devices (i + 1) (nextIndex + 1) (count + 1)
        (i, nextIndex, entry :: entries)
    else devicesLoop lib maxCount devices (i + 1) (nextIndex + 1) count

/-- `PL_ListDirectoryDevicesReq` -/
def listDirectoryDevices (lib : Library) (devices : Option (List Device)) (req : LsDirReq) :
    LsDirRsp :=
  if req.url.elementCount = 1 then
    match devices with
    | none => .ok req.reqIndex 0 0 []
    | some devs =>
      let (i, nextIndex, entries) :=
        devicesLoop lib req.maxCount (devs.drop req.reqIndex) req.reqIndex req.reqIndex 0
      .ok req.reqIndex (if i = devs.length ∨ entries = [] then 0 else nextIndex) entries.length
        entries
  else if 2 ≤ req.url.elementCount then listDirectoryDevices2 lib devices req
  else .notFound

/-- `PL_ListDirectoryReq` -/
def listDirectory (lib : Library) (devices : Option (List Device)) (req : LsDirReq) : LsDirRsp :=
  if req.url.text = [] ∧ req.reqIndex = 0 then
    .ok req.reqIndex 0 2 [directory (octets ".actor"), directory (octets "devices")]
  else if 1 ≤ req.url.elementCount then
    if req.url.elementAt 0 = octets "devices" then listDirectoryDevices lib devices req
    else if req.url.text = octets ".actor" ∧ req.reqIndex = 0 ∧ req.url.elementCount = 1 then
      .ok req.reqIndex 0 1 [{ name := octets "name", isDir := false, icon := 1 }]
    else .notFound
  else .notFound

def LsDirRsp.page : LsDirRsp → Option (Page DirEntry)
  | .ok _ nextIndex count entries => some { next := nextIndex, count, entries }
  | _ => none

def serve (lib : Library) (devices : Option (List Device)) (url : UrlParse) (maxCount index : Nat) :
    Option (Page DirEntry) :=
  (listDirectory lib devices { url, reqIndex := index, maxCount }).page

theorem text_ne_nil {url : UrlParse} (h : url.elementAt 0 = octets "devices") : url.text ≠ [] := by
  have hhead : octets "devices" ≠ [] := by decide
  obtain ⟨elements⟩ := url
  cases elements with
  | nil => exact absurd h.symm hhead
  | cons element elements =>
    have helement : element = octets "devices" := h
    intro htext
    simp only [UrlParse.text, UrlParse.textFrom, drop_zero] at htext
    cases elements with
    | nil => exact hhead (by simpa [List.intercalate, helement] using htext)
    | cons next elements => simp [List.intercalate, helement, octets] at htext

theorem serve_devices {lib : Library} {devices : Option (List Device)} {url : UrlParse}
    (h : url.elementAt 0 = octets "devices") (maxCount index : Nat) :
    serve lib devices url maxCount index =
      (listDirectoryDevices lib devices { url, reqIndex := index, maxCount }).page := by
  have hcount : 1 ≤ url.elementCount := by
    obtain ⟨elements⟩ := url
    cases elements with
    | nil => exact absurd h (by decide)
    | cons element elements => simp [UrlParse.elementCount]
  unfold serve listDirectory
  rw [if_neg (fun hempty => text_ne_nil h hempty.1), if_pos hcount, if_pos h]

/-! ### Devices -/

section Devices

variable (lib : Library)

def deviceEntry (device : Device) : DirEntry := directory (lib.macText device.key)

variable {maxCount : Nat}

theorem devicesLoop_small (hmax : maxCount < 16) (devs : List Device) :
    ∀ i nextIndex count, devicesLoop lib maxCount devs i nextIndex count =
      (i + devs.length, nextIndex + devs.length,
        (devs.take (maxCount - count)).map (deviceEntry lib)) := by
  induction devs with
  | nil => simp [devicesLoop]
  | cons device devs ih =>
    intro i nextIndex count
    rw [devicesLoop, ih, ih, length_cons, Nat.add_assoc, Nat.add_assoc, Nat.add_comm 1 devs.length]
    split
    · rename_i hroom
      have hnot : ¬ count + 1 = 16 := by omega
      have htake : maxCount - count = (maxCount - (count + 1)) + 1 := by omega
      simp only [if_neg hnot]
      rw [htake, take_succ_cons, map_cons]
      rfl
    · rename_i hfull
      have hzero : maxCount - count = 0 := by omega
      rw [hzero, take_zero, take_zero]

theorem devicesLoop_page (hmax : 16 ≤ maxCount) (devs : List Device) :
    ∀ i nextIndex count, count < 16 → devicesLoop lib maxCount devs i nextIndex count =
      if 16 - count ≤ devs.length then
        (i + (15 - count), nextIndex + (16 - count), (devs.take (16 - count)).map (deviceEntry lib))
      else (i + devs.length, nextIndex + devs.length, devs.map (deviceEntry lib)) := by
  induction devs with
  | nil =>
    intro i nextIndex count hcount
    rw [if_neg (by simp; omega)]
    rfl
  | cons device devs ih =>
    intro i nextIndex count hcount
    rw [devicesLoop, if_pos (by omega)]
    simp only [length_cons]
    by_cases hlast : count + 1 = 16
    · have hcount15 : count = 15 := by omega
      subst hcount15
      rw [if_pos rfl, if_pos (by omega)]
      rfl
    · rw [if_neg hlast, ih (i + 1) (nextIndex + 1) (count + 1) (by omega)]
      by_cases hmore : 16 - (count + 1) ≤ devs.length
      · have htake : 16 - count = (16 - (count + 1)) + 1 := by omega
        have hi : i + 1 + (15 - (count + 1)) = i + (15 - count) := by omega
        have hnext : nextIndex + 1 + (16 - (count + 1)) = nextIndex + (16 - count) := by omega
        rw [if_pos hmore, if_pos (by omega), hi, hnext, htake, take_succ_cons, map_cons]
        rfl
      · have hi : i + 1 + devs.length = i + (devs.length + 1) := by omega
        have hnext : nextIndex + 1 + devs.length = nextIndex + (devs.length + 1) := by omega
        rw [if_neg hmore, if_neg (by omega), hi, hnext, map_cons]
        rfl

def devicesUrl : UrlParse := { elements := [octets "devices"] }

variable (devs : List Device)

theorem serve_devicesUrl (maxCount index : Nat) :
    serve lib (some devs) devicesUrl maxCount index =
      let (i, nextIndex, entries) := devicesLoop lib maxCount (devs.drop index) index index 0
      some
        { next := if i = devs.length ∨ entries = [] then 0 else nextIndex
          count := entries.length
          entries } := by
  rw [serve_devices rfl]
  rfl

theorem map_name_deviceEntry :
    (devs.map (deviceEntry lib)).map DirEntry.name = devs.map fun device =>
      lib.macText device.key := by
  simp [deviceEntry, directory]

/-- **The devices** are listed completely exactly if one response holds them all or a response
may hold as many as there are in a page. -/
theorem devices_complete_iff (hmax : 1 ≤ maxCount) :
    Complete (serve lib (some devs) devicesUrl maxCount) DirEntry.name
        (devs.map fun device => lib.macText device.key) ↔
      devs.length ≤ maxCount ∨ 16 ≤ maxCount := by
  by_cases hpage : 16 ≤ maxCount
  · refine iff_of_true (complete_of_chunks fun index hindex => ?_) (.inr hpage)
    rw [length_map] at hindex
    rw [serve_devicesUrl, devicesLoop_page lib hpage _ _ _ _ (by omega)]
    have hlength : (devs.drop index).length = devs.length - index := length_drop ..
    by_cases hfull : 16 - 0 ≤ (devs.drop index).length
    · -- a page of 16, and the listing goes on behind it
      rw [if_pos hfull]
      refine ⟨_, rfl, rfl, .inr ⟨16, by omega, by rw [length_map]; omega, ?_, ?_⟩⟩
      · have hmore : ¬ (index + (15 - 0) = devs.length ∨
            ((devs.drop index).take (16 - 0)).map (deviceEntry lib) = []) := by
          rintro (hi | hempty)
          · omega
          · rw [map_eq_nil_iff, take_eq_nil_iff] at hempty
            rcases hempty with hzero | hempty
            · omega
            · rw [hempty] at hfull
              simp at hfull
        exact if_neg hmore
      · show (((devs.drop index).take 16).map (deviceEntry lib)).map DirEntry.name = _
        rw [map_name_deviceEntry, map_take, map_drop]
    · rw [if_neg hfull]
      have hend : index + (devs.drop index).length = devs.length := by omega
      refine ⟨_, rfl, rfl, .inl ⟨if_pos (.inl hend), ?_⟩⟩
      show ((devs.drop index).map (deviceEntry lib)).map DirEntry.name = _
      rw [map_name_deviceEntry, map_drop]
  · have hsmall : maxCount < 16 := by omega
    have hserve : serve lib (some devs) devicesUrl maxCount 0 =
        some
          { next := 0
            count := ((devs.take maxCount).map (deviceEntry lib)).length
            entries := (devs.take maxCount).map (deviceEntry lib) } := by
      rw [serve_devicesUrl, devicesLoop_small lib hsmall]
      simp
    rw [complete_iff_of_last hserve rfl]
    constructor
    · rintro ⟨hperm, -⟩
      have hlength := hperm.length_eq
      simp only [length_map, length_take] at hlength
      omega
    · rintro (hle | hge)
      · rw [map_name_deviceEntry, take_of_length_le hle]
        exact ⟨List.Perm.refl _, rfl⟩
      · exact absurd hge hpage

end Devices
/-! ### Sub-devices -/

def uniqueIdText (sub : Resource) : Option (List UInt8) :=
  match uniqueIdItem sub with
  | none => none
  | some uniqueId => if uniqueId.cString = [] then none else some uniqueId.cString

theorem subDevicesLoop_zero {req : LsDirReq} (hreq : req.reqIndex = 0) (subs : List Resource) :
    ∀ i count, count ≤ req.maxCount → subDevicesLoop req subs i count =
      ((subs.filterMap uniqueIdText).take (req.maxCount - count)).map directory := by
  induction subs with
  | nil => simp [subDevicesLoop]
  | cons sub subs ih =>
    intro i count hcount
    rw [subDevicesLoop, if_pos (by omega)]
    split
    · rename_i hfull
      have hzero : req.maxCount - count = 0 := by omega
      rw [ih _ _ hcount, hzero, take_zero, take_zero]
    · rename_i hroom
      have htake : req.maxCount - count = (req.maxCount - (count + 1)) + 1 := by omega
      simp only [uniqueIdText, filterMap_cons] at ih ⊢
      cases huid : uniqueIdItem sub with
      | none => exact ih _ _ hcount
      | some uniqueId =>
        simp only
        split
        · exact ih _ _ hcount
        · rw [ih _ _ (by omega), htake, take_succ_cons, map_cons]

/-- The URL is that of a device, or of something below it. -/
structure OfDevice (lib : Library) (devices : Option (List Device)) (url : UrlParse)
    (device : Device) : Prop where
  devicesDir : url.elementAt 0 = octets "devices"
  mac : lib.macFromUrlString (url.elementAt 1) = device.key
  key : device.key ≠ 0
  found : getDeviceForMac devices device.key = some device

section BelowDevice

variable {lib : Library} {devices : Option (List Device)} {url : UrlParse} {device : Device}

theorem serve_ofDevice (h : OfDevice lib devices url device) (hcount : 2 ≤ url.elementCount)
    (maxCount index : Nat) :
    serve lib devices url maxCount index =
      (listDirectoryDevices2 lib devices { url, reqIndex := index, maxCount }).page := by
  have hnot : ¬ url.elementCount = 1 := by omega
  rw [serve_devices h.devicesDir]
  unfold listDirectoryDevices
  rw [if_neg hnot, if_pos hcount]

theorem serve_tooLong (h : OfDevice lib devices url device) (hcount : 2 ≤ url.elementCount)
    (hlong : vfsMaxUrlLength < url.text.length) (maxCount : Nat) :
    serve lib devices url maxCount 0 = none := by
  rw [serve_ofDevice h hcount, listDirectoryDevices2, if_pos hlong]
  rfl

theorem listDirectoryDevices2_ofDevice (h : OfDevice lib devices url device)
    (hshort : url.text.length ≤ vfsMaxUrlLength) (maxCount index : Nat) :
    listDirectoryDevices2 lib devices { url, reqIndex := index, maxCount } = if 3 ≤
      url.elementCount ∧ url.elementAt 2 = octets "subdevices" then
        if url.elementCount = 3 then
          listDirectoryDevicesSubdevices { url, reqIndex := index, maxCount } device
        else
          match getSubDevice lib device (url.elementAt 3) with
          | none => .notFound
          | some subDevice =>
            listItems { url, reqIndex := index, maxCount } subDevice 4
              (!device.subDevices.isEmpty)
      else
        listItems { url, reqIndex := index, maxCount } device.items 2
          (!device.subDevices.isEmpty) := by
  have hnot : ¬ vfsMaxUrlLength < url.text.length := by omega
  unfold listDirectoryDevices2
  simp only [if_neg hnot, h.mac, if_neg h.key, h.found]

theorem length_filterMap_eq_iff {subs : List Resource} :
    (subs.filterMap uniqueIdText).length = subs.length ↔ ∀ sub ∈ subs, uniqueIdText sub ≠ none := by
  induction subs with
  | nil => simp
  | cons sub subs ih =>
    have hle := length_filterMap_le uniqueIdText subs
    cases huid : uniqueIdText sub with
    | none =>
      simp only [filterMap_cons, huid, length_cons]
      constructor
      · intro heq
        omega
      · intro hall
        exact absurd huid (hall sub mem_cons_self)
    | some text => simp [huid, ih]

theorem serve_subdevices (h : OfDevice lib devices url device) (hcount : url.elementCount = 3)
    (hdir : url.elementAt 2 = octets "subdevices") (hshort : url.text.length ≤ vfsMaxUrlLength)
    (maxCount index : Nat) :
    serve lib devices url maxCount index =
      let entries := subDevicesLoop { url, reqIndex := index, maxCount } device.subDevices 0 0
      some
        { next :=
            if entries.length + index = device.subDevices.length then 0 else entries.length + index
          count := entries.length + index
          entries } := by
  rw [serve_ofDevice h (by omega), listDirectoryDevices2_ofDevice h hshort, if_pos ⟨by omega, hdir⟩,
    if_pos hcount]
  rfl

/-- **The sub-devices** of a device are listed completely exactly if all have a unique id and one
response holds them, or if none has one. -/
theorem subdevices_complete_iff (h : OfDevice lib devices url device)
    (hcount : url.elementCount = 3) (hdir : url.elementAt 2 = octets "subdevices")
    {maxCount : Nat} (hmax : 1 ≤ maxCount) :
    Complete (serve lib devices url maxCount) DirEntry.name
        (device.subDevices.filterMap uniqueIdText) ↔
      url.text.length ≤ vfsMaxUrlLength ∧
        (((∀ sub ∈ device.subDevices, uniqueIdText sub ≠ none) ∧ device.subDevices.length ≤
            maxCount) ∨
          ∀ sub ∈ device.subDevices, uniqueIdText sub = none) := by
  by_cases hshort : url.text.length ≤ vfsMaxUrlLength
  · have hserve := serve_subdevices h hcount hdir hshort maxCount
    have hnames : (device.subDevices.filterMap uniqueIdText).length = device.subDevices.length ↔
        ∀ sub ∈ device.subDevices, uniqueIdText sub ≠ none := length_filterMap_eq_iff
    have hnone : device.subDevices.filterMap uniqueIdText = [] ↔ ∀ sub ∈
        device.subDevices, uniqueIdText sub = none := filterMap_eq_nil_iff
    have hfirst := hserve 0
    rw [subDevicesLoop_zero rfl _ _ _ (Nat.zero_le _)] at hfirst
    simp only [Nat.sub_zero, length_map, Nat.add_zero, length_take] at hfirst
    rw [← hnames, ← hnone, and_iff_right hshort]
    have hle := length_filterMap_le uniqueIdText device.subDevices
    generalize device.subDevices.filterMap uniqueIdText = names at *
    by_cases hlast : min maxCount names.length = device.subDevices.length ∨
        min maxCount names.length = 0
    · -- the first response is the last one, and it has all that have a unique id
      have hnext : (if min maxCount names.length = device.subDevices.length then 0
          else min maxCount names.length) = 0 := by
        split
        · rfl
        · rename_i hnot
          exact hlast.resolve_left hnot
      have hfits : names.length ≤ maxCount := by omega
      rw [complete_iff_of_last hfirst hnext]
      refine iff_of_true ⟨?_, ?_⟩ ?_
      · show ((names.take maxCount).map directory).map DirEntry.name |>.Perm names
        rw [take_of_length_le hfits, map_map]
        have hname : DirEntry.name ∘ directory = id := rfl
        rw [hname, map_id]
      · simp [Page.Counted]
      · rcases hlast with hall | hnothing
        · exact .inl ⟨by omega, by omega⟩
        · exact .inr (eq_nil_of_length_eq_zero (by omega))
    · rw [not_or] at hlast
      refine iff_of_false (not_complete_of_next hfirst ?_ ?_) ?_
      · rw [if_neg hlast.1]
        exact hlast.2
      · -- the count of the second response is too large
        intro page' hpage'
        rw [hserve] at hpage'
        cases hpage'
        simp only [Page.Counted, if_neg hlast.1]
        omega
      · rintro (⟨hall, hfits⟩ | rfl)
        · omega
        · simp at hlast
  · refine iff_of_false ?_ fun hboth => hshort hboth.1
    exact not_complete_of_none (serve_tooLong h (by omega) (by omega) maxCount)

end BelowDevice

/-! ### Items -/

def elementName (path suffix : List UInt8) : Option (List UInt8) :=
  if suffix.length ≤ path.length then none
  else if !path.isPrefixOf suffix then none
  else
    let name := (suffix.drop path.length).takeWhile (· ≠ slash)
    if name = [] then none else some name

theorem takeWhile_take {γ : Type} (p : γ → Bool) (n : Nat) (l : List γ) :
    (l.take n).takeWhile p = (l.takeWhile p).take n := by
  induction l generalizing n with
  | nil => simp
  | cons a l ih =>
    cases n with
    | zero => simp
    | succ n =>
      rw [take_succ_cons, takeWhile_cons, takeWhile_cons]
      split
      · rw [take_succ_cons, ih]
      · rfl

theorem nextElement_name (path suffix : List UInt8) :
    (nextElement path suffix).map LsElement.name = (elementName path suffix).map (·.take 31) := by
  unfold nextElement elementName
  split
  · rfl
  · split
    · rfl
    · simp only [takeWhile_take]
      generalize (suffix.drop path.length).takeWhile _ = name
      cases name with
      | nil => rfl
      | cons c name => simp

def pathFrom (url : UrlParse) (pathAt : Nat) : List UInt8 :=
  (url.elements.drop pathAt).flatMap fun element => element ++ [slash]

def elementNames (url : UrlParse) (r : Resource) (pathAt : Nat) : List (List UInt8) :=
  r.filterMap fun item => elementName (pathFrom url pathAt) item.suffix

/-- A name covers one that it is the front of. -/
def covers (n m : List UInt8) : Bool := n.isPrefixOf m

theorem covers_refl (n : List UInt8) : covers n n = true :=
  isPrefixOf_iff_prefix.mpr prefix_rfl

variable (url : UrlParse)

theorem createItemElementList_names (r : Resource) (pathAt : Nat) :
    (createItemElementList url r pathAt).map LsElement.name =
      uncovered covers ((elementNames url r pathAt).map (·.take 31)) := by
  unfold createItemElementList uncovered
  show (r.foldl (listElements (pathFrom url pathAt)) []).map LsElement.name = _
  unfold elementNames
  induction r using List.reverseRecOn with
  | nil => rfl
  | append_singleton r item ih =>
    have hname := nextElement_name (pathFrom url pathAt) item.suffix
    rw [foldl_append, filterMap_append, map_append]
    simp only [foldl_cons, foldl_nil, listElements]
    cases helement : nextElement (pathFrom url pathAt) item.suffix with
    | none =>
      rw [helement, Option.map_none] at hname
      have hnone : elementName (pathFrom url pathAt) item.suffix = none :=
        Option.map_eq_none_iff.mp hname.symm
      simp [hnone, ih]
    | some element =>
      rw [helement, Option.map_some] at hname
      obtain ⟨name, hsome, hcut⟩ := Option.map_eq_some_iff.mp hname.symm
      have hany : (uncovered covers ((r.filterMap fun item =>
          elementName (pathFrom url pathAt) item.suffix).map (·.take 31))).any
            (covers element.name) =
          (r.foldl (listElements (pathFrom url pathAt)) []).any fun l =>
            element.name.isPrefixOf l.name := by
        unfold uncovered
        rw [← ih, any_map]
        rfl
      have hlist : ([item].filterMap fun item =>
          elementName (pathFrom url pathAt) item.suffix).map (·.take 31) = [element.name] := by
        simp [hsome, hcut]
      rw [hlist, collect_concat]
      unfold uncovered at hany
      simp only [hany]
      split
      · exact ih
      · rw [map_append, ih]
        rfl

theorem itemsLoop_zero {req : LsDirReq} (hreq : req.reqIndex = 0) (ls : List LsElement) :
    ∀ i count, count ≤ req.maxCount → (itemsLoop req ls i count).map DirEntry.name =
      (ls.map LsElement.name).take (req.maxCount - count) := by
  induction ls with
  | nil => simp [itemsLoop]
  | cons l ls ih =>
    intro i count hcount
    rw [itemsLoop, if_pos (by omega)]
    split
    · rename_i hfull
      have hzero : req.maxCount - count = 0 := by omega
      rw [ih _ _ hcount, hzero, take_zero, take_zero]
    · rename_i hroom
      have htake : req.maxCount - count = (req.maxCount - (count + 1)) + 1 := by omega
      rw [map_cons, ih _ _ (by omega), htake, map_cons, take_succ_cons]

/-- What an item directory has: the next path elements of the items, each once, and behind those of
a device the directory of its sub-devices if it has some. -/
def itemDirectory (url : UrlParse) (r : Resource) (pathAt : Nat) (subdevices : Bool) :
    List (List UInt8) :=
  distinct (elementNames url r pathAt) ++ if url.elementCount = 2 ∧
    subdevices then [octets "subdevices"] else []

/-- An item directory can be listed: one response holds it, its names fit into the buffer, and
none is the front of one that was there before. -/
structure Listable (url : UrlParse) (r : Resource) (pathAt : Nat) (subdevices : Bool)
    (maxCount : Nat) : Prop where
  room : (itemDirectory url r pathAt subdevices).length ≤ maxCount
  buffer : ∀ name ∈ elementNames url r pathAt, name.length ≤ 31
  apart : (distinct (elementNames url r pathAt)).Pairwise fun before name => ¬ name <+: before

theorem listItems_page (r : Resource) (pathAt : Nat) (subdevices : Bool) (maxCount : Nat) :
    ∃ page, (listItems { url, reqIndex := 0, maxCount } r pathAt subdevices).page = some page ∧
      page.next = 0 ∧ page.Counted ∧
      page.entries.map DirEntry.name =
        (uncovered covers ((elementNames url r pathAt).map (·.take 31))).take maxCount ++
          if (url.elementCount = 2 ∧ subdevices) ∧
              (uncovered covers ((elementNames url r pathAt).map (·.take 31))).length < maxCount then
            [octets "subdevices"] else [] := by
  have hnames : (itemsLoop { url, reqIndex := 0, maxCount } (createItemElementList url r pathAt) 0
      0).map DirEntry.name =
      (uncovered covers ((elementNames url r pathAt).map (·.take 31))).take maxCount := by
    rw [itemsLoop_zero rfl _ _ _ (Nat.zero_le _), createItemElementList_names]
    rfl
  have hlength := congrArg List.length hnames
  rw [length_map, length_take] at hlength
  refine ⟨_, rfl, rfl, rfl, ?_⟩
  simp only
  rw [← hnames]
  split
  · rename_i hroom
    rw [if_pos ⟨⟨hroom.1, hroom.2.2.2⟩, by omega⟩, map_append]
    rfl
  · rename_i hnot
    rw [if_neg, append_nil]
    rintro ⟨⟨htwo, hsubs⟩, hroom⟩
    exact hnot ⟨htwo, Nat.zero_le _, by omega, hsubs⟩

theorem listItems_complete_iff (r : Resource) (pathAt : Nat) (subdevices : Bool) (maxCount : Nat)
    {serve : Nat → Option (Page DirEntry)}
    (hserve : serve 0 = (listItems { url, reqIndex := 0, maxCount } r pathAt subdevices).page) :
    Complete serve DirEntry.name (itemDirectory url r pathAt subdevices) ↔
      Listable url r pathAt subdevices maxCount := by
  obtain ⟨page, hpage, hnext, hcounted, hentries⟩ := listItems_page url r pathAt subdevices maxCount
  rw [complete_iff_of_last (hserve.trans hpage) hnext, and_iff_left hcounted, hentries]
  -- names that fit into the buffer are compared as they are
  have hshort : (∀ name ∈ elementNames url r pathAt, name.length ≤ 31) →
      (elementNames url r pathAt).map (·.take 31) = elementNames url r pathAt := by
    intro hbuffer
    rw [map_congr_left fun name hname => take_of_length_le (hbuffer name hname), map_id']
  have hpairwise : uncovered covers (elementNames url r pathAt) =
      distinct (elementNames url r pathAt) ↔
      (distinct (elementNames url r pathAt)).Pairwise fun before name => ¬ name <+: before := by
    rw [uncovered_eq_iff covers_refl]
    refine List.Pairwise.iff fun before name => ?_
    rw [← isPrefixOf_iff_prefix, Bool.not_eq_true]
    rfl
  constructor
  · intro hperm
    have hroom : (itemDirectory url r pathAt subdevices).length ≤ maxCount := by
      have hlength := hperm.length_eq
      rw [← hlength, List.length_append, length_take]
      split
      · rw [length_singleton]
        omega
      · rw [length_nil]
        omega
    have hbuffer : ∀ name ∈ elementNames url r pathAt, name.length ≤ 31 := by
      intro name hname
      have hmem := hperm.symm.subset
        (mem_append_left _ (mem_distinct.mpr hname) : name ∈ itemDirectory url r pathAt subdevices)
      rcases mem_append.mp hmem with hmem | hmem
      · have hcut := mem_distinct.mp ((uncovered_sublist covers_refl _).subset
          (mem_of_mem_take hmem))
        obtain ⟨name', -, rfl⟩ := mem_map.mp hcut
        exact length_take_le 31 name'
      · split at hmem
        · rw [mem_singleton.mp hmem]
          decide
        · cases hmem
    refine ⟨hroom, hbuffer, hpairwise.mp ?_⟩
    rw [hshort hbuffer] at hperm
    -- nothing is left out, as there is no room for it
    refine (uncovered_sublist covers_refl _).eq_of_length_le ?_
    have hlength := hperm.length_eq
    simp only [itemDirectory, List.length_append, length_take] at hlength
    by_cases hsubs : url.elementCount = 2 ∧ subdevices = true
    · rw [if_pos hsubs] at hlength
      split at hlength
      · simp only [length_singleton] at hlength
        omega
      · simp only [length_singleton, length_nil] at hlength
        omega
    · rw [if_neg hsubs, if_neg fun hboth => hsubs hboth.1] at hlength
      omega
  · rintro ⟨hroom, hbuffer, hapart⟩
    have hall := hpairwise.mpr hapart
    rw [hshort hbuffer, hall]
    unfold itemDirectory at hroom ⊢
    rw [List.length_append] at hroom
    rw [take_of_length_le (by omega)]
    by_cases hsubs : url.elementCount = 2 ∧ subdevices = true
    · rw [if_pos hsubs, length_singleton] at hroom
      rw [if_pos hsubs, if_pos ⟨hsubs, by omega⟩]
    · rw [if_neg hsubs, if_neg fun hboth => hsubs hboth.1]

section Items

variable {lib : Library} {devices : Option (List Device)} {url : UrlParse} {device : Device}

/-- **The items of a device** below a path are listed completely exactly if they are listable. -/
theorem items_complete_iff (h : OfDevice lib devices url device) (hcount : 2 ≤ url.elementCount)
    (hdir : url.elementAt 2 ≠ octets "subdevices") (maxCount : Nat) :
    Complete (serve lib devices url maxCount) DirEntry.name
        (itemDirectory url device.items 2 (!device.subDevices.isEmpty)) ↔
      url.text.length ≤ vfsMaxUrlLength ∧
        Listable url device.items 2 (!device.subDevices.isEmpty) maxCount := by
  by_cases hshort : url.text.length ≤ vfsMaxUrlLength
  · rw [and_iff_right hshort]
    refine listItems_complete_iff url _ _ _ _ ?_
    rw [serve_ofDevice h hcount, listDirectoryDevices2_ofDevice h hshort,
      if_neg fun hsub => hdir hsub.2]
  · refine iff_of_false ?_ fun hboth => hshort hboth.1
    exact not_complete_of_none (serve_tooLong h hcount (by omega) maxCount)

/-- **The items of a sub-device**, as those of a device -/
theorem subItems_complete_iff (h : OfDevice lib devices url device) (hcount : 4 ≤ url.elementCount)
    (hdir : url.elementAt 2 = octets "subdevices") {sub : Resource}
    (hsub : getSubDevice lib device (url.elementAt 3) = some sub) (maxCount : Nat) :
    Complete (serve lib devices url maxCount) DirEntry.name
        (itemDirectory url sub 4 (!device.subDevices.isEmpty)) ↔
      url.text.length ≤ vfsMaxUrlLength ∧
        Listable url sub 4 (!device.subDevices.isEmpty) maxCount := by
  by_cases hshort : url.text.length ≤ vfsMaxUrlLength
  · have hnot : ¬ url.elementCount = 3 := by omega
    rw [and_iff_right hshort]
    refine listItems_complete_iff url _ _ _ _ ?_
    rw [serve_ofDevice h (by omega), listDirectoryDevices2_ofDevice h hshort,
      if_pos ⟨by omega, hdir⟩, if_neg hnot, hsub]
  · refine iff_of_false ?_ fun hboth => hshort hboth.1
    exact not_complete_of_none (serve_tooLong h (by omega) (by omega) maxCount)

end Items

/-! ### All directories -/

/-- **When listings are complete**: of the devices, of the sub-devices of a device, and of the items
of a device or of a sub-device below a path. -/
theorem listing_complete_iff (lib : Library) (devs : List Device) {maxCount : Nat}
    (hmax : 1 ≤ maxCount) :
    (Complete (serve lib (some devs) devicesUrl maxCount) DirEntry.name
        (devs.map fun device => lib.macText device.key) ↔
      devs.length ≤ maxCount ∨ 16 ≤ maxCount) ∧
    ∀ url device, OfDevice lib (some devs) url device →
      (url.elementCount = 3 → url.elementAt 2 = octets "subdevices" →
        (Complete (serve lib (some devs) url maxCount) DirEntry.name
            (device.subDevices.filterMap uniqueIdText) ↔
          url.text.length ≤ vfsMaxUrlLength ∧
            (((∀ sub ∈ device.subDevices, uniqueIdText sub ≠ none) ∧ device.subDevices.length ≤
                maxCount) ∨
              ∀ sub ∈ device.subDevices, uniqueIdText sub = none))) ∧
      (2 ≤ url.elementCount → url.elementAt 2 ≠ octets "subdevices" →
        (Complete (serve lib (some devs) url maxCount) DirEntry.name
            (itemDirectory url device.items 2 (!device.subDevices.isEmpty)) ↔
          url.text.length ≤ vfsMaxUrlLength ∧
            Listable url device.items 2 (!device.subDevices.isEmpty) maxCount)) ∧
      (4 ≤ url.elementCount → url.elementAt 2 = octets "subdevices" →
        ∀ sub, getSubDevice lib device (url.elementAt 3) = some sub →
          (Complete (serve lib (some devs) url maxCount) DirEntry.name
              (itemDirectory url sub 4 (!device.subDevices.isEmpty)) ↔
            url.text.length ≤ vfsMaxUrlLength ∧
              Listable url sub 4 (!device.subDevices.isEmpty) maxCount)) := by
  refine ⟨devices_complete_iff lib devs hmax, fun url device h => ⟨?_, ?_, ?_⟩⟩
  · intro hcount hdir
    exact subdevices_complete_iff h hcount hdir hmax
  · intro hcount hdir
    exact items_complete_iff h hcount hdir maxCount
  · intro hcount hdir sub hsub
    exact subItems_complete_iff h hcount hdir hsub maxCount

def itemOf (suffix cString : String) : Item :=
  { suffix := octets suffix
    type := .string
    num := 0
    cString := octets cString
    atomIndex := 0
    lastSet := none }

def sampleDevices : List Device :=
  [{ key := 0x00212effff000001
     items := [itemOf "attr/name" "light", itemOf "state/on" ""]
     subDevices :=
       [[itemOf "attr/uniqueid" "00:21:2e:ff:ff:00:00:01-01"],
         [itemOf "attr/uniqueid" "00:21:2e:ff:ff:00:00:01-02"]] },
    { key := 0x00212effff000002
      items := [itemOf "state/temperature_bis" "", itemOf "state/temperature" ""]
      subDevices := [] }]

def sampleLibrary : Library where
  macFromUrlString text :=
    if text = octets "00:21:2e:ff:ff:00:00:01" then 0x00212effff000001
    else if text = octets "00:21:2e:ff:ff:00:00:02" then 0x00212effff000002
    else 0
  macText key :=
    if key = 0x00212effff000001 then octets "00:21:2e:ff:ff:00:00:01"
    else octets "00:21:2e:ff:ff:00:00:02"
  atomIndex _ := none
  vfsEntryModeReadonly := 0

def sampleSubdevices : UrlParse :=
  { elements := [octets "devices", octets "00:21:2e:ff:ff:00:00:01", octets "subdevices"] }

def sampleStates : UrlParse :=
  { elements := [octets "devices", octets "00:21:2e:ff:ff:00:00:02", octets "state"] }

theorem sample_ofDevice :
    OfDevice sampleLibrary (some sampleDevices) sampleSubdevices (sampleDevices.head (by decide)) where
  devicesDir := rfl
  mac := by decide +kernel
  key := by decide +kernel
  found := by decide +kernel

theorem sample_ofDevice_states :
    OfDevice sampleLibrary (some sampleDevices) sampleStates
      (sampleDevices.getLast (by decide)) where
  devicesDir := rfl
  mac := by decide +kernel
  key := by decide +kernel
  found := by decide +kernel

theorem listing_complete_iff_sample :
    Complete (serve sampleLibrary (some sampleDevices) devicesUrl 2) DirEntry.name
        (sampleDevices.map fun device => sampleLibrary.macText device.key) ∧
      ¬ Complete (serve sampleLibrary (some sampleDevices) sampleSubdevices 1) DirEntry.name
        ((sampleDevices.head (by decide)).subDevices.filterMap uniqueIdText) := by
  constructor
  · exact (listing_complete_iff sampleLibrary sampleDevices (by omega)).1.mpr (.inl (by decide))
  · intro hcomplete
    have hsub := ((listing_complete_iff sampleLibrary sampleDevices (Nat.le_refl 1)).2
      sampleSubdevices _
      sample_ofDevice).1 rfl rfl
    have hcondition := hsub.mp hcomplete
    revert hcondition
    decide +kernel

/-- With one entry in a response the second device is never listed, of the sub-devices the second
response counts two, and a name that is the front of one before it is left out. -/
theorem listings_not_complete :
    ¬ Complete (serve sampleLibrary (some sampleDevices) devicesUrl 1) DirEntry.name
        (sampleDevices.map fun device => sampleLibrary.macText device.key) ∧
      ¬ Complete (serve sampleLibrary (some sampleDevices) sampleSubdevices 1) DirEntry.name
        ((sampleDevices.head (by decide)).subDevices.filterMap uniqueIdText) ∧
      ¬ Complete (serve sampleLibrary (some sampleDevices) sampleStates 16) DirEntry.name
        (itemDirectory sampleStates (sampleDevices.getLast (by decide)).items 2 false) := by
  refine ⟨?_, ?_, ?_⟩
  · rw [devices_complete_iff sampleLibrary sampleDevices (Nat.le_refl 1)]
    decide
  · rw [subdevices_complete_iff sample_ofDevice rfl rfl (Nat.le_refl 1)]
    decide +kernel
  · intro hcomplete
    have hlistable := (items_complete_iff sample_ofDevice_states (by decide) (by decide) 16).mp
      hcomplete
    have hapart := hlistable.2.apart
    revert hapart
    decide +kernel

end Vfs
end DeconzRest

import DeconzRest.Lib.MapOption
import DeconzRest.Qt.Parts
import DeconzRest.Qt.Radix
import DeconzRest.Utils.UniqueId

/-!
# Base descriptions

A base description has a template for the unique id of each sub-device, in which endpoint and
cluster are written as `0x` numbers.  One reader takes them to base 0, the other one to base 10.
-/

namespace DeconzRest
namespace BaseDescription

open QString List Option

/-- `uniqueIdFromTemplate`; `extAddress` is that of the device. -/
def uniqueIdFromTemplate (extAddress : UInt64) : List QString → QString
  | first :: pos1 :: rest =>
    if first = ofLatin1 "$address.ext" then
      match toUIntC pos1, rest with
      | some endpoint, [] => generateUniqueId extAddress endpoint.toUInt8 0
      | some endpoint, pos2 :: _ =>
        if (pos2.head?.bind digitValue).isSome then
          match toUIntC pos2 with
          | some clusterId => generateUniqueId extAddress endpoint.toUInt8 clusterId.toUInt16
          | none => []
        else []
      | none, _ => []
    else []
  | _ => []

/-- `"0x" + part` -/
def hexPart (part : QString) : QString := ofLatin1 "0x" ++ part

/-- The template that `DEV_InitBaseDescriptionForDevice` makes of a unique id -/
def templateOf (uniqueId : QString) : Option (List QString) :=
  match split uniqueId '-' with
  | _ :: pos1 :: rest => some (ofLatin1 "$address.ext" :: hexPart pos1 :: match rest with
    | [] => []
    | pos2 :: more => hexPart pos2 :: more)
  | _ => none

/-- `QString::toUInt()`, to base 10; 0 where the text is no number. -/
def toUInt (s : QString) : Nat :=
  let text := s.trimmed
  let digits := if text.head? = some (unit '+') then text.tail else text
  ((digitsIn 10 digits).filter fun n => n < 2 ^ 32).getD 0

/-! ## Descriptions and devices -/

structure WriteParameters where
  fn : Option QString := none
  stateTimeout : Option Int := none
deriving DecidableEq

/-- `DeviceDescription::Item`; its handle and its refresh interval do not matter here. -/
structure Item where
  suffix : String
  hasDefault : Bool := false
  writeParameters : Option WriteParameters := none
deriving DecidableEq

/-- `DeviceDescription::SubDevice` -/
structure SubDevice where
  uniqueId : List QString
  items : List Item
deriving DecidableEq

/-- The `StateChange` with `SC_WriteZclAttribute`; the value it writes does not matter here. -/
structure StateChange where
  dstEndpoint : UInt8
  suffix : String
  stateTimeoutMs : Option Int := none
deriving DecidableEq

/-- A sub-device: its unique id is made of the address, an endpoint and a cluster. -/
structure Sub where
  endpoint : UInt8
  clusterId : UInt16
  id : QString := []
  suffixes : List String := []
  endpoint_ne : endpoint ≠ 0

structure Device where
  extAddress : UInt64
  manufacturerName : QString
  modelId : QString
  subDevices : List Sub

variable (generic : String → Option Item)

def Sub.uniqueId (d : Device) (sub : Sub) : QString :=
  generateUniqueId d.extAddress sub.endpoint sub.clusterId

/-- The generic item of a suffix, or one that is made for it; `generic` is `getGenericItem`. -/
def itemFor (suffix : String) : Item := (generic suffix).getD { suffix := suffix }

/-- The loop over the sub-devices in `DEV_InitBaseDescriptionForDevice` -/
def describe (d : Device) (sub : Sub) : Option SubDevice :=
  (templateOf (sub.uniqueId d)).map fun templ =>
    { uniqueId := templ, items := sub.suffixes.map (itemFor generic) }

/-- `DEV_InitBaseDescriptionForDevice`: the sub-devices of the description, or none if it returns
false. -/
def initBaseDescriptionForDevice (d : Device) : Option (List SubDevice) :=
  if d.manufacturerName = [] ∨ d.modelId = [] then none
  else d.subDevices.mapM (describe generic d)

/-- The item has a default value, and parameters that write it by ZCL. -/
def Item.writesDefault (item : Item) : Bool :=
  item.hasDefault && item.writeParameters.any fun p =>
    p.fn.getD [] = [] || startsWith (p.fn.getD []) (ofLatin1 "zcl")

def Item.stateChange (sub : SubDevice) (item : Item) : Option StateChange :=
  if item.writesDefault then
    some { dstEndpoint := UInt8.ofNat (toUInt (sub.uniqueId.getD 1 [])), suffix := item.suffix
           stateTimeoutMs := item.writeParameters.bind fun p =>
             (p.stateTimeout.filter (0 < ·)).map (1000 * ·) }
  else none

/-- `DEV_GetSubDevice`, without a prefix -/
def getSubDevice (d : Device) (identifier : QString) : Option Nat :=
  d.subDevices.findIdx? fun sub => sub.uniqueId d = identifier ∨ sub.id = identifier

/-- What `DEV_InitDeviceFromDescription` does: for each sub-device of the description the place of
the sub-device that was found, none if one is created, and the state changes that it gets; and what
is returned.  `created` is whether `DEV_InitCompatNodeFromDescription` creates one. -/
def initDeviceFromDescription (created : SubDevice → QString → Bool) (d : Device) :
    List SubDevice → List (Option Nat × List StateChange) × Bool
  | [] => ([], true)
  | sub :: ddf =>
    let uniqueId := uniqueIdFromTemplate d.extAddress sub.uniqueId
    if uniqueId = [] ∨ (getSubDevice d uniqueId = none ∧ ¬created sub uniqueId) then ([], false)
    else
      let rest := initDeviceFromDescription created d ddf
      ((getSubDevice d uniqueId, sub.items.filterMap (Item.stateChange sub)) :: rest.1, rest.2)

/-- A description addresses the device that it was made of. -/
structure Addresses (d : Device) (ddf : List SubDevice) : Prop where
  resolves : ddf.map (fun sub => uniqueIdFromTemplate d.extAddress sub.uniqueId) =
    d.subDevices.map (Sub.uniqueId d)
  succeeds : ∀ created, (initDeviceFromDescription created d ddf).2 = true
  endpoints : ∀ created, ∀ turn ∈ (initDeviceFromDescription created d ddf).1,
    ∃ i sub, turn.1 = some i ∧ d.subDevices[i]? = some sub ∧
      ∀ change ∈ turn.2, change.dstEndpoint = sub.endpoint

/-! ## Templates resolve -/

theorem hexChar_facts {c : UInt8} (h : isHexChar c = true) :
    Qt.hexDigit c.toUInt16 < 16 ∧ isSpace c.toUInt16 = false ∧ c.toUInt16 ≠ unit '-' := by
  have hall : ∀ n < 256, isHexChar (UInt8.ofNat n) = true →
      Qt.hexDigit (UInt8.ofNat n).toUInt16 < 16 ∧ isSpace (UInt8.ofNat n).toUInt16 = false ∧
        (UInt8.ofNat n).toUInt16 ≠ unit '-' := by
    decide +kernel
  have hc := hall c.toNat c.toNat_lt
  rw [UInt8.ofNat_toNat] at hc
  exact hc h

section Printed

variable {width n : Nat}

theorem mem_printed {u : QChar} (h : u ∈ ofLatin1Octets (printHex width n)) :
    Qt.hexDigit u < 16 ∧ isSpace u = false ∧ u ≠ unit '-' := by
  obtain ⟨c, hc, rfl⟩ := mem_map.mp h
  exact hexChar_facts (isHexChar_of_mem hc)

theorem printed_ne_nil : ofLatin1Octets (printHex (width + 1) n) ≠ [] := by
  intro hnil
  have hlength := congrArg List.length hnil
  rw [ofLatin1Octets, length_map, length_printHex] at hlength
  cases hlength

theorem trimmed_hexPart : (hexPart (ofLatin1Octets (printHex width n))).trimmed =
    hexPart (ofLatin1Octets (printHex width n)) := by
  have hfront : (ofLatin1 "0x").all (fun u => isSpace u = false) = true := by decide
  refine trimmed_of_not_space fun u hu => ?_
  rcases mem_append.mp hu with hu | hback
  · exact of_decide_eq_true (all_eq_true.mp hfront u hu)
  · exact (mem_printed hback).2.1

/-- To base 0 a printed number is read back. -/
theorem toUIntC_hexPart (hn : n < 16 ^ (width + 1)) (hbound : n < 2 ^ 32) :
    toUIntC (hexPart (ofLatin1Octets (printHex (width + 1) n))) = some (UInt32.ofNat n) := by
  have hdigits : digitsIn 16 (ofLatin1Octets (printHex (width + 1) n)) = some n := by
    have hvalue := hexValue_printHex hn
    rw [digitsIn, if_pos ⟨printed_ne_nil, all_eq_true.mpr fun u hu =>
      decide_eq_true (mem_printed hu).1⟩, ofLatin1Octets, foldl_map]
    exact congrArg some hvalue
  have hhead : (hexPart (ofLatin1Octets (printHex (width + 1) n))).head? ≠ some (unit '+') := by
    show some (unit '0') ≠ some (unit '+')
    decide
  have hc : cDigits (hexPart (ofLatin1Octets (printHex (width + 1) n))) = some n := by
    show cDigits (unit '0' :: unit 'x' :: ofLatin1Octets (printHex (width + 1) n)) = some n
    rw [cDigits, if_pos rfl, if_pos (.inl rfl), hdigits]
  unfold toUIntC toUnsigned
  simp only
  rw [trimmed_hexPart, if_neg hhead, hc, filter_some, if_pos (decide_eq_true hbound)]
  rfl

/-- To base 10 it is no number, because of the `x`. -/
theorem toUInt_hexPart : toUInt (hexPart (ofLatin1Octets (printHex width n))) = 0 := by
  have hhead : (hexPart (ofLatin1Octets (printHex width n))).head? ≠ some (unit '+') := by
    show some (unit '0') ≠ some (unit '+')
    decide
  have hx : unit 'x' ∈ hexPart (ofLatin1Octets (printHex width n)) :=
    mem_append_left _ (by decide)
  unfold toUInt
  simp only
  rw [trimmed_hexPart, if_neg hhead, digitsIn, if_neg]
  · rfl
  · intro h
    exact absurd (all_eq_true.mp h.2 _ hx) (by decide)

end Printed

theorem mem_mac {extAddress : UInt64} {u : QChar}
    (h : u ∈ ofLatin1Octets (printBytes (macBytes extAddress))) : u ≠ unit '-' := by
  have hbytes (bytes : List UInt8) : ∀ c ∈ printBytes bytes, isHexChar c = true ∨ c = 0x3A := by
    induction bytes with
    | nil => exact fun c hc => absurd hc not_mem_nil
    | cons b rest ih =>
      intro c hc
      cases rest with
      | nil => exact .inl (isHexChar_of_mem hc)
      | cons b' rest =>
        rw [printBytes, mem_append, mem_cons] at hc
        · rcases hc with hc | rfl | hc
          · exact .inl (isHexChar_of_mem hc)
          · exact .inr rfl
          · exact ih c hc
        · exact fun hnil => absurd hnil (cons_ne_nil b' rest)
  obtain ⟨c, hc, rfl⟩ := mem_map.mp h
  rcases hbytes _ c hc with hhex | rfl
  · exact (hexChar_facts hhex).2.2
  · decide

theorem split_append {front : QString} (hfront : front ≠ []) (hsep : unit '-' ∉ front)
    (back : QString) : split (front ++ unit '-' :: back) '-' = front :: split back '-' := by
  rw [split, parts_append_of_not_mem hsep, parts_cons_self, append_nil,
    filter_cons_of_pos (p := fun part => part ≠ []) (decide_eq_true hfront)]
  rfl

theorem split_of_not_mem {s : QString} (hs : s ≠ []) (hsep : unit '-' ∉ s) : split s '-' = [s] := by
  rw [split, parts_of_not_mem hsep,
    filter_cons_of_pos (p := fun part => part ≠ []) (decide_eq_true hs), filter_nil]

variable (d : Device) (sub : Sub)

/-- What is read of a template is what its unique id was made of. -/
theorem templateOf_generate : ∃ templ, templateOf (sub.uniqueId d) = some templ ∧
    uniqueIdFromTemplate d.extAddress templ = sub.uniqueId d ∧ toUInt (templ.getD 1 []) = 0 := by
  have hmac : unit '-' ∉ ofLatin1Octets (printBytes (macBytes d.extAddress)) :=
    fun h => mem_mac h rfl
  have hmac_ne : ofLatin1Octets (printBytes (macBytes d.extAddress)) ≠ [] := by
    intro hnil
    have hlength := congrArg List.length hnil
    rw [ofLatin1Octets, length_map, length_mac] at hlength
    cases hlength
  have hprinted (width n : Nat) : unit '-' ∉ ofLatin1Octets (printHex width n) :=
    fun h => (mem_printed h).2.2 rfl
  have hlt := sub.endpoint.toNat_lt
  have hendpoint : toUIntC (hexPart (ofLatin1Octets (printHex 2 sub.endpoint.toNat))) =
      some (UInt32.ofNat sub.endpoint.toNat) := toUIntC_hexPart hlt (by omega)
  have hendpoint8 : (UInt32.ofNat sub.endpoint.toNat).toUInt8 = sub.endpoint := by
    refine UInt8.toNat_inj.mp ?_
    rw [UInt32.toNat_toUInt8, UInt32.toNat_ofNat']
    omega
  unfold Sub.uniqueId templateOf
  rcases uniqueIdParts_cases sub.endpoint sub.clusterId with
    ⟨-, -, hparts⟩ | ⟨hnone, hne, hparts⟩ | ⟨-, hzero, -⟩
  · have hlt' := sub.clusterId.toNat_lt
    have hcluster : toUIntC (hexPart (ofLatin1Octets (printHex 4 sub.clusterId.toNat))) =
        some (UInt32.ofNat sub.clusterId.toNat) := toUIntC_hexPart hlt' (by omega)
    have hcluster16 : (UInt32.ofNat sub.clusterId.toNat).toUInt16 = sub.clusterId := by
      refine UInt16.toNat_inj.mp ?_
      rw [UInt32.toNat_toUInt16, UInt32.toNat_ofNat']
      omega
    have hsplit : split (generateUniqueId d.extAddress sub.endpoint sub.clusterId) '-' =
        [ofLatin1Octets (printBytes (macBytes d.extAddress)),
          ofLatin1Octets (printHex 2 sub.endpoint.toNat),
          ofLatin1Octets (printHex 4 sub.clusterId.toNat)] := by
      rw [generateUniqueId_eq, hparts, ofLatin1Octets_append]
      show split (_ ++ unit '-' :: ofLatin1Octets (printHex 2 _ ++ 0x2D :: printHex 4 _)) '-' = _
      rw [split_append hmac_ne hmac, ofLatin1Octets_append]
      show _ :: split (_ ++ unit '-' :: ofLatin1Octets (printHex 4 _)) '-' = _
      rw [split_append printed_ne_nil (hprinted _ _), split_of_not_mem printed_ne_nil
        (hprinted _ _)]
    rw [hsplit]
    refine ⟨_, rfl, ?_, toUInt_hexPart⟩
    have hdigit : ((hexPart (ofLatin1Octets (printHex 4 sub.clusterId.toNat))).head?.bind
        digitValue).isSome = true := by
      show ((some (unit '0')).bind digitValue).isSome = true
      decide
    simp only [uniqueIdFromTemplate, if_pos, hendpoint, hdigit, hcluster, hendpoint8, hcluster16]
  · have hsplit : split (generateUniqueId d.extAddress sub.endpoint sub.clusterId) '-' =
        [ofLatin1Octets (printBytes (macBytes d.extAddress)),
          ofLatin1Octets (printHex 2 sub.endpoint.toNat)] := by
      rw [generateUniqueId_eq, hparts, ofLatin1Octets_append]
      show split (_ ++ unit '-' :: ofLatin1Octets (printHex 2 _)) '-' = _
      rw [split_append hmac_ne hmac, split_of_not_mem printed_ne_nil (hprinted _ _)]
    rw [hsplit]
    refine ⟨_, rfl, ?_, toUInt_hexPart⟩
    -- the cluster is not printed, and 0 stands for it in the template
    have hzero : uniqueIdParts sub.endpoint 0 = uniqueIdParts sub.endpoint sub.clusterId := by
      rw [uniqueIdParts, uniqueIdParts, if_neg hnone, if_neg fun h => h.1 rfl]
    simp only [uniqueIdFromTemplate, if_pos, hendpoint, hendpoint8, generateUniqueId, hzero]
  · exact absurd hzero sub.endpoint_ne

/-! ## Base descriptions apply -/

section Applied

variable {generic} {d} {subs : List Sub} {ddf : List SubDevice}

/-- What a description has of a sub-device -/
structure Describes (generic : String → Option Item) (d : Device) (sub : Sub) (s : SubDevice) :
    Prop where
  resolves : uniqueIdFromTemplate d.extAddress s.uniqueId = sub.uniqueId d
  items : s.items = sub.suffixes.map (itemFor generic)
  base10 : toUInt (s.uniqueId.getD 1 []) = 0

theorem describes {s : SubDevice} (h : describe generic d sub = some s) :
    Describes generic d sub s := by
  obtain ⟨templ, htempl, hresolves, hbase10⟩ := templateOf_generate d sub
  rw [describe, htempl] at h
  cases h
  exact ⟨hresolves, rfl, hbase10⟩

theorem exists_getSubDevice (hsub : sub ∈ d.subDevices) :
    ∃ i found, getSubDevice d (sub.uniqueId d) = some i ∧ d.subDevices[i]? = some found := by
  cases hi : getSubDevice d (sub.uniqueId d) with
  | none =>
    have hnot := findIdx?_eq_none_iff.mp hi sub hsub
    exact absurd (.inl rfl) (of_decide_eq_false hnot)
  | some i =>
    obtain ⟨hlt, -⟩ := findIdx?_eq_some_iff_getElem.mp hi
    exact ⟨i, _, rfl, getElem?_eq_getElem hlt⟩

theorem uniqueId_ne_nil : sub.uniqueId d ≠ [] := by
  intro hnil
  have hlength := length_generateUniqueId d.extAddress sub.endpoint sub.clusterId
  rw [show generateUniqueId d.extAddress sub.endpoint sub.clusterId = [] from hnil,
    length_nil] at hlength
  omega

/-- No turn of the loop fails, since the sub-device of a description is found again. -/
theorem init_of_describes (created : SubDevice → QString → Bool)
    (h : ∀ s ∈ ddf, ∃ sub ∈ d.subDevices, Describes generic d sub s) :
    initDeviceFromDescription created d ddf = (ddf.map fun s =>
      (getSubDevice d (uniqueIdFromTemplate d.extAddress s.uniqueId),
        s.items.filterMap (Item.stateChange s)), true) := by
  induction ddf with
  | nil => rfl
  | cons s ddf ih =>
    obtain ⟨⟨sub, hsub, hs⟩, hrest⟩ := forall_mem_cons.mp h
    obtain ⟨i, found, hi, -⟩ := exists_getSubDevice sub hsub
    unfold initDeviceFromDescription
    rw [ih hrest, hs.resolves, if_neg, map_cons, hs.resolves]
    rw [hi]
    exact fun hfails => hfails.elim (uniqueId_ne_nil sub) fun hnone => nomatch hnone.1

end Applied

/-- **Base descriptions.**  Templates resolve and no sub-device is created, but no state change
that is queued has the endpoint of its sub-device. -/
theorem addresses_iff {ddf : List SubDevice}
    (hbase : initBaseDescriptionForDevice generic d = some ddf) :
    Addresses d ddf ↔ ∀ sub ∈ d.subDevices, ∀ suffix ∈ sub.suffixes,
      (itemFor generic suffix).writesDefault = false := by
  have hmapM : d.subDevices.mapM (describe generic d) = some ddf := by
    unfold initBaseDescriptionForDevice at hbase
    split at hbase
    · cases hbase
    · exact hbase
  have hddf : ∀ s ∈ ddf, ∃ sub ∈ d.subDevices, Describes generic d sub s := by
    intro s hs
    obtain ⟨i, hi⟩ := mem_iff_getElem?.mp hs
    rw [getElem?_of_mapM hmapM] at hi
    obtain ⟨sub, hsub, hdescribe⟩ := bind_eq_some_iff.mp hi
    exact ⟨sub, mem_of_getElem? hsub, describes sub hdescribe⟩
  have hinit := fun created => init_of_describes created hddf
  constructor
  · intro h sub hsub suffix hsuffix
    obtain ⟨k, hk⟩ := mem_iff_getElem?.mp hsub
    obtain ⟨s, hdescribe⟩ := isSome_iff_exists.mp
      (isSome_mapM_iff.mp (by rw [hmapM]; rfl) sub hsub)
    have hs : s ∈ ddf := mem_of_getElem? (by rw [getElem?_of_mapM hmapM, hk]; exact hdescribe)
    have hdescribes := describes sub hdescribe
    by_contra hwrites
    have hchange : (itemFor generic suffix).stateChange s ≠ none := by
      rw [Item.stateChange, if_pos (by simpa using hwrites)]
      exact some_ne_none _
    obtain ⟨change, hchange⟩ := ne_none_iff_exists'.mp hchange
    have hturn := h.endpoints (fun _ _ => false) _
      (by rw [hinit]; exact mem_map_of_mem hs)
    obtain ⟨i, found, -, -, hendpoint⟩ := hturn
    have hzero := hendpoint change (mem_filterMap.mpr
      ⟨itemFor generic suffix, by rw [hdescribes.items]; exact mem_map_of_mem hsuffix, hchange⟩)
    rw [Item.stateChange, hdescribes.base10] at hchange
    split at hchange
    · cases hchange
      exact found.endpoint_ne hzero.symm
    · cases hchange
  · intro h
    refine ⟨map_of_mapM _ _ (fun sub s hs => (describes sub hs).resolves) hmapM,
      fun created => by rw [hinit], fun created turn hturn => ?_⟩
    rw [hinit] at hturn
    obtain ⟨s, hs, rfl⟩ := mem_map.mp hturn
    obtain ⟨sub, hsub, hdescribes⟩ := hddf s hs
    obtain ⟨i, found, hi, hget⟩ := exists_getSubDevice sub hsub
    refine ⟨i, found, by rw [hdescribes.resolves]; exact hi, hget, fun change hchange => ?_⟩
    obtain ⟨item, hitem, hchange⟩ := mem_filterMap.mp hchange
    rw [hdescribes.items] at hitem
    obtain ⟨suffix, hsuffix, rfl⟩ := mem_map.mp hitem
    rw [Item.stateChange, h sub hsub suffix hsuffix] at hchange
    cases hchange

/-! A motion sensor whose duration has a generic item with a default value. -/

def genericDelay (suffix : String) : Option Item :=
  if suffix = "config/delay" then
    some { suffix := suffix, hasDefault := true, writeParameters := some {} }
  else none

theorem one_ne : (1 : UInt8) ≠ 0 := by decide

def sensorWith (suffixes : List String) : Device :=
  { extAddress := 0x00158D0001234567, manufacturerName := ofLatin1 "LUMI"
    modelId := ofLatin1 "lumi.sensor_motion"
    subDevices := [{ endpoint := 1, clusterId := 0x0406, suffixes := suffixes
                     endpoint_ne := one_ne }] }

def described : SubDevice :=
  { uniqueId := [ofLatin1 "$address.ext", ofLatin1 "0x01", ofLatin1 "0x0406"]
    items := [{ suffix := "config/delay", hasDefault := true, writeParameters := some {} }] }

/-- The state change goes to endpoint 0. -/
theorem delay_sent_to_endpoint_zero :
    initBaseDescriptionForDevice genericDelay (sensorWith ["config/delay"]) = some [described] ∧
      ¬Addresses (sensorWith ["config/delay"]) [described] := by
  refine ⟨by decide +kernel, fun h => ?_⟩
  have hrun : (initDeviceFromDescription (fun _ _ => false) (sensorWith ["config/delay"])
      [described]).1 = [(some 0, [{ dstEndpoint := 0, suffix := "config/delay" }])] := by
    decide +kernel
  obtain ⟨i, sub, hi, hget, hendpoint⟩ :=
    h.endpoints (fun _ _ => false) _ (by rw [hrun]; exact mem_singleton_self _)
  cases hi
  cases hget
  exact absurd (hendpoint _ (mem_singleton_self _)) (by decide)

theorem addresses_iff_presence :
    Addresses (sensorWith ["state/presence"])
        [{ described with items := [{ suffix := "state/presence" }] }] ↔
      ∀ sub ∈ (sensorWith ["state/presence"]).subDevices, ∀ suffix ∈ sub.suffixes,
        (itemFor genericDelay suffix).writesDefault = false :=
  addresses_iff genericDelay _ (by decide +kernel)

end BaseDescription
end DeconzRest

import DeconzRest.Ddf.RereadItem

/-!
# A description that is written and parsed again

`SubDevice.reread` and `DeviceDescription.reread` tell what comes back.  The writer leaves out
`supportsMgmtBind` and `buttonevents`; a description comes back exactly if it has none of these, if
its items come back, and if its texts and values survive (`reparsed_iff`).
-/

namespace DeconzRest
namespace DeviceObject

open List

open QString (ofLatin1 ofStd)
open QVariant (value contains)
open Json (Every Parts)

variable {D : Type} {env : DdfEnv D} {obj : JsonObject D}

/-! ## Sub-devices -/

structure ParsedSubDevice (env : DdfEnv D) (sub : SubDevice D) : Prop where
  type : sub.type ≠ []
  restApi : sub.restApi ≠ []
  uniqueId : sub.uniqueId ≠ []
  items_ne : sub.items ≠ []
  metaData : Every Parts.parsed (.map sub.metaData)
  items : ∀ item ∈ sub.items, ParsedItem env item

variable (env) in
def SubDevice.reread (ddfFull : Bool) (sub : SubDevice D) : SubDevice D :=
  { type := QString.repair sub.type
    restApi := QString.repair sub.restApi
    uniqueId := sub.uniqueId.map QString.repair
    metaData := rereadObject env sub.metaData
    items := sub.items.map (Item.reread env ddfFull)
    fingerPrint := if sub.fingerPrint.isValid then sub.fingerPrint else {} }

variable (env) in
theorem textOf_ofText (s : QString) :
    textOf ((Doc.ofText s : Doc D).read env) = QString.repair s := ofStd_stdString s

variable (ddfFull : Bool)

theorem subDeviceFields_names (sub : SubDevice D) :
    (subDeviceFields ddfFull sub).map Prod.fst =
      ["type", "restapi", "uuid", "meta", "fingerprint", "items"] := rfl

variable {sub : SubDevice D}

/-- **What comes back of a sub-device** -/
theorem parseSubDevice_subDeviceFields (henv : env.Documented) (ddfFull : Bool)
    (hsub : ParsedSubDevice env sub) :
    parseSubDevice env (readObject env (.ofFields (subDeviceFields ddfFull sub))) =
      sub.reread env ddfFull := by
  have h : HasFields env (readObject env (.ofFields (subDeviceFields ddfFull sub))) _ :=
    hasFields_readObject env _ (subDeviceFields_names ddfFull sub) (by decide)
  generalize readObject env (.ofFields (subDeviceFields ddfFull sub)) = obj at h
  have htype : textOf (value obj "type") = QString.repair sub.type := by
    rw [h.value "type"]
    exact textOf_ofText env sub.type
  have hrestApi : textOf (value obj "restapi") = QString.repair sub.restApi := by
    rw [h.value "restapi"]
    exact textOf_ofText env sub.restApi
  have huniqueId : ((arrayOf? (value obj "uuid")).getD []).map textOf =
      sub.uniqueId.map QString.repair := by
    rw [h.value "uuid"]
    show (readAll env (sub.uniqueId.map Doc.ofText)).map textOf = _
    rw [readAll_eq_map, map_map, map_map]
    exact map_congr_left fun s _ => textOf_ofText env s
  have hmeta : (objectOf? (value obj "meta")).getD [] = rereadObject env sub.metaData := by
    rw [h.value "meta"]
    show (objectOf? (((if sub.metaData.isEmpty then none else docOf (.map sub.metaData)).map
      (Doc.read env)).getD .invalid)).getD [] = _
    cases sub.metaData with
    | nil => rfl
    | cons e entries => rfl
  have hfingerprint : ((objectOf? (value obj "fingerprint")).bind parseFingerprint).getD {} =
      if sub.fingerPrint.isValid then sub.fingerPrint else {} := by
    rw [h.value "fingerprint"]
    show ((objectOf? (((if sub.fingerPrint.isValid then some (.ofFields (fingerprintFields
      sub.fingerPrint)) else none).map (Doc.read env)).getD .invalid)).bind parseFingerprint).getD
        {} = _
    by_cases hvalid : sub.fingerPrint.isValid = true
    · have hread : parseFingerprint (readObject env (.ofFields (fingerprintFields
          sub.fingerPrint))) = some sub.fingerPrint :=
        parseFingerprint_of_fields (hasFields_readObject env
          ["profile", "device", "endpoint", "in", "out"] rfl (by decide))
      rw [if_pos hvalid, if_pos hvalid, Option.map_some, Option.getD_some, objectOf?_ofFields,
        Option.bind_some, hread]
      rfl
    · rw [if_neg hvalid, if_neg hvalid]
      rfl
  have hbuttonEvents : value obj "buttonevents" = .invalid := h.value "buttonevents"
  have hitems : ((objectsOf ((arrayOf? (value obj "items")).getD [])).map
      (parseItem env)).filter Item.isValid = sub.items.map (Item.reread env ddfFull) := by
    have hparsed : (sub.items.map fun item => readObject env (.ofFields
        (itemFields ddfFull item))).map (parseItem env) =
          sub.items.map (Item.reread env ddfFull) := by
      rw [map_map]
      exact map_congr_left fun item hitem =>
        parseItem_itemFields henv ddfFull (hsub.items item hitem)
    rw [h.objects (by decide) rfl, hparsed]
    -- none is dropped by the filter on valid items
    refine filter_eq_self.mpr fun _ hmem => ?_
    obtain ⟨item, hitem, rfl⟩ := mem_map.mp hmem
    exact isValid_reread ddfFull (hsub.items item hitem)
  unfold parseSubDevice SubDevice.reread
  simp only [htype, hrestApi, huniqueId, hmeta, hfingerprint, hitems, hbuttonEvents]
  rw [if_neg (mt QString.repair_eq_nil_iff.mp hsub.type),
    if_neg (mt QString.repair_eq_nil_iff.mp hsub.restApi)]
  rfl

theorem isValid_subDevice_reread (hsub : ParsedSubDevice env sub) :
    (sub.reread env ddfFull).isValid = true := by
  have htype : QString.repair sub.type ≠ [] := mt QString.repair_eq_nil_iff.mp hsub.type
  have hrestApi : QString.repair sub.restApi ≠ [] := mt QString.repair_eq_nil_iff.mp hsub.restApi
  unfold SubDevice.isValid SubDevice.reread
  simp [htype, hrestApi, hsub.uniqueId, hsub.items_ne]

theorem every_objectsOf {v : QVariant D} (hv : Every Parts.parsed v) :
    ∀ o ∈ objectsOf ((arrayOf? v).getD []), Every Parts.parsed (.map o) := by
  intro o ho
  obtain ⟨w, hw, hobject⟩ := mem_filterMap.mp ho
  cases v with
  | list values =>
    rw [Every, Json.everyValue_iff] at hv
    exact every_objectOf? (hv w hw) hobject
  | invalid | bool _ | int _ | double _ | string _ | map _ => exact absurd hw not_mem_nil

theorem parsedSubDevice_parseSubDevice (henv : env.Documented)
    (hobj : Every Parts.parsed (.map obj))
    (hgeneric : ∀ item ∈ objectsOf ((arrayOf? (value obj "items")).getD []),
      contains item "schema" = false) (hvalid : (parseSubDevice env obj).isValid = true) :
    ParsedSubDevice env (parseSubDevice env obj) := by
  have hparts : (parseSubDevice env obj).type ≠ [] ∧ (parseSubDevice env obj).restApi ≠ [] ∧
      (parseSubDevice env obj).uniqueId ≠ [] ∧ (parseSubDevice env obj).items ≠ [] := by
    simpa [SubDevice.isValid, and_assoc] using hvalid
  obtain ⟨htype, hrestApi, huniqueId, hitems⟩ := hparts
  refine ⟨htype, hrestApi, huniqueId, hitems, ?_, ?_⟩
  · unfold parseSubDevice
    simp only
    split
    · exact ⟨trivial, List.Pairwise.nil⟩
    · split
      · exact ⟨trivial, List.Pairwise.nil⟩
      · cases hmeta : objectOf? (value obj "meta") with
        | none => exact ⟨trivial, List.Pairwise.nil⟩
        | some members => exact every_objectOf? (hobj.value "meta") hmeta
  · unfold parseSubDevice
    simp only
    split
    · exact fun _ hitem => absurd hitem not_mem_nil
    · split
      · exact fun _ hitem => absurd hitem not_mem_nil
      · intro _ hmem
        obtain ⟨hmem, hitem⟩ := mem_filter.mp hmem
        obtain ⟨o, ho, rfl⟩ := mem_map.mp hmem
        exact parsedItem_parseItem henv (every_objectsOf (hobj.value "items") o ho) (hgeneric o ho)
          hitem

variable (env) in
/-- There are no button events, the texts and the items come back, and a fingerprint without an
endpoint has nothing else. -/
structure KeptSubDevice (sub : SubDevice D) : Prop where
  type : QString.WellFormed sub.type
  restApi : QString.WellFormed sub.restApi
  uniqueId : ∀ s ∈ sub.uniqueId, QString.WellFormed s
  metaData : Kept env (.map sub.metaData)
  items : ∀ item ∈ sub.items, KeptItem env item
  fingerPrint : sub.fingerPrint.isValid = true ∨ sub.fingerPrint = {}
  buttonEvents : sub.buttonEvents = []

theorem map_repair_iff {texts : List QString} :
    texts.map QString.repair = texts ↔ ∀ s ∈ texts, QString.WellFormed s := by
  rw [map_eq_self_iff]
  exact forall₂_congr fun s _ => QString.repair_eq_self_iff

/-- **Which sub-devices come back** -/
theorem SubDevice.reread_eq_iff (hsub : ParsedSubDevice env sub) :
    sub.reread env ddfFull = sub ↔ KeptSubDevice env sub := by
  have hmeta : rereadObject env sub.metaData = _ ↔ _ := rereadObject_eq_iff hsub.metaData
  have hitems : sub.items.map (Item.reread env ddfFull) = sub.items ↔ ∀ item ∈
      sub.items, KeptItem env item := by
    rw [map_eq_self_iff]
    exact forall₂_congr fun item hitem => Item.reread_eq_iff ddfFull (hsub.items item hitem)
  constructor
  · intro h
    have hfingerprint : (if sub.fingerPrint.isValid then sub.fingerPrint else {}) =
      sub.fingerPrint := congrArg SubDevice.fingerPrint h
    refine ⟨QString.repair_eq_self_iff.mp (congrArg SubDevice.type h),
      QString.repair_eq_self_iff.mp (congrArg SubDevice.restApi h),
      map_repair_iff.mp (congrArg SubDevice.uniqueId h),
      hmeta.mp (congrArg SubDevice.metaData h), hitems.mp (congrArg SubDevice.items h), ?_,
      (congrArg SubDevice.buttonEvents h).symm⟩
    by_cases hvalid : sub.fingerPrint.isValid = true
    · exact .inl hvalid
    · rw [if_neg hvalid] at hfingerprint
      exact .inr hfingerprint.symm
  · intro h
    have hfingerprint : (if sub.fingerPrint.isValid then sub.fingerPrint else {}) =
        sub.fingerPrint := by
      rcases h.fingerPrint with hvalid | hdefault
      · exact if_pos hvalid
      · rw [hdefault]
        rfl
    unfold SubDevice.reread
    rw [QString.repair_eq_self_iff.mpr h.type, QString.repair_eq_self_iff.mpr h.restApi,
      map_repair_iff.mpr h.uniqueId, hmeta.mpr h.metaData, hitems.mpr h.items, hfingerprint,
      ← h.buttonEvents]

/-! ## Descriptions -/

structure ParsedDescription (env : DdfEnv D) (ddf : DeviceDescription D) : Prop where
  sleeper : ddf.sleeper = -1 ∨ ddf.sleeper = 0 ∨ ddf.sleeper = 1
  subDevices : ∀ sub ∈ ddf.subDevices, ParsedSubDevice env sub
  bindings : ∀ bnd ∈ ddf.bindings, ParsedBinding bnd ∧ bnd.isValid = true

variable (env) in
def DeviceDescription.reread (ddfFull : Bool) (ddf : DeviceDescription D) : DeviceDescription D :=
  { ddf with
    modelIds := ddf.modelIds.map QString.repair
    manufacturerNames := ddf.manufacturerNames.map QString.repair
    vendor := QString.repair ddf.vendor
    product := QString.repair ddf.product
    status := QString.repair ddf.status
    matchExpr := QString.repair ddf.matchExpr
    supportsMgmtBind := -1
    subDevices := ddf.subDevices.map (SubDevice.reread env ddfFull) }

variable (env) in
theorem parseStringOrList_ofTexts (texts : List QString) :
    parseStringOrList ((Doc.ofTexts texts : Doc D).read env) = texts.map QString.repair := by
  have harray : ∀ texts : List QString, parseStringOrList ((Doc.array (texts.map .ofText) :
      Doc D).read env) = texts.map QString.repair := by
    intro texts
    rw [Doc.read, readAll_eq_map, map_map, parseStringOrList, filterMap_map, ← filterMap_eq_map]
    exact filterMap_congr fun s _ => congrArg some (ofStd_stdString s)
  cases texts with
  | nil => exact harray []
  | cons s rest =>
    cases rest with
    | nil => exact congrArg (fun t => [t]) (ofStd_stdString s)
    | cons t rest => exact harray (s :: t :: rest)

theorem descriptionFields_names (ddf : DeviceDescription D) :
    (descriptionFields ddfFull ddf).map Prod.fst = ["schema", "manufacturername", "modelid",
      "vendor", "product", "sleeper", "status", "matchexpr", "subdevices", "bindings"] := rfl

/-- **What comes back of a description** -/
theorem reparsed_eq_reread (henv : env.Documented) (ddfFull : Bool) {ddf : DeviceDescription D}
    (hddf : ParsedDescription env ddf) : reparsed env ddfFull ddf = ddf.reread env ddfFull := by
  have h : HasFields env (readObject env (ddfSerializeV1 ddfFull ddf)) _ :=
    hasFields_readObject env _ (descriptionFields_names ddfFull ddf) (by decide)
  unfold reparsed
  generalize readObject env (ddfSerializeV1 ddfFull ddf) = obj at h
  have hschema : textOf (value obj "schema") = ofLatin1 "devcap1.schema.json" := by
    rw [h.text (by decide) rfl]
    exact ofStd_eq_ofLatin1 (by decide)
  have hmanufacturerNames : parseStringOrList (value obj "manufacturername") =
      ddf.manufacturerNames.map QString.repair := by
    rw [h.value "manufacturername"]
    exact parseStringOrList_ofTexts env ddf.manufacturerNames
  have hmodelIds : parseStringOrList (value obj "modelid") = ddf.modelIds.map QString.repair := by
    rw [h.value "modelid"]
    exact parseStringOrList_ofTexts env ddf.modelIds
  have hvendor : textOf (value obj "vendor") = QString.repair ddf.vendor := by
    rw [h.value "vendor"]
    exact textOf_textField ddf.vendor
  have hproduct : textOf (value obj "product") = QString.repair ddf.product := by
    rw [h.value "product"]
    exact textOf_textField ddf.product
  have hstatus : textOf (value obj "status") = QString.repair ddf.status := by
    rw [h.value "status"]
    exact textOf_ofText env ddf.status
  have hmatchExpr : textOf (value obj "matchexpr") = QString.repair ddf.matchExpr := by
    rw [h.value "matchexpr"]
    exact textOf_textField ddf.matchExpr
  have hsleeper : settingOf obj "sleeper" = ddf.sleeper := by
    unfold settingOf
    rw [h.value "sleeper", h.contains "sleeper"]
    show (if (if 0 ≤ ddf.sleeper then some (Doc.bool (0 < ddf.sleeper)) else none).isSome then
      (if boolOf (((if 0 ≤ ddf.sleeper then some (Doc.bool (0 < ddf.sleeper)) else none).map
        (Doc.read env)).getD .invalid) then 1 else 0) else -1) = ddf.sleeper
    -- a setting that was not given is not written either
    rcases hddf.sleeper with hunset | hfalse | htrue
    · rw [hunset]
      rfl
    · rw [hfalse]
      rfl
    · rw [htrue]
      rfl
  have hsupportsMgmtBind : settingOf obj "supportsMgmtBind" = -1 := by
    unfold settingOf
    rw [h.contains "supportsMgmtBind"]
    rfl
  have harray : arrayOf? (value obj "subdevices") = some (readAll env (ddf.subDevices.map fun sub =>
      .ofFields (subDeviceFields ddfFull sub))) := by
    rw [h.value "subdevices"]
    rfl
  have hsubDevices : ((objectsOf (readAll env (ddf.subDevices.map fun sub =>
      .ofFields (subDeviceFields ddfFull sub)))).map (parseSubDevice env)).filter
        SubDevice.isValid = ddf.subDevices.map (SubDevice.reread env ddfFull) := by
    have hparsed : (ddf.subDevices.map fun sub => readObject env (.ofFields
        (subDeviceFields ddfFull sub))).map (parseSubDevice env) =
          ddf.subDevices.map (SubDevice.reread env ddfFull) := by
      rw [map_map]
      exact map_congr_left fun sub hsub =>
        parseSubDevice_subDeviceFields henv ddfFull (hddf.subDevices sub hsub)
    rw [objectsOf_readAll, hparsed]
    -- none is dropped by the filter on valid sub-devices
    refine filter_eq_self.mpr fun _ hmem => ?_
    obtain ⟨sub, hsub, rfl⟩ := mem_map.mp hmem
    exact isValid_subDevice_reread ddfFull (hddf.subDevices sub hsub)
  have hbindings : ((objectsOf ((arrayOf? (value obj "bindings")).getD [])).filterMap
      (parseBinding env)).filter Binding.isValid = ddf.bindings := by
    rw [h.optionalObjects (by decide) rfl, filterMap_map]
    have hparsed : ddf.bindings.filterMap (parseBinding env ∘ fun bnd =>
        readObject env (.ofFields (bindingFields bnd))) = ddf.bindings := by
      rw [filterMap_eq_self_iff]
      intro bnd hbnd
      exact parseBinding_of_fields henv (hddf.bindings bnd hbnd).1 (hasFields_readObject env
        ["bind", "config.group", "src.ep", "dst.ep", "cl", "report"] rfl (by decide))
    rw [hparsed, filter_eq_self]
    exact fun bnd hbnd => (hddf.bindings bnd hbnd).2
  unfold parseDeviceObject DeviceDescription.reread
  rw [if_neg (not_not.mpr hschema), harray]
  simp only [hmanufacturerNames, hmodelIds, hvendor, hproduct, hstatus, hmatchExpr, hsleeper,
    hsupportsMgmtBind, hsubDevices, hbindings]

theorem settingOf_cases (obj : JsonObject D) (key : String) :
    settingOf obj key = -1 ∨ settingOf obj key = 0 ∨ settingOf obj key = 1 := by
  unfold settingOf
  split
  · split
    · exact .inr (.inr rfl)
    · exact .inr (.inl rfl)
  · exact .inl rfl

def NoGenericItems (obj : JsonObject D) : Prop :=
  ∀ sub ∈ objectsOf ((arrayOf? (value obj "subdevices")).getD []), ∀ item ∈
    objectsOf ((arrayOf? (value sub "items")).getD []), contains item "schema" = false

theorem parsedDescription_parseDeviceObject (henv : env.Documented)
    (hobj : Every Parts.parsed (.map obj)) (hgeneric : NoGenericItems obj) :
    ParsedDescription env (parseDeviceObject env obj) := by
  have hempty : ParsedDescription env ({} : DeviceDescription D) :=
    ⟨.inl rfl, fun _ h => absurd h not_mem_nil, fun _ h => absurd h not_mem_nil⟩
  unfold parseDeviceObject
  split
  · exact hempty
  · cases harray : arrayOf? (value obj "subdevices") with
    | none => exact hempty
    | some subDevices =>
      unfold NoGenericItems at hgeneric
      have hobjects := every_objectsOf (hobj.value "subdevices")
      rw [show (QVariant.map obj).toMap = obj from rfl] at hobjects
      rw [harray, Option.getD_some] at hgeneric hobjects
      refine ⟨settingOf_cases obj "sleeper", ?_, ?_⟩
      · intro _ hmem
        obtain ⟨hmem, hvalid⟩ := mem_filter.mp hmem
        obtain ⟨o, ho, rfl⟩ := mem_map.mp hmem
        exact parsedSubDevice_parseSubDevice henv (hobjects o ho) (hgeneric o ho) hvalid
      · intro bnd hmem
        obtain ⟨hmem, hvalid⟩ := mem_filter.mp hmem
        obtain ⟨o, -, hbnd⟩ := mem_filterMap.mp hmem
        exact ⟨parsedBinding_parseBinding hbnd, hvalid⟩

variable (env) in
/-- `supportsMgmtBind` is not set, and the texts and the sub-devices come back.  Nothing is asked of
the bindings. -/
structure KeptDescription (ddf : DeviceDescription D) : Prop where
  modelIds : ∀ s ∈ ddf.modelIds, QString.WellFormed s
  manufacturerNames : ∀ s ∈ ddf.manufacturerNames, QString.WellFormed s
  vendor : QString.WellFormed ddf.vendor
  product : QString.WellFormed ddf.product
  status : QString.WellFormed ddf.status
  matchExpr : QString.WellFormed ddf.matchExpr
  supportsMgmtBind : ddf.supportsMgmtBind = -1
  subDevices : ∀ sub ∈ ddf.subDevices, KeptSubDevice env sub

theorem DeviceDescription.reread_eq_iff {ddf : DeviceDescription D}
    (hddf : ParsedDescription env ddf) :
    ddf.reread env ddfFull = ddf ↔ KeptDescription env ddf := by
  have hsubDevices : ddf.subDevices.map (SubDevice.reread env ddfFull) = ddf.subDevices ↔ ∀ sub ∈
      ddf.subDevices, KeptSubDevice env sub := by
    rw [map_eq_self_iff]
    exact forall₂_congr fun sub hsub =>
      SubDevice.reread_eq_iff ddfFull (hddf.subDevices sub hsub)
  constructor
  · intro h
    exact ⟨map_repair_iff.mp (congrArg DeviceDescription.modelIds h),
      map_repair_iff.mp (congrArg DeviceDescription.manufacturerNames h),
      QString.repair_eq_self_iff.mp (congrArg DeviceDescription.vendor h),
      QString.repair_eq_self_iff.mp (congrArg DeviceDescription.product h),
      QString.repair_eq_self_iff.mp (congrArg DeviceDescription.status h),
      QString.repair_eq_self_iff.mp (congrArg DeviceDescription.matchExpr h),
      (congrArg DeviceDescription.supportsMgmtBind h).symm,
      hsubDevices.mp (congrArg DeviceDescription.subDevices h)⟩
  · intro h
    unfold DeviceDescription.reread
    rw [map_repair_iff.mpr h.modelIds, map_repair_iff.mpr h.manufacturerNames,
      QString.repair_eq_self_iff.mpr h.vendor, QString.repair_eq_self_iff.mpr h.product,
      QString.repair_eq_self_iff.mpr h.status, QString.repair_eq_self_iff.mpr h.matchExpr,
      hsubDevices.mpr h.subDevices, ← h.supportsMgmtBind]

/-! ## A lamp -/

def lampEnv : DdfEnv Int where
  toInt n := if -2 ^ 31 ≤ n ∧ n < 2 ^ 31 then some n else none
  ofInt n := n
  reread n := n
  descriptor name :=
    if name = "state/on" then
      some { suffix := "state/on", access := .readOnly, isValid := true }
    else none

theorem lampEnv_documented : lampEnv.Documented where
  toInt_ofInt n hlow hhigh := if_pos ⟨hlow, hhigh⟩
  toInt_range d n h := by
    obtain ⟨hrange, hn⟩ := Option.ite_none_right_eq_some.mp h
    exact Option.some_inj.mp hn ▸ hrange

def lampObject (more : JsonObject Int) : JsonObject Int :=
  let text (s : String) : QVariant Int := .string (ofLatin1 s)
  [(ofLatin1 "bindings", .list [.map [
      (ofLatin1 "bind", text "unicast"),
      (ofLatin1 "cl", text "0x0006"),
      (ofLatin1 "report", .list [.map [
        (ofLatin1 "at", text "0x0000"), (ofLatin1 "dt", text "0x10"),
        (ofLatin1 "max", .double 300), (ofLatin1 "min", .double 1)]]),
      (ofLatin1 "src.ep", .double 1)]]),
    (ofLatin1 "manufacturername", text "Vendor"),
    (ofLatin1 "modelid", .list [text "Lamp", text "Lamp 2"]),
    (ofLatin1 "schema", text "devcap1.schema.json"),
    (ofLatin1 "subdevices", .list [.map [
      (ofLatin1 "items", .list [.map [
        (ofLatin1 "default", .bool false), (ofLatin1 "name", text "state/on"),
        (ofLatin1 "public", .bool false), (ofLatin1 "refresh.interval", .double 5)]]),
      (ofLatin1 "restapi", text "/lights"),
      (ofLatin1 "type", text "$TYPE_ON_OFF_LIGHT"),
      (ofLatin1 "uuid", .list [text "$address.ext", text "01"])]])] ++ more

def lamp : DeviceDescription Int :=
  { modelIds := [ofLatin1 "Lamp", ofLatin1 "Lamp 2"]
    manufacturerNames := [ofLatin1 "Vendor"]
    subDevices :=
      [{ type := ofLatin1 "$TYPE_ON_OFF_LIGHT"
         restApi := ofLatin1 "/lights"
         uniqueId := [ofLatin1 "$address.ext", ofLatin1 "01"]
         items := [{ name := "state/on"
                     descriptor := { suffix := "state/on", access := .readOnly, isValid := true }
                     hasIsPublic := true
                     refreshInterval := 5
                     defaultValue := some (.bool false) }] }]
    bindings :=
      [{ clusterId := 6
         srcEndpoint := 1
         isUnicastBinding := true
         reporting :=
           [{ dataType := 0x10, minInterval := 1, maxInterval := 300, valid := true }] }] }

theorem parse_lampObject : parseDeviceObject lampEnv (lampObject []) = lamp := by rfl

instance : DecidablePred (Parts.parsed (D := D)).int := fun _ => .isFalse id

instance : DecidablePred (Parts.parsed (D := D)).double := fun _ => .isTrue trivial

instance : DecidablePred (Parts.parsed (D := D)).text := fun _ => .isTrue trivial

instance : DecidablePred (Parts.parsed (D := D)).keys :=
  fun keys => inferInstanceAs (Decidable (keys.Pairwise (· < ·)))

theorem noGenericItems_lampObject : NoGenericItems (lampObject []) := by
  unfold NoGenericItems
  decide

theorem wellFormed_text {s : String} (h : asciiName s = true) :
    QString.WellFormed (ofLatin1 s) := ofStd_eq_ofLatin1 h ▸ ⟨_, rfl⟩

theorem wellFormed_texts {l : List String} (h : l.all asciiName = true) :
    ∀ s ∈ l.map ofLatin1, QString.WellFormed s := by
  intro s hs
  obtain ⟨name, hname, rfl⟩ := mem_map.mp hs
  exact wellFormed_text (all_eq_true.mp h name hname)

theorem kept_lamp : KeptDescription lampEnv lamp where
  modelIds := wellFormed_texts (l := ["Lamp", "Lamp 2"]) (by decide)
  manufacturerNames := wellFormed_texts (l := ["Vendor"]) (by decide)
  vendor := QString.wellFormed_nil
  product := QString.wellFormed_nil
  status := QString.wellFormed_nil
  matchExpr := QString.wellFormed_nil
  supportsMgmtBind := rfl
  subDevices := forall_mem_singleton.mpr
    { type := wellFormed_text (by decide)
      restApi := wellFormed_text (by decide)
      uniqueId := wellFormed_texts (l := ["$address.ext", "01"]) (by decide)
      metaData := trivial
      items := forall_mem_singleton.mpr
        { hasIsPublic := rfl
          isPublic := rfl
          isImplicit := rfl
          isManaged := rfl
          access := rfl
          description := QString.wellFormed_nil
          refreshInterval := .inl (by decide)
          defaultValue := by
            intro v hv
            obtain rfl := Option.some_inj.mp hv
            exact trivial
          parse := nofun
          read := nofun
          write := nofun }
      fingerPrint := .inr rfl
      buttonEvents := rfl }

/-- **A description comes back** exactly if `KeptDescription` holds of it, whether or not the
generic parts are written as well. -/
theorem reparsed_iff (henv : env.Documented) (hobj : Every Parts.parsed (.map obj))
    (hgeneric : NoGenericItems obj) {ddf : DeviceDescription D}
    (hparsed : parseDeviceObject env obj = ddf) (ddfFull : Bool) :
    reparsed env ddfFull ddf = ddf ↔ KeptDescription env ddf := by
  subst hparsed
  have hddf := parsedDescription_parseDeviceObject henv hobj hgeneric
  rw [reparsed_eq_reread henv ddfFull hddf]
  exact DeviceDescription.reread_eq_iff ddfFull hddf

/-- The lamp comes back. -/
theorem lamp_comes_back : lamp.isValid = true ∧ reparsed lampEnv false lamp = lamp :=
  ⟨rfl, (reparsed_iff lampEnv_documented (by decide) noGenericItems_lampObject parse_lampObject
    false).mpr kept_lamp⟩

/-- With `supportsMgmtBind` it comes back without it. -/
theorem bindableLamp_lost :
    ¬ ∀ (obj : JsonObject Int) (ddf : DeviceDescription Int), Every Parts.parsed (.map obj) →
      NoGenericItems obj → parseDeviceObject lampEnv obj = ddf → ddf.isValid = true →
        ∀ ddfFull, reparsed lampEnv ddfFull ddf = ddf := by
  intro hall
  have hgeneric : NoGenericItems (lampObject [(ofLatin1 "supportsMgmtBind", .bool true)]) := by
    unfold NoGenericItems
    decide
  have hobj : Every Parts.parsed
      (.map (lampObject [(ofLatin1 "supportsMgmtBind", .bool true)])) := by
    decide
  have hback := hall _ _ hobj hgeneric rfl rfl true
  rw [reparsed_eq_reread lampEnv_documented true
    (parsedDescription_parseDeviceObject lampEnv_documented hobj hgeneric)] at hback
  -- the writer has no field for the setting
  have hsetting : (-1 : Int) = 1 := congrArg DeviceDescription.supportsMgmtBind hback
  exact absurd hsetting (by decide)

end DeviceObject
end DeconzRest

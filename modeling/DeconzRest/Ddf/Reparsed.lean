import DeconzRest.Ddf.Serialize

/-!
# What is parsed of the objects that were written

Reports and bindings come back as they were.  What comes back of items, sub-devices and
descriptions is told by `Item.reread`, `SubDevice.reread` and `DeviceDescription.reread`.
-/

namespace DeconzRest
namespace DeviceObject

open Option
open QString (ofLatin1 ofStd hexText toUIntC toUShortC)
open QVariant (value contains)
open Json (Every Parts)

variable {D : Type} {env : DdfEnv D} {obj : JsonObject D}

/-- What is documented of the numbers: integers come back, and `QJsonValue::toInt` is an `int`. -/
structure DdfEnv.Documented (env : DdfEnv D) : Prop where
  toInt_ofInt : ∀ n : Int, -2 ^ 31 ≤ n → n < 2 ^ 31 → env.toInt (env.ofInt n) = some n
  toInt_range : ∀ d n, env.toInt d = some n → -2 ^ 31 ≤ n ∧ n < 2 ^ 31

theorem intOf_ofInt (henv : env.Documented) (default : Int) {n : Int} (hlow : -2 ^ 31 ≤ n)
    (hhigh : n < 2 ^ 31) : intOf env default (.double (env.ofInt n)) = n := by
  rw [intOf, henv.toInt_ofInt n hlow hhigh]
  rfl

theorem intOf_range (henv : env.Documented) (v : QVariant D) :
    -2 ^ 31 ≤ intOf env 0 v ∧ intOf env 0 v < 2 ^ 31 := by
  have hzero : (-2 ^ 31 : Int) ≤ 0 ∧ (0 : Int) < 2 ^ 31 := by decide
  cases v with
  | double d =>
    rw [intOf]
    cases hd : env.toInt d with
    | none => exact hzero
    | some n => exact henv.toInt_range d n hd
  | invalid | bool _ | int _ | string _ | list _ | map _ => exact hzero

variable {greatest : Int} {n : Nat}

theorem boundedInt_ofInt (henv : env.Documented) (hgreatest : greatest < 2 ^ 31)
    (hn : (n : Int) ≤ greatest) :
    boundedInt env greatest (.double (env.ofInt n)) = some n := by
  rw [boundedInt, intOf_ofInt henv (-1) (by omega) (by omega)]
  exact (if_neg (by omega)).trans (congrArg some (Int.toNat_natCast n))

theorem boundedInt_le {v : QVariant D} (h : boundedInt env greatest v = some n) :
    (n : Int) ≤ greatest := by
  unfold boundedInt at h
  simp only at h
  split at h
  · exact absurd h (some_ne_none _).symm
  · obtain rfl := some_inj.mp h
    omega

def givenOr {β : Type} (obj : JsonObject D) (key : String) (absent : β)
    (f : QVariant D → Option β) : Option β :=
  if contains obj key then f (value obj key) else some absent

theorem objectOf?_ofFields (fields : List (String × Option (Doc D))) :
    objectOf? ((Doc.ofFields fields).read env) = some (readObject env (.ofFields fields)) := by
  unfold readObject Doc.ofFields
  rw [Doc.read]
  rfl

theorem objectsOf_readAll {α : Type} (fieldsOf : α → List (String × Option (Doc D)))
    (l : List α) : objectsOf (readAll env (l.map fun a => .ofFields (fieldsOf a))) =
      l.map fun a => readObject env (.ofFields (fieldsOf a)) := by
  rw [objectsOf, readAll_eq_map, List.map_map, List.filterMap_map, ← List.filterMap_eq_map]
  exact List.filterMap_congr fun a _ => objectOf?_ofFields (fieldsOf a)

theorem textOf_read (text : String) : textOf ((Doc.string text).read env) = ofStd text := rfl

section Fields

variable {fields : List (String × Option (Doc D))} (h : HasFields env obj fields) {key : String}
  (hkey : asciiName key = true)
include h hkey

theorem HasFields.text {text : String} (hfield : (fields.lookup key).join = some (.string text)) :
    textOf (QVariant.value obj key) = ofStd text := by
  rw [h.value key hkey, hfield]
  rfl

theorem HasFields.givenOr {p : Prop} [Decidable p] {doc : Doc D}
    (hfield : (fields.lookup key).join = if p then some doc else none) {β : Type}
    {f : QVariant D → Option β} {b : β} (hread : f (doc.read env) = some b) {absent : β}
    (habsent : ¬ p → b = absent) : DeviceObject.givenOr obj key absent f = some b := by
  unfold DeviceObject.givenOr
  rw [h.contains key hkey, h.value key hkey, hfield]
  by_cases hp : p
  · rw [if_pos hp]
    exact hread
  · rw [if_neg hp, habsent hp]
    rfl

theorem HasFields.givenTextOr {p : Prop} [Decidable p] {text : String}
    (hfield : (fields.lookup key).join = if p then some (.string text) else none) {β : Type}
    {f : QString → Option β} {b : β} (hread : f (ofStd text) = some b) {absent : β}
    (habsent : ¬ p → b = absent) :
    DeviceObject.givenOr obj key absent (fun v => f (textOf v)) = some b :=
  h.givenOr hkey hfield hread habsent

theorem HasFields.objects {α : Type} {fieldsOf : α → List (String × Option (Doc D))} {l : List α}
    (hfield : (fields.lookup key).join = some (.array (l.map fun a => .ofFields (fieldsOf a)))) :
    objectsOf ((arrayOf? (QVariant.value obj key)).getD []) =
      l.map fun a => readObject env (.ofFields (fieldsOf a)) := by
  rw [h.value key hkey, hfield, ← objectsOf_readAll]
  rfl

theorem HasFields.optionalObjects {α : Type} {fieldsOf : α → List (String × Option (Doc D))}
    {l : List α} (hfield : (fields.lookup key).join =
      if l.isEmpty then none else some (.array (l.map fun a => .ofFields (fieldsOf a)))) :
    objectsOf ((arrayOf? (QVariant.value obj key)).getD []) =
      l.map fun a => readObject env (.ofFields (fieldsOf a)) := by
  cases l with
  | nil =>
    rw [h.value key hkey, hfield]
    rfl
  | cons a l => exact h.objects hkey hfield

end Fields

theorem parseZclReport_eq (obj : JsonObject D) : parseZclReport env obj = if contains obj "at" &&
    contains obj "dt" && contains obj "min" && contains obj "max" then
      (toUShortC (textOf (value obj "at"))).bind fun attributeId =>
      ((toUShortC (textOf (value obj "dt"))).filter fun dt => dt ≤ 0xFF).bind fun dataType =>
      (boundedInt env 65535 (value obj "min")).bind fun minInterval =>
      (boundedInt env 65535 (value obj "max")).bind fun maxInterval =>
      (givenOr obj "change" 0 fun v => toUIntC (textOf v)).bind fun reportableChange =>
      (givenOr obj "mf" 0 fun v => toUShortC (textOf v)).bind fun manufacturerCode =>
      some { reportableChange, attributeId, minInterval := .ofNat minInterval,
             maxInterval := .ofNat maxInterval, manufacturerCode,
             dataType := dataType.toUInt8, valid := true }
    else none := by
  unfold parseZclReport givenOr
  cases contains obj "change" with
  | false =>
    cases contains obj "mf" with
    | false => rfl
    | true => rfl
  | true =>
    cases contains obj "mf" with
    | false => rfl
    | true => rfl

/-- **A report comes back.** -/
theorem parseZclReport_of_fields (henv : env.Documented) {rep : ZclReport}
    (hvalid : rep.valid = true) (h : HasFields env obj (reportFields rep)) :
    parseZclReport env obj = some rep := by
  have hfits : ∀ n : UInt16, (n.toNat : Int) ≤ 65535 := by
    intro n
    have hlt := n.toNat_lt
    omega
  have hgiven : (contains obj "at" && contains obj "dt" && contains obj "min" &&
      contains obj "max") = true := by
    rw [h.contains "at", h.contains "dt", h.contains "min", h.contains "max"]
    rfl
  have hattributeId : toUShortC (textOf (value obj "at")) = some rep.attributeId := by
    rw [h.text (by decide) rfl]
    exact QString.toUShortC_hexText (by decide) _ rep.attributeId.toNat_lt
  have hdataType : (toUShortC (textOf (value obj "dt"))).filter (fun dt => dt ≤ 0xFF) =
      some rep.dataType.toUInt16 := by
    have hlt := rep.dataType.toNat_lt
    rw [h.text (by decide) rfl, ← UInt8.toNat_toUInt16, QString.toUShortC_hexText (by decide) _
      (by rwa [UInt8.toNat_toUInt16])]
    -- a data type has one byte, so the bound on it is met
    refine Option.filter_some_pos (decide_eq_true (UInt16.le_iff_toNat_le.mpr ?_))
    rw [UInt8.toNat_toUInt16]
    exact Nat.le_of_lt_succ hlt
  have hminInterval : boundedInt env 65535 (value obj "min") = some rep.minInterval.toNat := by
    rw [show value obj "min" = .double (env.ofInt rep.minInterval.toNat) from
      h.value "min"]
    exact boundedInt_ofInt henv (by omega) (hfits rep.minInterval)
  have hmaxInterval : boundedInt env 65535 (value obj "max") = some rep.maxInterval.toNat := by
    rw [show value obj "max" = .double (env.ofInt rep.maxInterval.toNat) from
      h.value "max"]
    exact boundedInt_ofInt henv (by omega) (hfits rep.maxInterval)
  have hchange : givenOr obj "change" 0 (fun v => toUIntC (textOf v)) = some rep.reportableChange :=
    h.givenTextOr (by decide) (p := 0 < rep.reportableChange) rfl
      (QString.toUIntC_hexText (by decide) _ rep.reportableChange.toNat_lt) (by simp)
  have hmf : givenOr obj "mf" 0 (fun v => toUShortC (textOf v)) = some rep.manufacturerCode :=
    h.givenTextOr (by decide) (p := 0 < rep.manufacturerCode) rfl
      (QString.toUShortC_hexText (by decide) _ rep.manufacturerCode.toNat_lt) (by simp)
  rw [parseZclReport_eq, if_pos hgiven, hattributeId, hdataType, hminInterval, hmaxInterval,
    hchange, hmf]
  simp [← hvalid]

theorem valid_of_parseZclReport {rep : ZclReport} (h : parseZclReport env obj = some rep) :
    rep.valid = true := by
  rw [parseZclReport_eq, ite_none_right_eq_some] at h
  simp only [bind_eq_some_iff, Option.some.injEq] at h
  obtain ⟨-, _, -, _, -, _, -, _, -, _, -, _, -, rfl⟩ := h
  rfl

/-! ## Bindings -/

theorem parseBinding_eq (obj : JsonObject D) : parseBinding env obj = if contains obj "bind" &&
    contains obj "src.ep" && contains obj "cl" then
      (bindingKind (value obj "bind")).bind fun isGroup =>
      (boundedInt env 255 (value obj "src.ep")).bind fun srcEndpoint =>
      (toUShortC (textOf (value obj "cl"))).bind fun clusterId =>
      (givenOr obj "dst.ep" 0 (boundedInt env 254)).bind fun dstEndpoint =>
      (if isGroup then givenOr obj "config.group" 0 (boundedInt env 254) else some 0).bind
        fun configGroup =>
      some { clusterId, srcEndpoint := .ofNat srcEndpoint, dstEndpoint := .ofNat dstEndpoint
             configGroup := .ofNat configGroup, isGroupBinding := isGroup
             isUnicastBinding := !isGroup
             reporting := (objectsOf ((arrayOf? (value obj "report")).getD [])).filterMap
               (parseZclReport env) }
    else none := by
  unfold parseBinding givenOr
  cases bindingKind (value obj "bind") with
  | none => rfl
  | some isGroup =>
    cases contains obj "dst.ep" with
    | false =>
      cases isGroup with
      | false => rfl
      | true =>
        cases contains obj "config.group" with
        | false => rfl
        | true => rfl
    | true =>
      cases isGroup with
      | false => rfl
      | true =>
        cases contains obj "config.group" with
        | false => rfl
        | true => rfl

structure ParsedBinding (bnd : Binding) : Prop where
  kind : bnd.isUnicastBinding = !bnd.isGroupBinding
  dstEndpoint : bnd.dstEndpoint.toNat ≤ 254
  configGroup : bnd.configGroup.toNat ≤ 254
  unicast : bnd.isGroupBinding = false → bnd.configGroup = 0
  reporting : ∀ rep ∈ bnd.reporting, rep.valid = true

theorem givenOr_le {key : String} (hgreatest : 0 ≤ greatest)
    (h : givenOr obj key 0 (boundedInt env greatest) = some n) : (n : Int) ≤ greatest := by
  unfold givenOr at h
  split at h
  · exact boundedInt_le h
  · obtain rfl := some_inj.mp h
    exact hgreatest

variable {bnd : Binding}

theorem parsedBinding_parseBinding (h : parseBinding env obj = some bnd) : ParsedBinding bnd := by
  rw [parseBinding_eq, ite_none_right_eq_some] at h
  simp only [bind_eq_some_iff, Option.some.injEq] at h
  obtain ⟨-, isGroup, -, src, -, cl, -, dst, hdst, group, hgroup, rfl⟩ := h
  have hsmall : ∀ n : Nat, (n : Int) ≤ 254 → (UInt8.ofNat n).toNat ≤ 254 := by
    intro n hn
    rw [UInt8.toNat_ofNat']
    omega
  have hreports : ∀ objs : List (JsonObject D), ∀ rep ∈ objs.filterMap (parseZclReport env),
      rep.valid = true := by
    intro objs rep hrep
    obtain ⟨_, -, hparsed⟩ := List.mem_filterMap.mp hrep
    exact valid_of_parseZclReport hparsed
  cases isGroup with
  | false =>
    obtain rfl := some_inj.mp hgroup
    exact ⟨rfl, hsmall dst (givenOr_le (by decide) hdst), hsmall 0 (by decide), fun _ => rfl,
      hreports _⟩
  | true =>
    exact ⟨rfl, hsmall dst (givenOr_le (by decide) hdst),
      hsmall group (givenOr_le (by decide) hgroup), nofun, hreports _⟩

theorem bindingKind_of_fields (hbnd : ParsedBinding bnd) (h : HasFields env obj (bindingFields bnd))
    :
    contains obj "bind" = true ∧ bindingKind (value obj "bind") = some bnd.isGroupBinding := by
  have hkind := hbnd.kind
  have hcontains := h.contains "bind"
  have hvalue := h.value "bind"
  rw [show (bindingFields bnd).lookup "bind" = some (if bnd.isUnicastBinding then
    some (.string "unicast") else if bnd.isGroupBinding then some (.string "groupcast") else none)
      from rfl, Option.join_some] at hcontains hvalue
  cases hgroup : bnd.isGroupBinding with
  | false =>
    rw [hgroup] at hkind
    rw [hkind] at hcontains hvalue
    rw [hcontains, hvalue]
    exact ⟨rfl, rfl⟩
  | true =>
    rw [hgroup] at hkind
    rw [hkind, hgroup] at hcontains hvalue
    rw [hcontains, hvalue]
    exact ⟨rfl, rfl⟩

/-- **A binding comes back.** -/
theorem parseBinding_of_fields (henv : env.Documented) (hbnd : ParsedBinding bnd)
    (h : HasFields env obj (bindingFields bnd)) : parseBinding env obj = some bnd := by
  obtain ⟨hbind, hkind⟩ := bindingKind_of_fields hbnd h
  have hgiven : (contains obj "bind" && contains obj "src.ep" && contains obj "cl") = true := by
    rw [hbind, h.contains "src.ep", h.contains "cl"]
    rfl
  have hsrc : boundedInt env 255 (value obj "src.ep") = some bnd.srcEndpoint.toNat := by
    have hlt := bnd.srcEndpoint.toNat_lt
    rw [show value obj "src.ep" = .double (env.ofInt bnd.srcEndpoint.toNat) from
      h.value "src.ep"]
    exact boundedInt_ofInt henv (by omega) (by omega)
  have hcl : toUShortC (textOf (value obj "cl")) = some bnd.clusterId := by
    rw [h.text (by decide) rfl]
    exact QString.toUShortC_hexText (by decide) _ bnd.clusterId.toNat_lt
  have hdst : givenOr obj "dst.ep" 0 (boundedInt env 254) = some bnd.dstEndpoint.toNat := by
    have hsmall := hbnd.dstEndpoint
    -- an endpoint that is left out is the one read in its place
    refine h.givenOr (by decide) (p := 0 < bnd.dstEndpoint) rfl
      (boundedInt_ofInt henv (by omega) (by omega)) fun hzero => ?_
    rw [UInt8.lt_iff_toNat_lt] at hzero
    exact Nat.eq_zero_of_not_pos hzero
  have hgroup : (if bnd.isGroupBinding then givenOr obj "config.group" 0 (boundedInt env 254)
      else some 0) = some bnd.configGroup.toNat := by
    have hsmall := hbnd.configGroup
    cases hgroup : bnd.isGroupBinding with
    | false =>
      rw [hbnd.unicast hgroup]
      rfl
    | true =>
      refine h.givenOr (by decide) (p := (!bnd.isUnicastBinding && bnd.isGroupBinding) = true) rfl
        (boundedInt_ofInt henv (by omega) (by omega)) fun hnot => absurd ?_ hnot
      rw [hbnd.kind, hgroup]
      rfl
  have hreports : (objectsOf ((arrayOf? (value obj "report")).getD [])).filterMap
      (parseZclReport env) = bnd.reporting := by
    rw [h.optionalObjects (by decide) rfl, List.filterMap_map, filterMap_eq_self_iff]
    intro rep hrep
    exact parseZclReport_of_fields henv (hbnd.reporting rep hrep)
      (hasFields_readObject env ["at", "dt", "mf", "min", "max", "change"] rfl (by decide))
  have hunicast := hbnd.kind
  rw [parseBinding_eq, if_pos hgiven, hkind, hsrc, hcl, hdst, hreports]
  simp only [bind_some, hgroup]
  simp [← hunicast]

theorem toUIntC_hexText4 (n : UInt16) : toUIntC (ofStd (hexText 4 n.toNat)) = some n.toUInt32 := by
  rw [← UInt16.toNat_toUInt32]
  refine QString.toUIntC_hexText (by decide) _ ?_
  rw [UInt16.toNat_toUInt32]
  exact n.toNat_lt

theorem toUIntC_hexText2 (n : UInt8) : toUIntC (ofStd (hexText 2 n.toNat)) = some n.toUInt32 := by
  rw [← UInt8.toNat_toUInt32]
  refine QString.toUIntC_hexText (by decide) _ ?_
  rw [UInt8.toNat_toUInt32]
  exact n.toNat_lt

theorem clustersOf_clustersField (clusters : List UInt16) :
    clustersOf (((clustersField clusters).map (Doc.read env)).getD .invalid) = some clusters := by
  unfold clustersField
  by_cases hnil : clusters = []
  · rw [if_pos hnil, hnil]
    rfl
  · rw [if_neg hnil, map_some, getD_some, Doc.read, readAll_eq_map, List.map_map]
    show (clusters.map _).mapM _ = some clusters
    rw [List.mapM_map]
    refine mapM_eq_self fun cl _ => ?_
    rw [Function.comp_apply, Function.comp_apply, textOf_read, toUIntC_hexText4, map_some,
      UInt16.toUInt16_toUInt32]

/-- **A fingerprint comes back.** -/
theorem parseFingerprint_of_fields {fp : Fingerprint}
    (h : HasFields env obj (fingerprintFields fp)) : parseFingerprint obj = some fp := by
  have hendpoint : toUIntC (textOf (value obj "endpoint")) = some fp.endpoint.toUInt32 := by
    rw [h.text (by decide) rfl, toUIntC_hexText2]
  have hprofile : toUIntC (textOf (value obj "profile")) = some fp.profileId.toUInt32 := by
    rw [h.text (by decide) rfl, toUIntC_hexText4]
  have hdevice : toUIntC (textOf (value obj "device")) = some fp.deviceId.toUInt32 := by
    rw [h.text (by decide) rfl, toUIntC_hexText4]
  have hin : clustersOf (value obj "in") = some fp.inClusters := by
    rw [h.value "in"]
    exact clustersOf_clustersField fp.inClusters
  have hout : clustersOf (value obj "out") = some fp.outClusters := by
    rw [h.value "out"]
    exact clustersOf_clustersField fp.outClusters
  unfold parseFingerprint
  rw [hendpoint, hprofile, hdevice, hin, hout]
  simp

end DeviceObject
end DeconzRest

import DeconzRest.Ddf.Document

/-!
# `ddfSerializeV1`

A description is written to a document, and its text is an object of a file again.  The names of
the members are those of the source and all different, so an object is written as the list of its
fields; a field without a value is one that is not set.
-/

namespace DeconzRest
namespace DeviceObject

open List

open QString (ofLatin1 ofStd hexText)
open QVariant (value contains)

variable {D : Type}

def membersOfFields : List (String × Option (Doc D)) → List (String × Doc D)
  | [] => []
  | (key, some v) :: fields => (key, v) :: membersOfFields fields
  | (_, none) :: fields => membersOfFields fields

def Doc.ofFields (fields : List (String × Option (Doc D))) : Doc D :=
  .object (membersOfFields fields)

def Doc.ofText (s : QString) : Doc D := .string (stdString s)

def textField (s : QString) : Option (Doc D) := if s = [] then none else some (.ofText s)

def Doc.ofTexts : List QString → Doc D
  | [s] => .ofText s
  | texts => .array (texts.map .ofText)

/-- The entries of a parameter: no `eval` beside a `script` -/
def parameterEntries (param : JsonObject D) : JsonObject D :=
  param.filter fun e => !(e.1 = ofLatin1 "eval" && contains param "script")

/-- `putItemParameter` -/
def putItemParameter (param : JsonObject D) : Doc D :=
  .object (membersOf (parameterEntries param) [])

def clustersField (clusters : List UInt16) : Option (Doc D) :=
  if clusters = [] then none
  else some (.array (clusters.map fun cl => .string (hexText 4 cl.toNat)))

def fingerprintFields (fp : Fingerprint) : List (String × Option (Doc D)) :=
  [("profile", some (.string (hexText 4 fp.profileId.toNat))),
    ("device", some (.string (hexText 4 fp.deviceId.toNat))),
    ("endpoint", some (.string (hexText 2 fp.endpoint.toNat))),
    ("in", clustersField fp.inClusters),
    ("out", clustersField fp.outClusters)]

/-- The value of an item; a null one is left out. -/
def defaultField (item : Item D) : Option (Doc D) := item.defaultValue.bind docOf

def parameterField (item : Item D) (ddfFull isGeneric : Bool) (param : Option (JsonObject D)) :
    Option (Doc D) :=
  if !item.isStatic && (ddfFull || !isGeneric) then param.map putItemParameter else none

def fullItemFields (ddfFull : Bool) (item : Item D) : List (String × Option (Doc D)) :=
  [("name", some (.string item.name)),
    ("public", if item.isPublic then none else some (.bool false)),
    ("awake", if item.awake then some (.bool true) else none),
    ("description", textField item.description),
    ("refresh.interval", if 0 <
      item.refreshInterval then some (.int item.refreshInterval) else none),
    ("read", parameterField item ddfFull item.isGenericRead item.readParameters),
    ("write", parameterField item ddfFull item.isGenericWrite item.writeParameters),
    ("parse", parameterField item ddfFull item.isGenericParse item.parseParameters),
    ("static", if item.isStatic then defaultField item else none),
    ("default", if item.isStatic then none else defaultField item)]

/-- The fields of an item; of an implicit one the name alone, unless all is asked for. -/
def itemFields (ddfFull : Bool) (item : Item D) : List (String × Option (Doc D)) :=
  if item.isImplicit && !ddfFull then [("name", some (.string item.name))]
  else fullItemFields ddfFull item

def subDeviceFields (ddfFull : Bool) (sub : SubDevice D) : List (String × Option (Doc D)) :=
  [("type", some (.ofText sub.type)), ("restapi", some (.ofText sub.restApi)),
    ("uuid", some (.array (sub.uniqueId.map .ofText))),
    ("meta", if sub.metaData.isEmpty then none else docOf (.map sub.metaData)),
    ("fingerprint",
      if sub.fingerPrint.isValid then some (.ofFields (fingerprintFields sub.fingerPrint))
      else none),
    ("items", some (.array (sub.items.map fun item => .ofFields (itemFields ddfFull item))))]

def reportFields (rep : ZclReport) : List (String × Option (Doc D)) :=
  [("at", some (.string (hexText 4 rep.attributeId.toNat))),
    ("dt", some (.string (hexText 2 rep.dataType.toNat))),
    ("mf", if rep.manufacturerCode > 0 then
        some (.string (hexText 4 rep.manufacturerCode.toNat)) else none),
    ("min", some (.int rep.minInterval.toNat)),
    ("max", some (.int rep.maxInterval.toNat)),
    ("change", if rep.reportableChange > 0 then
        some (.string (hexText 8 rep.reportableChange.toNat)) else none)]

def bindingFields (bnd : Binding) : List (String × Option (Doc D)) :=
  [("bind", if bnd.isUnicastBinding then some (.string "unicast")
      else if bnd.isGroupBinding then some (.string "groupcast") else none),
    ("config.group", if !bnd.isUnicastBinding && bnd.isGroupBinding then
        some (.int bnd.configGroup.toNat) else none),
    ("src.ep", some (.int bnd.srcEndpoint.toNat)),
    ("dst.ep", if bnd.dstEndpoint > 0 then some (.int bnd.dstEndpoint.toNat) else none),
    ("cl", some (.string (hexText 4 bnd.clusterId.toNat))),
    ("report", if bnd.reporting.isEmpty then none
      else some (.array (bnd.reporting.map fun rep => .ofFields (reportFields rep))))]

def descriptionFields (ddfFull : Bool) (ddf : DeviceDescription D) :
    List (String × Option (Doc D)) :=
  [("schema", some (.string "devcap1.schema.json")),
    ("manufacturername", some (.ofTexts ddf.manufacturerNames)),
    ("modelid", some (.ofTexts ddf.modelIds)),
    ("vendor", textField ddf.vendor),
    ("product", textField ddf.product),
    ("sleeper", if 0 ≤ ddf.sleeper then some (.bool (0 < ddf.sleeper)) else none),
    ("status", some (.ofText ddf.status)),
    ("matchexpr", textField ddf.matchExpr),
    ("subdevices", some (.array (ddf.subDevices.map fun sub =>
      .ofFields (subDeviceFields ddfFull sub)))),
    ("bindings", if ddf.bindings.isEmpty then none
      else some (.array (ddf.bindings.map fun bnd => .ofFields (bindingFields bnd))))]

/-- The document that `ddfSerializeV1` fills -/
def ddfSerializeV1 (ddfFull : Bool) (ddf : DeviceDescription D) : Doc D :=
  .ofFields (descriptionFields ddfFull ddf)

variable (env : DdfEnv D)

def readObject (doc : Doc D) : JsonObject D := (objectOf? (doc.read env)).getD []

def reparsed (ddfFull : Bool) (ddf : DeviceDescription D) : DeviceDescription D :=
  parseDeviceObject env (readObject env (ddfSerializeV1 ddfFull ddf))

/-! ## The fields of an object -/

/-- ASCII, as the names of the source are -/
def asciiName (key : String) : Bool := key.toList.all fun c => c.toNat < 0x80

def goodNames (names : List String) : Bool := decide names.Nodup && names.all asciiName

theorem ofStd_eq_ofLatin1 {name : String} (h : asciiName name = true) :
    ofStd name = ofLatin1 name := by
  refine (QString.map_unit_eq fun c hc => ?_).symm
  have hsmall := of_decide_eq_true (all_eq_true.mp h c hc)
  omega

theorem ofLatin1_inj {name key : String} (hname : asciiName name = true)
    (hkey : asciiName key = true) (h : ofLatin1 key = ofLatin1 name) : key = name := by
  rw [← ofStd_eq_ofLatin1 hname, ← ofStd_eq_ofLatin1 hkey, ofStd, ofStd] at h
  have hchars := congrArg QString.toChars h
  rw [QString.toChars_ofChars, QString.toChars_ofChars] at hchars
  exact String.toList_inj.mp hchars

variable {key : String}

theorem lookup_of_not_mem {α : Type*} {l : List (String × α)} (h : key ∉ l.map Prod.fst) :
    l.lookup key = none := by
  rw [lookup_eq_none_iff]
  intro e he
  rw [bne_iff_ne]
  intro heq
  exact h (heq ▸ mem_map_of_mem he)

theorem lookup_readMembers {members : List (String × Doc D)} {obj : JsonObject D}
    (hnodup : (members.map Prod.fst).Nodup) (hnames : ∀ m ∈ members, asciiName m.1 = true)
    (hkey : asciiName key = true) :
    (readMembers env members obj).lookup (ofLatin1 key) =
      ((members.lookup key).map (Doc.read env)).or (obj.lookup (ofLatin1 key)) := by
  induction members generalizing obj with
  | nil => rfl
  | cons m members ih =>
    obtain ⟨name, v⟩ := m
    obtain ⟨hname, hrest⟩ := forall_mem_cons.mp hnames
    rw [map_cons, nodup_cons] at hnodup
    rw [readMembers, ih hnodup.2 hrest, Json.lookup_insert, ofStd_eq_ofLatin1 hname, lookup_cons]
    by_cases heq : key = name
    -- the names differ, so no later member has this one
    · subst heq
      rw [lookup_of_not_mem hnodup.1, if_pos rfl, beq_self_eq_true]
      rfl
    · rw [if_neg fun h => heq (ofLatin1_inj hname hkey h), beq_eq_false_iff_ne.mpr heq]

variable {fields : List (String × Option (Doc D))}

theorem mem_membersOfFields {m : String × Doc D} (h : m ∈ membersOfFields fields) :
    m.1 ∈ fields.map Prod.fst := by
  induction fields with
  | nil => exact absurd h not_mem_nil
  | cons f fields ih =>
    obtain ⟨name, v⟩ := f
    cases v with
    | none => exact mem_cons_of_mem name (ih h)
    | some w =>
      rcases mem_cons.mp h with rfl | h
      · exact mem_cons_self
      · exact mem_cons_of_mem name (ih h)

theorem nodup_membersOfFields (h : (fields.map Prod.fst).Nodup) :
    ((membersOfFields fields).map Prod.fst).Nodup := by
  induction fields with
  | nil => exact nodup_nil
  | cons f fields ih =>
    obtain ⟨name, v⟩ := f
    obtain ⟨hname, hfields⟩ := nodup_cons.mp h
    cases v with
    | none => exact ih hfields
    | some w =>
      refine nodup_cons.mpr ⟨?_, ih hfields⟩
      intro hmem
      obtain ⟨m, hm, rfl⟩ := mem_map.mp hmem
      exact hname (mem_membersOfFields hm)

theorem lookup_membersOfFields (hnodup : (fields.map Prod.fst).Nodup) :
    (membersOfFields fields).lookup key = (fields.lookup key).join := by
  induction fields with
  | nil => rfl
  | cons f fields ih =>
    obtain ⟨name, v⟩ := f
    obtain ⟨hname, hfields⟩ := nodup_cons.mp hnodup
    by_cases heq : key = name
    · subst heq
      rw [lookup_cons_self]
      cases v with
      | none =>
        rw [membersOfFields, ih hfields, lookup_of_not_mem hname]
        rfl
      | some w =>
        rw [membersOfFields, lookup_cons_self]
        rfl
    · rw [lookup_cons, beq_eq_false_iff_ne.mpr heq]
      cases v with
      | none => exact ih hfields
      | some w =>
        rw [membersOfFields, lookup_cons, beq_eq_false_iff_ne.mpr heq]
        exact ih hfields

/-- The object has the values of the fields, and no others under a name of the source. -/
def HasFields (obj : JsonObject D) (fields : List (String × Option (Doc D))) : Prop :=
  ∀ key, asciiName key = true → obj.lookup (ofLatin1 key) =
    (fields.lookup key).join.map (Doc.read env)

/-- **What is read of an object** that was set field by field -/
theorem hasFields_readObject (names : List String) (hfields : fields.map Prod.fst = names)
    (hgood : goodNames names = true) :
    HasFields env (readObject env (.ofFields fields)) fields := by
  intro key hkey
  subst hfields
  obtain ⟨hnodup, hascii⟩ := Bool.and_eq_true_iff.mp hgood
  have hnodup := of_decide_eq_true hnodup
  have hnames : ∀ m ∈ membersOfFields fields, asciiName m.1 = true :=
    fun m hm => all_eq_true.mp hascii m.1 (mem_membersOfFields hm)
  have hread : readObject env (.ofFields fields) = readMembers env (membersOfFields fields) [] := by
    rw [readObject, Doc.ofFields, Doc.read]
    rfl
  rw [hread, lookup_readMembers env (nodup_membersOfFields hnodup) hnames hkey,
    lookup_membersOfFields hnodup]
  exact Option.or_none

section HasFields

variable {env} {obj : JsonObject D} {fields : List (String × Option (Doc D))}

theorem HasFields.value (h : HasFields env obj fields) (key : String)
    (hkey : asciiName key = true := by decide) :
    value obj key = ((fields.lookup key).join.map (Doc.read env)).getD .invalid :=
  congrArg (·.getD .invalid) (h key hkey)

theorem HasFields.contains (h : HasFields env obj fields) (key : String)
    (hkey : asciiName key = true := by decide) : contains obj key = (fields.lookup key).join.isSome :=
  (congrArg Option.isSome (h key hkey)).trans Option.isSome_map

end HasFields

end DeviceObject
end DeconzRest

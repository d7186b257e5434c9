import DeconzRest.Ddf.Reparsed

/-!
# Items that are written and parsed again

`Item.reread` tells what comes back of an item.  The writer leaves out `implicit`, `managed` and
`access`, and a `public` that is true; the reader takes an item without `public` for one that is
not.  So only an item that is said not to be public comes back as it was (`Item.reread_eq_iff`).
-/

namespace DeconzRest
namespace DeviceObject

open Option
open QString (ofLatin1 ofStd)
open QVariant (value contains)
open Json (Every Parts)

variable {D : Type} {env : DdfEnv D} {obj : JsonObject D}

/-- The name is one of a `BufString<64>`. -/
def IsName (name : String) : Prop := bufString (ofStd name) = name

theorem isName_bufString (s : QString) : IsName (bufString s) := by
  unfold IsName
  have hchars : ∀ name : String, QString.toChars (ofStd name) = name.toList :=
    fun name => QString.toChars_ofChars _
  by_cases hsize : (String.ofList
      ((QString.toChars s).takeWhile (· ≠ '\x00'))).utf8ByteSize ≤ 62
  · have hname : bufString s = String.ofList ((QString.toChars s).takeWhile (· ≠ '\x00')) :=
      if_pos hsize
    have hagain : ((QString.toChars (ofStd (bufString s))).takeWhile (· ≠ '\x00')) =
        (QString.toChars s).takeWhile (· ≠ '\x00') := by
      rw [hchars, hname, String.toList_ofList]
      exact List.takeWhile_idem
    rw [bufString, hagain, if_pos hsize, hname]
  · have hname : bufString s = "" := if_neg hsize
    rw [hname]
    rfl

theorem isName_currentName {name : String} (h : IsName name) : IsName (currentName name) := by
  unfold currentName
  split
  · exact isName_bufString (ofLatin1 "cap/color/capabilities")
  · split
    · exact isName_bufString (ofLatin1 "cap/color/ct/max")
    · split
      · exact isName_bufString (ofLatin1 "cap/color/ct/min")
      · exact h

theorem currentName_currentName (name : String) :
    currentName (currentName name) = currentName name := by
  by_cases hcolor : name = "config/colorcapabilities"
  · rw [hcolor]; decide
  · by_cases hmax : name = "config/ctmax"
    · rw [hmax]; decide
    · by_cases hmin : name = "config/ctmin"
      · rw [hmin]; decide
      · have hsame : currentName name = name := by
          rw [currentName, if_neg hcolor, if_neg hmax, if_neg hmin]
        rw [hsame, hsame]

theorem isName_givenName (obj : JsonObject D) : IsName (givenName obj) := by
  unfold givenName
  split
  · exact isName_bufString _
  · split
    · exact isName_bufString _
    · rfl

structure ParsedItem (env : DdfEnv D) (item : Item D) : Prop where
  name : item.name ≠ ""
  buffered : IsName item.name
  current : currentName item.name = item.name
  descriptor : ∃ d, env.descriptor item.name = some d ∧ d.isValid = true
  generic : item.isGenericRead = false ∧ item.isGenericWrite = false ∧ item.isGenericParse = false
  static : item.isStatic = true → item.refreshInterval = -1 ∧ item.parseParameters = none ∧
    item.readParameters = none ∧ item.writeParameters = none ∧ item.defaultValue.isSome = true
  interval : -2 ^ 31 ≤ item.refreshInterval ∧ item.refreshInterval < 2 ^ 31
  value : ∀ v, item.defaultValue = some v → Every Parts.parsed v
  parse : ∀ p, item.parseParameters = some p → Every Parts.parsed (.map p)
  read : ∀ p, item.readParameters = some p → Every Parts.parsed (.map p)
  write : ∀ p, item.writeParameters = some p → Every Parts.parsed (.map p)

variable {p : JsonObject D}

theorem every_objectOf? {v : QVariant D} (hv : Every Parts.parsed v) (h : objectOf? v = some p) :
    Every Parts.parsed (.map p) := by
  cases v with
  | map members =>
    obtain rfl := some.inj h
    exact hv
  | invalid | bool _ | int _ | double _ | string _ | list _ =>
    exact absurd h (some_ne_none _).symm

theorem parsedItem_parseItem (henv : env.Documented) (hobj : Every Parts.parsed (.map obj))
    (hgeneric : contains obj "schema" = false) (hvalid : (parseItem env obj).isValid = true) :
    ParsedItem env (parseItem env obj) := by
  have hvalue : ∀ key, Every Parts.parsed (value obj key) := fun key => hobj.value key
  obtain ⟨hname, d, hd, hdvalid, hitem⟩ := parseItem_of_isValid hvalid
  have hitemName : itemName obj = currentName (givenName obj) := by
    rw [itemName, hgeneric]
    rfl
  rw [hitem]
  have hbuffered : IsName (itemName obj) := by
    rw [hitemName]
    exact isName_currentName (isName_givenName obj)
  have hcurrent : currentName (itemName obj) = itemName obj := by
    rw [hitemName]
    exact currentName_currentName (givenName obj)
  have hunset : (-2 ^ 31 : Int) ≤ -1 ∧ (-1 : Int) < 2 ^ 31 := by decide
  unfold describedItem
  split
  · refine ⟨hname, hbuffered, hcurrent, ⟨d, hd, hdvalid⟩, ⟨rfl, rfl, rfl⟩,
      fun _ => ⟨rfl, rfl, rfl, rfl, rfl⟩, hunset, fun v hv => ?_, nofun, nofun, nofun⟩
    obtain rfl := some.inj hv
    exact hvalue "static"
  · refine ⟨hname, hbuffered, hcurrent, ⟨d, hd, hdvalid⟩, ⟨rfl, rfl, rfl⟩, nofun, ?_,
      fun v hv => ?_, fun p => every_objectOf? (hvalue "parse"),
      fun p => every_objectOf? (hvalue "read"), fun p => every_objectOf? (hvalue "write")⟩
    · show -2 ^ 31 ≤ (if contains obj "refresh.interval" then _ else _ : Int) ∧ _
      split
      · exact intOf_range henv _
      · exact hunset
    · obtain ⟨-, hdefault⟩ := ite_none_right_eq_some.mp hv
      rw [← some.inj hdefault]
      exact hvalue "default"

/-! ## Items that come back -/

variable (env) in
def rereadObject (entries : JsonObject D) : JsonObject D :=
  readMembers env (membersOf entries []) []

variable (env) in
def Item.reread (ddfFull : Bool) (item : Item D) : Item D :=
  let descriptor := (env.descriptor item.name).getD {}
  if item.isImplicit && !ddfFull then { name := item.name, descriptor }
  else
    let defaultValue := item.defaultValue.bind (carry env)
    let reread := Option.map fun p => rereadObject env (parameterEntries p)
    { name := item.name
      descriptor
      description := QString.repair item.description
      hasIsPublic := !item.isPublic
      awake := item.awake
      isStatic := item.isStatic && defaultValue.isSome
      refreshInterval := if 0 < item.refreshInterval then item.refreshInterval else -1
      parseParameters := reread item.parseParameters
      readParameters := reread item.readParameters
      writeParameters := reread item.writeParameters
      defaultValue }

theorem textOf_textField (s : QString) :
    textOf (((textField s).map (Doc.read env)).getD .invalid) = QString.repair s := by
  unfold textField
  by_cases hs : s = []
  · rw [if_pos hs, hs]
    rfl
  · rw [if_neg hs, ← ofStd_stdString]
    rfl

theorem parseItem_of_name {name : String} (hname : value obj "name" = .string (ofStd name))
    (hcontains : contains obj "name" = true) (hschema : contains obj "schema" = false)
    (haccess : value obj "access" = .invalid) (hne : name ≠ "") (hbuffered : IsName name)
    (hcurrent : currentName name = name) {d : Descriptor} (hd : env.descriptor name = some d) :
    parseItem env obj = describedItem env obj name d ∧ accessOf obj d = d := by
  have hitemName : itemName obj = name := by
    have hgiven : givenName obj = name := by
      rw [givenName, if_pos hcontains, hname]
      exact hbuffered
    rw [itemName, hschema, hgiven]
    exact hcurrent
  constructor
  · rw [parseItem, hitemName, if_neg hne, hd]
  · unfold accessOf
    rw [haccess]
    rfl

theorem defaultField_read (item : Item D) :
    (defaultField item).map (Doc.read env) = item.defaultValue.bind (carry env) := by
  unfold defaultField
  cases item.defaultValue with
  | none => rfl
  | some v => rfl

variable {item : Item D}

theorem objectOf?_parameterField {param : Option (JsonObject D)}
    (hstatic : item.isStatic = true → param = none) {ddfFull isGeneric : Bool}
    (hgeneric : isGeneric = false) :
    objectOf? (((parameterField item ddfFull isGeneric param).map (Doc.read env)).getD .invalid) =
      param.map fun p => rereadObject env (parameterEntries p) := by
  cases param with
  | none =>
    unfold parameterField
    split
    · rfl
    · rfl
  | some p =>
    have hwritten : (!item.isStatic && (ddfFull || !isGeneric)) = true := by
      rw [hgeneric, Bool.not_false, Bool.or_true, Bool.and_true, Bool.not_eq_true']
      exact Bool.eq_false_iff.mpr fun h => some_ne_none _ (hstatic h)
    rw [parameterField, if_pos hwritten]
    show objectOf? ((putItemParameter p).read env) = _
    rw [putItemParameter, Doc.read]
    rfl

theorem given_eq_lookup (obj : JsonObject D) (key : String) :
    (if contains obj key then some (value obj key) else none) = obj.lookup (ofLatin1 key) := by
  unfold QVariant.contains QVariant.value
  cases obj.lookup (ofLatin1 key) with
  | none => rfl
  | some v => rfl

/-- **What comes back of an item** of which all is written -/
theorem parseItem_of_fullFields (henv : env.Documented) {ddfFull : Bool}
    (hitem : ParsedItem env item) (hfull : (item.isImplicit && !ddfFull) = false)
    (h : HasFields env obj (fullItemFields ddfFull item)) :
    parseItem env obj = item.reread env ddfFull := by
  obtain ⟨d, hd, hdvalid⟩ := hitem.descriptor
  obtain ⟨hgenericRead, hgenericWrite, hgenericParse⟩ := hitem.generic
  obtain ⟨hparsed, haccess⟩ := parseItem_of_name (h.value "name")
    (h.contains "name") (h.contains "schema") (h.value "access")
    hitem.name hitem.buffered hitem.current hd
  have hdescription : textOf (value obj "description") = QString.repair item.description := by
    rw [h.value "description"]
    exact textOf_textField item.description
  -- `public` is left out or false
  have hpublic : boolOf (value obj "public") = false := by
    rw [h.value "public", show (fullItemFields ddfFull item).lookup "public" =
      some (if item.isPublic then none else some (.bool false)) from rfl]
    cases item.isPublic with
    | false => rfl
    | true => rfl
  have hisPublic : contains obj "public" = !item.isPublic := by
    rw [h.contains "public", show (fullItemFields ddfFull item).lookup "public" =
      some (if item.isPublic then none else some (.bool false)) from rfl]
    cases item.isPublic with
    | false => rfl
    | true => rfl
  have himplicit : value obj "implicit" = .invalid := h.value "implicit"
  have hmanaged : value obj "managed" = .invalid := h.value "managed"
  have hawake : boolOf (value obj "awake") = item.awake := by
    rw [h.value "awake", show (fullItemFields ddfFull item).lookup "awake" =
      some (if item.awake then some (.bool true) else none) from rfl]
    cases item.awake with
    | false => rfl
    | true => rfl
  have hparse : objectOf? (value obj "parse") =
      item.parseParameters.map fun p => rereadObject env (parameterEntries p) := by
    rw [h.value "parse"]
    exact objectOf?_parameterField (fun hstatic => (hitem.static hstatic).2.1) hgenericParse
  have hread : objectOf? (value obj "read") =
      item.readParameters.map fun p => rereadObject env (parameterEntries p) := by
    rw [h.value "read"]
    exact objectOf?_parameterField (fun hstatic => (hitem.static hstatic).2.2.1) hgenericRead
  have hwrite : objectOf? (value obj "write") =
      item.writeParameters.map fun p => rereadObject env (parameterEntries p) := by
    rw [h.value "write"]
    exact objectOf?_parameterField (fun hstatic => (hitem.static hstatic).2.2.2.1) hgenericWrite
  have hinterval : (if contains obj "refresh.interval" then
      intOf env 0 (value obj "refresh.interval") else -1) = if 0 <
        item.refreshInterval then item.refreshInterval else -1 := by
    obtain ⟨hlow, hhigh⟩ := hitem.interval
    rw [h.contains "refresh.interval", h.value "refresh.interval",
      show (fullItemFields ddfFull item).lookup "refresh.interval" =
        some (if 0 < item.refreshInterval then some (.int item.refreshInterval) else none) from rfl]
    by_cases hpos : 0 < item.refreshInterval
    · rw [if_pos hpos, if_pos hpos]
      exact intOf_ofInt henv 0 hlow hhigh
    · rw [if_neg hpos, if_neg hpos]
      rfl
  have hstatic : obj.lookup (ofLatin1 "static") =
      if item.isStatic then item.defaultValue.bind (carry env) else none := by
    rw [h "static" (by decide), ← defaultField_read]
    show (if item.isStatic then defaultField item else none).map (Doc.read env) = _
    cases item.isStatic with
    | false => rfl
    | true => rfl
  have hdefault : obj.lookup (ofLatin1 "default") =
      if item.isStatic then none else item.defaultValue.bind (carry env) := by
    rw [h "default" (by decide), ← defaultField_read]
    show (if item.isStatic then none else defaultField item).map (Doc.read env) = _
    cases item.isStatic with
    | false => rfl
    | true => rfl
  rw [hparsed]
  unfold describedItem Item.reread
  simp only [haccess, hfull, hd, hdescription, hpublic, hisPublic, himplicit, hmanaged, hawake,
    hparse, hread, hwrite, hinterval, given_eq_lookup, hdefault]
  cases hs : item.isStatic with
  | false =>
    rw [hs, if_neg Bool.false_ne_true] at hstatic
    have hcontains : contains obj "static" = false := congrArg Option.isSome hstatic
    rw [hcontains]
    rfl
  | true =>
    -- a static item has nothing but its value, and is static again if that comes back
    obtain ⟨hunset, hnoParse, hnoRead, hnoWrite, -⟩ := hitem.static hs
    rw [hs, if_pos rfl] at hstatic
    cases hc : item.defaultValue.bind (carry env) with
    | none =>
      have hcontains : contains obj "static" = false :=
        congrArg Option.isSome (hstatic.trans hc)
      rw [hcontains]
      rfl
    | some v =>
      have hcontains : contains obj "static" = true :=
        congrArg Option.isSome (hstatic.trans hc)
      have hvalue : value obj "static" = v :=
        congrArg (·.getD .invalid) (hstatic.trans hc)
      rw [hcontains, hvalue, hunset, hnoParse, hnoRead, hnoWrite]
      rfl

theorem describedItem_name {doc : Doc D} (h : HasFields env obj [("name", some doc)])
    (name : String) (d : Descriptor) :
    describedItem env obj name d = { name, descriptor := accessOf obj d } := by
  have habsent : ∀ key, asciiName key = true ∧ key ≠ "name" → obj.lookup (ofLatin1 key) = none := by
    rintro key ⟨hkey, hne⟩
    rw [h key hkey, List.lookup_cons, beq_eq_false_iff_ne.mpr hne]
    rfl
  unfold describedItem QVariant.contains QVariant.value
  rw [habsent "description" (by decide), habsent "public" (by decide),
    habsent "implicit" (by decide), habsent "awake" (by decide), habsent "managed" (by decide),
    habsent "static" (by decide), habsent "default" (by decide), habsent "parse" (by decide),
    habsent "read" (by decide), habsent "write" (by decide),
    habsent "refresh.interval" (by decide)]
  rfl

variable (ddfFull : Bool)

theorem fullItemFields_names (item : Item D) :
    (fullItemFields ddfFull item).map Prod.fst = ["name", "public", "awake", "description",
      "refresh.interval", "read", "write", "parse", "static", "default"] := rfl

/-- **What comes back of an item** -/
theorem parseItem_itemFields (henv : env.Documented) (ddfFull : Bool) (hitem : ParsedItem env item)
    :
    parseItem env (readObject env (.ofFields (itemFields ddfFull item))) =
      item.reread env ddfFull := by
  unfold itemFields
  by_cases himplicit : (item.isImplicit && !ddfFull) = true
  · obtain ⟨d, hd, -⟩ := hitem.descriptor
    have h : HasFields env (readObject env (.ofFields [("name", some (.string item.name))])) _ :=
      hasFields_readObject env ["name"] rfl (by decide)
    obtain ⟨hparsed, haccess⟩ := parseItem_of_name (h.value "name")
      (h.contains "name") (h.contains "schema")
      (h.value "access") hitem.name hitem.buffered hitem.current hd
    rw [if_pos himplicit, hparsed, describedItem_name h, haccess]
    unfold Item.reread
    rw [if_pos himplicit, hd]
    rfl
  · rw [if_neg himplicit]
    exact parseItem_of_fullFields henv hitem (Bool.eq_false_iff.mpr himplicit)
      (hasFields_readObject env _ (fullItemFields_names ddfFull item) (by decide))

theorem isValid_reread (hitem : ParsedItem env item) :
    (item.reread env ddfFull).isValid = true := by
  obtain ⟨d, hd, hdvalid⟩ := hitem.descriptor
  have hname : decide (item.name ≠ "") = true := decide_eq_true hitem.name
  unfold Item.isValid Item.reread
  rw [hd]
  split
  · exact Bool.and_eq_true_iff.mpr ⟨hname, hdvalid⟩
  · exact Bool.and_eq_true_iff.mpr ⟨hname, hdvalid⟩

/-! ## Which items come back as they were -/

variable (env) in
/-- A parameter without an `eval` beside a `script`, whose values come back -/
structure KeptParameter (p : JsonObject D) : Prop where
  eval : ¬ (contains p "eval" = true ∧ contains p "script" = true)
  entries : Kept env (.map p)

variable (env) in
/-- The item is said not to be public, it has no access of its own, and its values come back. -/
structure KeptItem (item : Item D) : Prop where
  hasIsPublic : item.hasIsPublic = true
  isPublic : item.isPublic = false
  isImplicit : item.isImplicit = false
  isManaged : item.isManaged = false
  access : env.descriptor item.name = some item.descriptor
  description : QString.WellFormed item.description
  refreshInterval : 0 < item.refreshInterval ∨ item.refreshInterval = -1
  defaultValue : ∀ v, item.defaultValue = some v → Kept env v
  parse : ∀ p, item.parseParameters = some p → KeptParameter env p
  read : ∀ p, item.readParameters = some p → KeptParameter env p
  write : ∀ p, item.writeParameters = some p → KeptParameter env p

theorem rereadObject_eq_iff {entries : JsonObject D}
    (hentries : Every Parts.parsed (.map entries)) :
    rereadObject env entries = entries ↔ Kept env (.map entries) := by
  rw [← carry_iff env hentries, carry_map, Option.some.injEq, QVariant.map.injEq]
  rfl

theorem length_rereadObject_le (entries : JsonObject D) :
    (rereadObject env entries).length ≤ entries.length := by
  have hread := length_readMembers_le env (membersOf entries []) []
  have hput := length_membersOf_le entries ([] : List (String × Doc D))
  unfold rereadObject
  simp only [List.length_nil, Nat.zero_add] at hread hput
  exact Nat.le_trans hread hput

theorem contains_iff {key : String} : contains p key = true ↔ ∃ e ∈ p, e.1 = ofLatin1 key := by
  unfold QVariant.contains
  rw [List.lookup_isSome_iff]
  refine exists_congr fun e => and_congr_right' ?_
  rw [beq_iff_eq, eq_comm]

/-- **Which parameters come back** -/
theorem rereadParameter_iff (hp : Every Parts.parsed (.map p)) :
    rereadObject env (parameterEntries p) = p ↔ KeptParameter env p := by
  by_cases hboth : contains p "eval" = true ∧ contains p "script" = true
  · refine iff_of_false ?_ fun h => h.eval hboth
    intro heq
    -- one entry is left out
    have hshorter : (parameterEntries p).length < p.length := by
      obtain ⟨e, he, hname⟩ := contains_iff.mp hboth.1
      refine List.length_filter_lt_length_iff_exists.mpr ⟨e, he, ?_⟩
      rw [hname, hboth.2]
      simp
    have hle : (rereadObject env (parameterEntries p)).length ≤ _ := length_rereadObject_le _
    rw [heq] at hle
    exact Nat.not_lt_of_le hle hshorter
  · have hall : parameterEntries p = p := by
      refine List.filter_eq_self.mpr fun e he => ?_
      rw [Bool.not_eq_true', Bool.and_eq_false_imp]
      intro hname
      exact Bool.eq_false_iff.mpr fun hscript =>
        hboth ⟨contains_iff.mpr ⟨e, he, of_decide_eq_true hname⟩, hscript⟩
    rw [hall, rereadObject_eq_iff hp]
    exact ⟨fun h => ⟨hboth, h⟩, fun h => h.entries⟩

theorem option_map_eq_self_iff {α : Type} {f : α → α} {o : Option α} :
    o.map f = o ↔ ∀ a, o = some a → f a = a := by
  cases o with
  | none => exact iff_of_true rfl nofun
  | some a =>
    rw [map_some, Option.some.injEq]
    exact ⟨fun h b hb => some.inj hb ▸ h, fun h => h a rfl⟩

variable (env) in
theorem bind_carry_iff {o : Option (QVariant D)} (ho : ∀ v, o = some v → Every Parts.parsed v) :
    o.bind (carry env) = o ↔ ∀ v, o = some v → Kept env v := by
  cases o with
  | none => exact iff_of_true rfl nofun
  | some v =>
    rw [bind_some, carry_iff env (ho v rfl)]
    exact ⟨fun h w hw => some.inj hw ▸ h, fun h => h v rfl⟩

variable (env) in
theorem parameter_iff {o : Option (JsonObject D)}
    (ho : ∀ p, o = some p → Every Parts.parsed (.map p)) :
    (o.map fun p => rereadObject env (parameterEntries p)) = o ↔ ∀ p, o = some p →
      KeptParameter env p := by
  rw [option_map_eq_self_iff]
  exact forall₂_congr fun p hp => rereadParameter_iff (ho p hp)

/-- **Which items come back** -/
theorem Item.reread_eq_iff (hitem : ParsedItem env item) :
    item.reread env ddfFull = item ↔ KeptItem env item := by
  obtain ⟨d, hd, -⟩ := hitem.descriptor
  obtain ⟨hgenericRead, hgenericWrite, hgenericParse⟩ := hitem.generic
  have hvalue := bind_carry_iff env hitem.value
  have hparse := parameter_iff env hitem.parse
  have hread := parameter_iff env hitem.read
  have hwrite := parameter_iff env hitem.write
  unfold Item.reread
  by_cases himplicit : (item.isImplicit && !ddfFull) = true
  · -- nothing but the name comes back of an implicit item
    rw [if_pos himplicit]
    refine iff_of_false (fun h => ?_) fun h => ?_
    · rw [← congrArg Item.isImplicit h] at himplicit
      exact absurd himplicit Bool.false_ne_true
    · rw [h.isImplicit] at himplicit
      exact absurd himplicit Bool.false_ne_true
  · rw [if_neg himplicit]
    constructor
    · intro h
      have hpublic : false = item.isPublic := congrArg Item.isPublic h
      have hhasIsPublic : (!item.isPublic) = item.hasIsPublic := congrArg Item.hasIsPublic h
      have hdescriptor : (env.descriptor item.name).getD {} = item.descriptor :=
        congrArg Item.descriptor h
      have hinterval : (if 0 < item.refreshInterval then item.refreshInterval else -1) =
        item.refreshInterval := congrArg Item.refreshInterval h
      refine ⟨?_, hpublic.symm, (congrArg Item.isImplicit h).symm, (congrArg Item.isManaged h).symm,
        ?_,
        QString.repair_eq_self_iff.mp (congrArg Item.description h), ?_,
        hvalue.mp (congrArg Item.defaultValue h), hparse.mp (congrArg Item.parseParameters h),
        hread.mp (congrArg Item.readParameters h), hwrite.mp (congrArg Item.writeParameters h)⟩
      -- `public` is written for an item that is not public alone
      · rw [← hhasIsPublic, ← hpublic]
        rfl
      · rw [← hdescriptor, hd]
        rfl
      · by_cases hpos : 0 < item.refreshInterval
        · exact .inl hpos
        · rw [if_neg hpos] at hinterval
          exact .inr hinterval.symm
    · intro h
      have hdefault := hvalue.mpr h.defaultValue
      refine Item.ext rfl ?_ (QString.repair_eq_self_iff.mpr h.description) hgenericRead.symm
        hgenericWrite.symm hgenericParse.symm h.isPublic.symm ?_ h.isImplicit.symm
        h.isManaged.symm rfl ?_ ?_ (hparse.mpr h.parse) (hread.mpr h.read) (hwrite.mpr h.write)
        hdefault
      · show (env.descriptor item.name).getD {} = item.descriptor
        rw [h.access]
        rfl
      · show (item.isStatic && (item.defaultValue.bind (carry env)).isSome) = item.isStatic
        rw [hdefault]
        cases hs : item.isStatic with
        | false => rfl
        | true => exact (hitem.static hs).2.2.2.2
      · show (!item.isPublic) = item.hasIsPublic
        rw [h.isPublic, h.hasIsPublic]
        rfl
      · show (if 0 < item.refreshInterval then item.refreshInterval else -1) = item.refreshInterval
        rcases h.refreshInterval with hpos | hunset
        · exact if_pos hpos
        · rw [hunset]
          rfl

end DeviceObject
end DeconzRest

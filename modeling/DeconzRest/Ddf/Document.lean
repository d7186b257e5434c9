import DeconzRest.Ddf.DeviceObject
import DeconzRest.Json.Reread
import DeconzRest.Lib.MapOption

/-!
# A `JsonDocument`, written and read

`putJsonQVariantValue` fills a document of ArduinoJson, and its text is read by `QJsonDocument`.
The document is taken to have room for all of it.  A member that is set again is replaced, and a
name is written up to its first null character.

`Kept` says which values come back: those without `null` whose numbers and texts survive.
-/

namespace DeconzRest
namespace DeviceObject

open List Option

open QString (ofLatin1 ofStd)
open Json (Every Parts)
open QVariant (value contains)

variable {D : Type}

/-- A value of a `JsonDocument` -/
inductive Doc (D : Type) where
  | bool (b : Bool)
  | int (n : Int)
  | double (d : D)
  | string (s : String)
  | array (values : List (Doc D))
  | object (members : List (String × Doc D))

/-- `QString::toStdString` -/
def stdString (s : QString) : String := String.ofList (QString.toChars s)

/-- A text up to its first null character -/
def cText (s : String) : String := String.ofList (s.toList.takeWhile (· ≠ '\x00'))

/-- `obj[key] = value` -/
def setMember (key : String) (v : Doc D) : List (String × Doc D) → List (String × Doc D)
  | [] => [(cText key, v)]
  | (k, w) :: members =>
    if k = key then (k, v) :: members else (k, w) :: setMember key v members

mutual

/-- `putJsonQVariantValue` and `putJsonArrayQVariantValue`: what is put for a variant; `none` is a
variant of another type, for which nothing is put. -/
def docOf : QVariant D → Option (Doc D)
  | .invalid => none
  | .bool b => some (.bool b)
  | .int n => some (.int n)
  | .double d => some (.double d)
  | .string s => some (.string (stdString s))
  | .list values => some (.array (docsOf values))
  | .map entries => some (.object (membersOf entries []))

def docsOf : List (QVariant D) → List (Doc D)
  | [] => []
  | v :: values =>
    match docOf v with
    | some w => w :: docsOf values
    | none => docsOf values

def membersOf : List (QString × QVariant D) → List (String × Doc D) → List (String × Doc D)
  | [], members => members
  | (key, v) :: entries, members =>
    match docOf v with
    | some w => membersOf entries (setMember (stdString key) w members)
    | none => membersOf entries members

end

section Read

variable (env : DdfEnv D)

mutual

/-- What `QJsonDocument::fromJson` reads of the text of a document -/
def Doc.read : Doc D → QVariant D
  | .bool b => .bool b
  | .int n => .double (env.ofInt n)
  | .double d => .double (env.reread d)
  | .string s => .string (ofStd s)
  | .array values => .list (readAll values)
  | .object members => .map (readMembers members [])

def readAll : List (Doc D) → List (QVariant D)
  | [] => []
  | v :: values => v.read :: readAll values

def readMembers : List (String × Doc D) → JsonObject D → JsonObject D
  | [], obj => obj
  | (key, v) :: members, obj => readMembers members (Json.insert (ofStd key) v.read obj)

end

/-- A name comes back: it is well formed and has no null character. -/
def KeptName (key : QString) : Prop := QString.WellFormed key ∧ '\x00' ∉ QString.toChars key

mutual

/-- The value comes back: it has no `null` in it, and its numbers, texts and names come back. -/
def Kept : QVariant D → Prop
  | .invalid => False
  | .bool _ => True
  | .int _ => False
  | .double d => env.reread d = d
  | .string s => QString.WellFormed s
  | .list values => KeptAll values
  | .map entries => KeptEntries entries

def KeptAll : List (QVariant D) → Prop
  | [] => True
  | v :: values => Kept v ∧ KeptAll values

def KeptEntries : List (QString × QVariant D) → Prop
  | [] => True
  | (key, v) :: entries => (KeptName key ∧ Kept v) ∧ KeptEntries entries

end

theorem keptAll_iff {values : List (QVariant D)} :
    KeptAll env values ↔ ∀ v ∈ values, Kept env v := by
  induction values with
  | nil => simp [KeptAll]
  | cons v values ih => rw [KeptAll, ih, forall_mem_cons]

variable {entries : List (QString × QVariant D)}

theorem keptEntries_iff : KeptEntries env entries ↔ ∀ e ∈ entries, KeptName e.1 ∧ Kept env e.2 := by
  induction entries with
  | nil => simp [KeptEntries]
  | cons e entries ih =>
    obtain ⟨key, v⟩ := e
    rw [KeptEntries, ih, forall_mem_cons]

theorem readAll_eq_map (values : List (Doc D)) :
    readAll env values = values.map (Doc.read env) := by
  induction values with
  | nil => rfl
  | cons v values ih => rw [readAll, ih, map_cons]

theorem docsOf_eq_filterMap (values : List (QVariant D)) :
    docsOf values = values.filterMap docOf := by
  induction values with
  | nil => rfl
  | cons v values ih =>
    rw [docsOf, ih]
    cases h : docOf v with
    | none => rw [filterMap_cons_none h]
    | some w => rw [filterMap_cons_some h]

theorem ofStd_stdString (s : QString) : ofStd (stdString s) = QString.repair s := by
  rw [ofStd, stdString, String.toList_ofList]
  rfl

theorem ofStd_stdString_iff {s : QString} : ofStd (stdString s) = s ↔ QString.WellFormed s := by
  rw [ofStd_stdString]
  exact QString.repair_eq_self_iff

theorem cText_of_not_mem {s : String} (h : '\x00' ∉ s.toList) : cText s = s := by
  have htake : s.toList.takeWhile (· ≠ '\x00') = s.toList :=
    takeWhile_eq_self_iff.mpr fun c hc => decide_eq_true fun heq => h (heq ▸ hc)
  rw [cText, htake, String.ofList_toList]

theorem not_mem_cText (s : String) : '\x00' ∉ (cText s).toList := by
  intro hmem
  rw [cText, String.toList_ofList] at hmem
  have hkept := mem_takeWhile_imp hmem
  simp at hkept

theorem KeptName.cText {key : QString} (h : KeptName key) :
    DeviceObject.cText (stdString key) = stdString key :=
  cText_of_not_mem (by rw [stdString, String.toList_ofList]; exact h.2)

variable {members : List (String × Doc D)}

theorem keptName_ofStd_cText (s : String) : KeptName (ofStd (cText s)) := by
  refine ⟨⟨_, rfl⟩, ?_⟩
  rw [ofStd, QString.toChars_ofChars]
  exact not_mem_cText s

/-! ## Objects -/

theorem mem_setMember {key : String} {v : Doc D} {m : String × Doc D}
    (h : m ∈ setMember key v members) :
    m.1 = cText key ∨ m.1 ∈ members.map Prod.fst := by
  induction members with
  | nil => exact .inl (congrArg Prod.fst (mem_singleton.mp h))
  | cons first members ih =>
    obtain ⟨k, w⟩ := first
    rw [setMember] at h
    split at h
    · rcases mem_cons.mp h with rfl | h
      · exact .inr mem_cons_self
      · exact .inr (mem_cons_of_mem k (mem_map_of_mem h))
    · rcases mem_cons.mp h with rfl | h
      · exact .inr mem_cons_self
      · exact (ih h).imp id (mem_cons_of_mem k)

theorem mem_membersOf (hmembers : ∀ m ∈ members, ∃ s, m.1 = cText s) :
    ∀ m ∈ membersOf entries members, ∃ s, m.1 = cText s := by
  induction entries generalizing members with
  | nil => exact hmembers
  | cons e entries ih =>
    obtain ⟨key, v⟩ := e
    rw [membersOf]
    cases docOf v with
    | none => exact ih hmembers
    | some w =>
      refine ih fun m hm => ?_
      rcases mem_setMember hm with hkey | hold
      · exact ⟨_, hkey⟩
      · obtain ⟨m', hm', heq⟩ := mem_map.mp hold
        obtain ⟨s, hs⟩ := hmembers m' hm'
        exact ⟨s, heq.symm.trans hs⟩

theorem mem_readMembers {obj : JsonObject D} :
    ∀ k ∈ (readMembers env members obj).map Prod.fst, k ∈ obj.map Prod.fst ∨ ∃ m ∈ members, k =
      ofStd m.1 := by
  induction members generalizing obj with
  | nil => exact fun k hk => .inl hk
  | cons m members ih =>
    obtain ⟨key, v⟩ := m
    intro k hk
    rw [readMembers] at hk
    rcases ih k hk with hobj | ⟨m, hm, hkey⟩
    · rcases Json.keys_insert _ _ _ k hobj with rfl | hold
      · exact .inr ⟨_, mem_cons_self, rfl⟩
      · exact .inl hold
    · exact .inr ⟨m, mem_cons_of_mem _ hm, hkey⟩

theorem length_setMember_le (key : String) (v : Doc D) (members : List (String × Doc D)) :
    (setMember key v members).length ≤ members.length + 1 := by
  induction members with
  | nil => exact Nat.le_refl 1
  | cons m members ih =>
    obtain ⟨k, w⟩ := m
    rw [setMember]
    split
    · exact Nat.le_succ _
    · exact Nat.succ_le_succ ih

theorem length_membersOf_le (entries : List (QString × QVariant D))
    (members : List (String × Doc D)) :
    (membersOf entries members).length ≤ members.length + entries.length := by
  induction entries generalizing members with
  | nil => exact Nat.le_refl _
  | cons e entries ih =>
    obtain ⟨key, v⟩ := e
    rw [membersOf, length_cons]
    cases docOf v with
    | none => exact Nat.le_succ_of_le (ih members)
    | some w =>
      have hset := length_setMember_le (stdString key) w members
      have hrest := ih (setMember (stdString key) w members)
      simp only
      omega

theorem length_insert_le (key : QString) (v : QVariant D) (obj : JsonObject D) :
    (Json.insert key v obj).length ≤ obj.length + 1 := by
  induction obj with
  | nil => exact Nat.le_refl 1
  | cons e obj ih =>
    obtain ⟨k, w⟩ := e
    rw [Json.insert]
    split
    · exact Nat.le_refl _
    · split
      · exact Nat.le_succ _
      · exact Nat.succ_le_succ ih

theorem length_readMembers_le (members : List (String × Doc D)) (obj : JsonObject D) :
    (readMembers env members obj).length ≤ obj.length + members.length := by
  induction members generalizing obj with
  | nil => exact Nat.le_refl _
  | cons m members ih =>
    obtain ⟨key, v⟩ := m
    have hinsert := length_insert_le (ofStd key) (v.read env) obj
    have hrest := ih (Json.insert (ofStd key) (v.read env) obj)
    rw [readMembers, length_cons]
    omega

theorem setMember_new {key : String} (v : Doc D) (hkey : cText key = key)
    (hnew : key ∉ members.map Prod.fst) :
    setMember key v members = members ++ [(key, v)] := by
  induction members with
  | nil => rw [setMember, hkey]; rfl
  | cons m members ih =>
    obtain ⟨k, w⟩ := m
    rw [map_cons, mem_cons, not_or] at hnew
    rw [setMember, if_neg fun h => hnew.1 h.symm, ih hnew.2]
    rfl

/-- The member that is put for an entry of a map -/
def memberOf (e : QString × QVariant D) : Option (String × Doc D) :=
  (docOf e.2).map fun w => (stdString e.1, w)

theorem membersOf_kept (members : List (String × Doc D)) (hkept : ∀ e ∈ entries, KeptName e.1)
    (hnew : (members.map Prod.fst ++ entries.map fun e => stdString e.1).Nodup) :
    membersOf entries members = members ++ entries.filterMap memberOf := by
  induction entries generalizing members with
  | nil => rw [membersOf, filterMap_nil, append_nil]
  | cons e entries ih =>
    obtain ⟨key, v⟩ := e
    obtain ⟨hkey, hentries⟩ := forall_mem_cons.mp hkept
    rw [membersOf]
    cases hv : docOf v with
    | none =>
      have hfirst : memberOf (key, v) = none := by
        rw [memberOf, hv]
        rfl
      rw [filterMap_cons_none hfirst]
      refine ih _ hentries (hnew.sublist ?_)
      exact List.Sublist.append_left (sublist_cons_self _ _) _
    | some w =>
      have hfirst : memberOf (key, v) = some (stdString key, w) := by
        rw [memberOf, hv]
        rfl
      -- the name is none of the earlier ones, so no value is replaced
      have hout : stdString key ∉ members.map Prod.fst := fun hmem =>
        (nodup_append.mp hnew).2.2 _ hmem _ mem_cons_self rfl
      simp only
      rw [filterMap_cons_some hfirst, setMember_new w hkey.cText hout, ih _ hentries]
      · rw [append_assoc]
        rfl
      · rw [map_append, append_assoc]
        exact hnew

theorem readMembers_sorted (obj : JsonObject D)
    (hsorted : (obj.map Prod.fst ++ members.map fun m => ofStd m.1).Pairwise (· < ·)) :
    readMembers env members obj = obj ++ members.map fun m => (ofStd m.1, m.2.read env) := by
  induction members generalizing obj with
  | nil => rw [readMembers, map_nil, append_nil]
  | cons m members ih =>
    obtain ⟨key, v⟩ := m
    have hlast : Json.insert (ofStd key) (v.read env) obj = obj ++ [(ofStd key, v.read env)] := by
      refine Json.insert_last _ fun k hk => ?_
      rw [pairwise_append] at hsorted
      exact hsorted.2.2 k hk (ofStd key) mem_cons_self
    have hrest : ((obj ++ [(ofStd key, v.read env)]).map Prod.fst ++
        members.map fun m => ofStd m.1).Pairwise (· < ·) := by
      simpa using hsorted
    rw [readMembers, hlast, ih _ hrest, append_assoc]
    rfl

/-! ## Values -/

/-- What is read of what is put for a variant -/
def carry (v : QVariant D) : Option (QVariant D) := (docOf v).map (Doc.read env)

def carryEntry (e : QString × QVariant D) : Option (QString × QVariant D) :=
  (carry env e.2).map fun w => (e.1, w)

theorem carryEntry_iff {e : QString × QVariant D} :
    carryEntry env e = some e ↔ carry env e.2 = some e.2 := by
  unfold carryEntry
  cases carry env e.2 with
  | none => exact Iff.intro nofun nofun
  | some w =>
    rw [map_some, Option.some.injEq, Option.some.injEq]
    exact ⟨congrArg Prod.snd, fun h => Prod.ext rfl h⟩

theorem readMembers_membersOf (hkept : ∀ e ∈ entries, KeptName e.1)
    (hsorted : (entries.map Prod.fst).Pairwise (· < ·)) :
    readMembers env (membersOf entries []) [] = entries.filterMap (carryEntry env) := by
  rw [pairwise_map] at hsorted
  have hname : ∀ e ∈ entries, ofStd (stdString e.1) = e.1 := fun e he =>
    ofStd_stdString_iff.mpr (hkept e he).1
  have hnodup : (entries.map fun e => stdString e.1).Nodup := by
    refine pairwise_map.mpr (hsorted.imp_of_mem fun he he' hlt heq => ?_)
    have hsame := congrArg ofStd heq
    rw [hname _ he, hname _ he'] at hsame
    rw [hsame] at hlt
    exact List.lt_irrefl _ hlt
  have horder : ((entries.filterMap memberOf).map fun m : String × Doc D => ofStd m.1).Pairwise
      (· < ·) := by
    rw [pairwise_map, pairwise_filterMap]
    refine hsorted.imp_of_mem fun he he' hlt m hm m' hm' => ?_
    obtain ⟨w, -, rfl⟩ := map_eq_some_iff.mp hm
    obtain ⟨w', -, rfl⟩ := map_eq_some_iff.mp hm'
    show ofStd (stdString _) < ofStd (stdString _)
    rw [hname _ he, hname _ he']
    exact hlt
  rw [membersOf_kept [] hkept hnodup, nil_append, readMembers_sorted env [] horder, nil_append,
    map_filterMap]
  refine filterMap_congr fun e he => ?_
  unfold memberOf carryEntry carry
  rw [Option.map_map, Option.map_map]
  cases docOf e.2 with
  | none => rfl
  | some w => exact congrArg some (Prod.ext (hname e he) rfl)

/-- **Which maps come back** -/
theorem readMembers_membersOf_iff (hsorted : (entries.map Prod.fst).Pairwise (· < ·)) :
    readMembers env (membersOf entries []) [] = entries ↔ ∀ e ∈ entries, KeptName e.1 ∧
      carry env e.2 = some e.2 := by
  constructor
  · intro h
    have hkept : ∀ e ∈ entries, KeptName e.1 := by
      intro e he
      have hmem : e.1 ∈ (readMembers env (membersOf entries []) []).map Prod.fst := by
        rw [h]
        exact mem_map_of_mem he
      -- every name that is read was a C string
      rcases mem_readMembers env _ hmem with hnil | ⟨m, hm, hname⟩
      · cases hnil
      · obtain ⟨s, hs⟩ := mem_membersOf (forall_mem_nil _) m hm
        rw [hname, hs]
        exact keptName_ofStd_cText s
    rw [readMembers_membersOf env hkept hsorted, filterMap_eq_self_iff] at h
    exact fun e he => ⟨hkept e he, (carryEntry_iff env).mp (h e he)⟩
  · intro h
    rw [readMembers_membersOf env (fun e he => (h e he).1) hsorted, filterMap_eq_self_iff]
    exact fun e he => (carryEntry_iff env).mpr (h e he).2

theorem carry_list (values : List (QVariant D)) :
    carry env (.list values) = some (.list (values.filterMap (carry env))) := by
  unfold carry
  rw [docOf, map_some, Doc.read, readAll_eq_map, docsOf_eq_filterMap, map_filterMap]

theorem carry_map (entries : List (QString × QVariant D)) :
    carry env (.map entries) = some (.map (readMembers env (membersOf entries []) [])) := by
  unfold carry
  rw [docOf, map_some, Doc.read]

/-- **Which values come back**, of those that a parser returns -/
theorem carry_iff {v : QVariant D} (hv : Every Parts.parsed v) :
    carry env v = some v ↔ Kept env v := by
  induction v using Json.variant_induction with
  | invalid => exact Iff.intro nofun nofun
  | bool b => exact iff_of_true rfl trivial
  | int n => exact hv.elim
  | double d =>
    rw [Kept]
    show some (QVariant.double (env.reread d)) = some (.double d) ↔ _
    rw [Option.some.injEq, QVariant.double.injEq]
  | string s =>
    rw [Kept]
    show some (QVariant.string (ofStd (stdString s))) = some (.string s) ↔ _
    rw [Option.some.injEq, QVariant.string.injEq, ofStd_stdString_iff]
  | list values ih =>
    rw [Every, Json.everyValue_iff] at hv
    rw [carry_list, Option.some.injEq, QVariant.list.injEq, filterMap_eq_self_iff, Kept,
      keptAll_iff]
    exact forall₂_congr fun w hw => ih w hw (hv w hw)
  | map entries ih =>
    rw [Every, Json.everyEntry_iff] at hv
    rw [carry_map, Option.some.injEq, QVariant.map.injEq, readMembers_membersOf_iff env hv.2, Kept,
      keptEntries_iff]
    exact forall₂_congr fun e he => and_congr_right' (ih e he (hv.1 e he).2)

end Read

end DeviceObject
end DeconzRest

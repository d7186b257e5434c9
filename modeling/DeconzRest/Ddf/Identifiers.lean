import DeconzRest.Cj.Access
import DeconzRest.Ddf.Select
import DeconzRest.Lib.JsonGrammar

/-!
# Bundles of interest

A bundle lists in its `DESC` chunk the pairs of a manufacturer name and a model identifier that it is
for.  `DDF_IsBundleScheduled` lets a bundle be loaded when one of the pairs is on a load record, and
`DDF_ReloadBundleDevices` schedules the load records again that a bundle which was updated is for.
Both only know the names that are registered as atoms, in the spelling of the bundle.
-/

namespace DeconzRest
namespace Ddf

open List

open Cj (Ctx Token)

/-! ## Atoms -/

/-- The registered atoms: what `AT_GetAtomIndex` answers for a string and `AT_GetAtomByIndex` for an
index, with the largest index that is in use -/
structure AtomTable where
  index : List UInt8 → Option Nat
  string : Nat → List UInt8
  last : Nat
  string_of_index : ∀ s i, index s = some i → string i = s
  index_pos : ∀ s i, index s = some i → 0 < i
  index_le : ∀ s i, index s = some i → i ≤ last

namespace AtomTable

variable {t t' t'' : AtomTable}

def Registered (t : AtomTable) (i : Nat) : Prop := t.index (t.string i) = some i

instance (t : AtomTable) (i : Nat) : Decidable (t.Registered i) :=
  inferInstanceAs (Decidable (_ = _))

def Extends (t t' : AtomTable) : Prop := ∀ s i, t.index s = some i → t'.index s = some i

theorem Extends.string_eq (h : t.Extends t') {i : Nat} (hi : t.Registered i) :
    t'.string i = t.string i :=
  t'.string_of_index _ _ (h _ _ hi)

theorem index_eq_iff {s : List UInt8} {i : Nat} (hi : t.Registered i) :
    t.index s = some i ↔ s = t.string i := by
  constructor
  · intro hindex
    exact (t.string_of_index s i hindex).symm
  · rintro rfl
    exact hi

theorem exists_extends (t : AtomTable) (s : List UInt8) :
    ∃ t' i, t.Extends t' ∧ t'.index s = some i := by
  cases hindex : t.index s with
  | some i => exact ⟨t, i, fun _ _ h => h, hindex⟩
  | none =>
    -- the index behind the largest one is not in use
    refine ⟨⟨fun s' => if s' = s then some (t.last + 1) else t.index s',
      fun i => if i = t.last + 1 then s else t.string i, t.last + 1, ?_, ?_, ?_⟩,
      t.last + 1, ?_, if_pos rfl⟩
    · intro s' i hi
      split at hi
      · rename_i hs'
        rw [← Option.some.inj hi, if_pos rfl, hs']
      · have hle := t.index_le s' i hi
        rw [if_neg (by omega)]
        exact t.string_of_index s' i hi
    · intro s' i hi
      split at hi
      · simp only [Option.some.injEq] at hi
        omega
      · exact t.index_pos s' i hi
    · intro s' i hi
      split at hi
      · simp only [Option.some.injEq] at hi
        omega
      · have := t.index_le s' i hi
        omega
    · intro s' i hi
      have hne : s' ≠ s := by
        rintro rfl
        rw [hindex] at hi
        exact absurd hi (by simp)
      simp only [if_neg hne]
      exact hi

end AtomTable

/-- `device_identifiers` -/
def deviceIdentifiersKey : List UInt8 :=
  [0x64, 0x65, 0x76, 0x69, 0x63, 0x65, 0x5F, 0x69, 0x64, 0x65, 0x6E, 0x74, 0x69, 0x66, 0x69, 0x65,
    0x72, 0x73]

/-- `last_modified` -/
def lastModifiedKey : List UInt8 :=
  [0x6C, 0x61, 0x73, 0x74, 0x5F, 0x6D, 0x6F, 0x64, 0x69, 0x66, 0x69, 0x65, 0x64]

/-- The size of `buf` in both functions -/
def nameBufferSize : Nat := 96

/-- The size of the token array of `DDF_ReloadBundleDevices` -/
def reloadTokens : Nat := 1024

/-- The size of the token array of `DDF_ParseContext` -/
def contextTokens : Nat := 8192

abbrev NamePair := List UInt8 × List UInt8

/-- A name as it is asked for: what is copied to `buf`, up to the first NUL -/
def readName (cj : Ctx) (tok : Token) : Option (List UInt8) :=
  (Cj.copyTokenUtf8 cj nameBufferSize tok).map fun buf => buf.takeWhile (· ≠ 0)

/-- The pairs that the loop over the tokens behind the bracket of `device_identifiers` comes to -/
def identifierPairs (cj : Ctx) : List Token → List NamePair
  | [] => []
  | tok :: rest =>
    if tok.type = .arrayEnd then []
    else if tok.type = .itemSep then identifierPairs cj rest
    else if tok.type ≠ .arrayBeg then []
    else -- inner array for each entry
      match rest with
      | mfname :: sep :: modelid :: close :: rest =>
        if mfname.type ≠ .string then []
        else if sep.type ≠ .itemSep then []
        else if modelid.type ≠ .string then []
        else if close.type ≠ .arrayEnd then []
        else
          match readName cj mfname with
          | none => [] -- this has to be a valid string
          | some m =>
            match readName cj modelid with
            | none => []
            | some d => (m, d) :: identifierPairs cj rest
      | _ => []

/-- The pairs of `device_identifiers`, none when it is not there or no array -/
def deviceIdentifiers (cj : Ctx) : List NamePair :=
  match Cj.valueRef cj 0 deviceIdentifiersKey with
  | none => []
  | some ref =>
    match cj.tokens.drop ref with
    | [] => []
    | tok :: tokens => if tok.type ≠ .arrayBeg then [] else identifierPairs cj tokens

/-- The description parsed with an array of `n` tokens; `none` when the status is not ok. -/
def parseDesc (n : Nat) (desc : List UInt8) : Option Ctx :=
  match Cj.parse (Cj.parseInit desc n) with
  | none => none
  | some cj => if cj.status ≠ .ok then none else some cj

/-- The atoms of a pair, when both are registered -/
def pairAtoms (t : AtomTable) (pair : NamePair) : Option (Nat × Nat) :=
  match t.index pair.1, t.index pair.2 with
  | some mfname, some modelid => some (mfname, modelid)
  | _, _ => none

/-- The inner loop of `DDF_ReloadBundleDevices`, with `n_marked` -/
def markPair (t : AtomTable) (marked : Nat × List LoadRecord) (pair : NamePair) :
    Nat × List LoadRecord :=
  match pairAtoms t pair with
  | none => marked
  | some (mfname, modelid) =>
    let meant := fun rec : LoadRecord => decide (rec.mfname = mfname ∧ rec.modelid = modelid)
    (marked.1 + marked.2.countP meant,
      marked.2.map fun rec => if meant rec then { rec with loadState := .scheduled } else rec)

/-- `DDF_ReloadBundleDevices`: whether a record was marked, and the records -/
def reloadBundleDevices (t : AtomTable) (desc : List UInt8) (records : List LoadRecord) :
    Bool × List LoadRecord :=
  match parseDesc reloadTokens desc with
  | none => (false, records)
  | some cj =>
    let (nMarked, records) := (deviceIdentifiers cj).foldl (markPair t) (0, records)
    (decide (0 < nMarked), records)

/-- The inner loop of `DDF_IsBundleScheduled` -/
def pairScheduled (t : AtomTable) (records : List LoadRecord) (pair : NamePair) : Bool :=
  match pairAtoms t pair with
  | none => false
  | some (mfname, modelid) =>
    records.any fun rec =>
      rec.modelid == modelid && rec.mfnameLowerCaseHash == atomLowerCaseStringHash t.string mfname

/-- `DDF_IsBundleScheduled`, with the `bundleLastModified` that it leaves in the context -/
def isBundleScheduled (timeFromISO8601 : List UInt8 → Int) (t : AtomTable) (desc : List UInt8)
    (records : List LoadRecord) (bundleLastModified : Int) : Bool × Int :=
  match parseDesc contextTokens desc with
  | none => (false, bundleLastModified)
  | some cj =>
    match Cj.valueRef cj 0 lastModifiedKey with
    | none => (false, bundleLastModified)
    | some ref =>
      match cj.tokens[ref]? with
      | none => (false, bundleLastModified)
      | some tok =>
        if tok.type ≠ .string then (false, bundleLastModified)
        else
          ((deviceIdentifiers cj).any (pairScheduled t records), timeFromISO8601 (Cj.slice cj tok))

/-! ## Well-formed descriptions -/

/-- The tokens behind the bracket of a flat array of such entries -/
inductive EntryTokens : List (Token × Token) → List Token → Prop where
  | close {tok : Token} {rest : List Token} (htok : tok.type = .arrayEnd) :
      EntryTokens [] (tok :: rest)
  | separator {entries : List (Token × Token)} {tok : Token} {rest : List Token}
      (htok : tok.type = .itemSep) (h : EntryTokens entries rest) :
      EntryTokens entries (tok :: rest)
  | entry {entries : List (Token × Token)} {beg mfname sep modelid close : Token}
      {rest : List Token} (hbeg : beg.type = .arrayBeg) (hmfname : mfname.type = .string)
      (hsep : sep.type = .itemSep) (hmodelid : modelid.type = .string)
      (hclose : close.type = .arrayEnd) (h : EntryTokens entries rest) :
      EntryTokens ((mfname, modelid) :: entries)
        (beg :: mfname :: sep :: modelid :: close :: rest)

/-- The description of a well-formed bundle: a text with a string `last_modified` and an array
`device_identifiers` of pairs of strings. -/
structure DescChunk where
  desc : List UInt8
  tokensSize : Nat
  cj : Ctx
  parsed : Cj.Parsed desc tokensSize cj
  lastModified : Token
  has_last_modified : ∃ ref, Cj.valueRef cj 0 lastModifiedKey = some ref ∧ cj.tokens[ref]? =
    some lastModified
  last_modified_string : lastModified.type = .string
  tokens : List Token
  entries : List (Token × Token)
  has_identifiers : ∃ ref beg, Cj.valueRef cj 0 deviceIdentifiersKey = some ref ∧
    cj.tokens.drop ref = beg :: tokens ∧ beg.type = .arrayBeg
  entryTokens : EntryTokens entries tokens

/-- The pair is one of those that the description spells. -/
def DescChunk.Lists (b : DescChunk) (pair : NamePair) : Prop :=
  ∃ e ∈ b.entries, Rfc8259.Decodes (Cj.slice b.cj e.1) pair.1 ∧
    Rfc8259.Decodes (Cj.slice b.cj e.2) pair.2

/-- A device whose manufacturer name and model identifier are known -/
structure PresentDevice (t : AtomTable) where
  mfname : Nat
  modelid : Nat
  mfname_registered : t.Registered mfname
  modelid_registered : t.Registered modelid

/-- The load record that is created for a device, in some later state -/
def PresentDevice.loadRecord {t : AtomTable} (d : PresentDevice t) (loadState : LoadState) :
    LoadRecord where
  modelid := d.modelid
  mfname := d.mfname
  mfnameLowerCaseHash := atomLowerCaseStringHash t.string d.mfname
  loadState := loadState

/-- `get` would match a description for the pair against the device, when the names of the pair have
become atoms. -/
def GetMatches (t : AtomTable) (pair : NamePair) (d : PresentDevice t) : Prop :=
  ∃ t' mfname modelid, t.Extends t' ∧ t'.index pair.1 = some mfname ∧ t'.index pair.2 =
    some modelid ∧
    identifierMatches t'.string d.modelid d.mfname
      { mfnameAtomIndices := [mfname], modelidAtomIndices := [modelid] } = true

/-- Whenever `get` would match a pair of the bundle against a device, the bundle may be loaded and the
load record of the device is scheduled when the bundle is updated. -/
def MatchersAgree (timeFromISO8601 : List UInt8 → Int) (t : AtomTable)
    (devices : List (PresentDevice t)) (b : DescChunk) : Prop :=
  ∀ (state : PresentDevice t → LoadState) (bundleLastModified : Int),
    let records := devices.map fun d => d.loadRecord (state d)
    ∀ (i : Nat) (d : PresentDevice t), devices[i]? = some d →
      (∃ pair, b.Lists pair ∧ GetMatches t pair d) →
        (isBundleScheduled timeFromISO8601 t b.desc records bundleLastModified).1 = true ∧
          (reloadBundleDevices t b.desc records).2[i]? = some (d.loadRecord .scheduled)

theorem identifierMatches_singleton (string : Nat → List UInt8) (modelid mfname m d : Nat) :
    identifierMatches string modelid mfname
        { mfnameAtomIndices := [m], modelidAtomIndices := [d] } = true ↔
      d = modelid ∧ (m = mfname ∨ stringHash (nameKey (string mfname)) =
        stringHash (nameKey (string m))) := by
  unfold identifierMatches
  simp [atomLowerCaseStringHash_eq]

variable (t : AtomTable)

theorem getMatches_iff (pair : NamePair) (d : PresentDevice t) :
    GetMatches t pair d ↔ pair.2 = t.string d.modelid ∧ stringHash (nameKey pair.1) =
      stringHash (nameKey (t.string d.mfname)) := by
  constructor
  · rintro ⟨t', mfname, modelid, hextends, hmfname, hmodelid, hmatch⟩
    obtain ⟨rfl, hname⟩ := (identifierMatches_singleton _ _ _ _ _).mp hmatch
    have hpair := t'.string_of_index _ _ hmfname
    refine ⟨?_, ?_⟩
    · rw [← hextends.string_eq d.modelid_registered, t'.string_of_index _ _ hmodelid]
    · rw [← hextends.string_eq d.mfname_registered, ← hpair]
      rcases hname with rfl | hhash
      · rfl
      · exact hhash.symm
  · rintro ⟨hmodelid, hhash⟩
    obtain ⟨t', mfname, hextends, hmfname⟩ := t.exists_extends pair.1
    refine ⟨t', mfname, d.modelid, hextends, hmfname, ?_, ?_⟩
    · rw [hmodelid]
      exact hextends _ _ d.modelid_registered
    · refine (identifierMatches_singleton _ _ _ _ _).mpr ⟨rfl, .inr ?_⟩
      rw [hextends.string_eq d.mfname_registered, t'.string_of_index _ _ hmfname, hhash]

/-! ## The pairs that are read -/

def EntryReads (cj : Ctx) (e : Token × Token) (pair : NamePair) : Prop :=
  readName cj e.1 = some pair.1 ∧ readName cj e.2 = some pair.2

/-- The loop comes to the entry: both names of all entries in front of it can be copied. -/
def Reaches (cj : Ctx) (entries : List (Token × Token)) (e : Token × Token) : Prop :=
  ∃ before after, entries = before ++ e :: after ∧ ∀ e' ∈ before, ∃ pair, EntryReads cj e' pair

variable {cj : Ctx}

theorem reaches_cons {entries : List (Token × Token)} {e e' : Token × Token} :
    Reaches cj (e' :: entries) e ↔ e = e' ∨
      ((∃ pair, EntryReads cj e' pair) ∧ Reaches cj entries e) := by
  constructor
  · rintro ⟨before, after, heq, hread⟩
    cases before with
    | nil => exact .inl (List.cons.inj heq).1.symm
    | cons e'' before =>
      obtain ⟨rfl, rfl⟩ := List.cons.inj heq
      obtain ⟨hhead, htail⟩ := forall_mem_cons.mp hread
      exact .inr ⟨hhead, before, after, rfl, htail⟩
  · rintro (rfl | ⟨hhead, before, after, rfl, hread⟩)
    · exact ⟨[], entries, rfl, forall_mem_nil _⟩
    · exact ⟨e' :: before, after, rfl, forall_mem_cons.mpr ⟨hhead, hread⟩⟩

theorem not_reaches_nil {e : Token × Token} : ¬ Reaches cj [] e := by
  rintro ⟨before, after, heq, -⟩
  exact absurd heq (by simp)

theorem identifierPairs_close {tok : Token} {rest : List Token} (htok : tok.type = .arrayEnd) :
    identifierPairs cj (tok :: rest) = [] := by
  unfold identifierPairs
  rw [if_pos htok]

theorem identifierPairs_separator {tok : Token} {rest : List Token} (htok : tok.type = .itemSep) :
    identifierPairs cj (tok :: rest) = identifierPairs cj rest := by
  rw [identifierPairs.eq_def]
  simp only [htok, reduceCtorEq, if_false, if_true]

theorem mem_identifierPairs {entries : List (Token × Token)} {tokens : List Token}
    (h : EntryTokens entries tokens) (pair : NamePair) :
    pair ∈ identifierPairs cj tokens ↔ ∃ e, Reaches cj entries e ∧ EntryReads cj e pair := by
  induction h with
  | close htok => simp [identifierPairs_close htok, not_reaches_nil]
  | separator htok _ ih =>
    rw [identifierPairs_separator htok]
    exact ih
  | @entry entries beg mfname sep modelid close rest hbeg hmfname hsep hmodelid hclose _ ih =>
    -- a name that cannot be copied ends the loop
    simp only [identifierPairs, hbeg, hmfname, hsep, hmodelid, hclose, reduceCtorEq, if_false,
      ne_eq, not_true_eq_false]
    simp only [reaches_cons]
    cases hm : readName cj mfname with
    | none => simp [EntryReads, hm]
    | some m =>
      cases hd : readName cj modelid with
      | none => simp [EntryReads, hm, hd]
      | some d =>
        have hhead : ∃ pair, EntryReads cj (mfname, modelid) pair := ⟨(m, d), hm, hd⟩
        simp only [mem_cons, ih, hhead, true_and]
        constructor
        · rintro (rfl | ⟨e, hreaches, hreads⟩)
          · exact ⟨_, .inl rfl, hm, hd⟩
          · exact ⟨e, .inr hreaches, hreads⟩
        · rintro ⟨e, rfl | hreaches, hreads⟩
          · refine .inl (Prod.ext ?_ ?_)
            · exact Option.some.inj (hreads.1.symm.trans hm)
            · exact Option.some.inj (hreads.2.symm.trans hd)
          · exact .inr ⟨e, hreaches, hreads⟩

theorem parseDesc_eq_some {n : Nat} {desc : List UInt8} :
    parseDesc n desc = some cj ↔ Cj.Parsed desc n cj := by
  unfold parseDesc Cj.Parsed
  cases Cj.parse (Cj.parseInit desc n) with
  | none => simp
  | some cj' =>
    simp only [Option.some.injEq]
    by_cases hok : cj'.status = .ok
    · rw [if_neg (not_not.mpr hok), Option.some.injEq]
      constructor
      · rintro rfl
        exact ⟨rfl, hok⟩
      · exact fun h => h.1
    · rw [if_pos hok]
      constructor
      · exact fun h => absurd h (by simp)
      · rintro ⟨rfl, hok'⟩
        exact absurd hok' hok

namespace DescChunk

variable (b : DescChunk)

theorem parseDesc_eq {n : Nat} (hinit : 8 ≤ n) :
    parseDesc n b.desc = if b.cj.tokens.length ≤
      n then some { b.cj with tokensSize := n } else none := by
  split
  · rename_i hfits
    exact parseDesc_eq_some.mpr (b.parsed.resize hinit hfits)
  · rename_i hfits
    cases hparse : parseDesc n b.desc with
    | none => rfl
    | some cj =>
      exact absurd (b.parsed.exists_iff.mp ⟨cj, parseDesc_eq_some.mp hparse⟩).2 hfits

theorem deviceIdentifiers_eq (n : Nat) :
    deviceIdentifiers { b.cj with tokensSize := n } =
      identifierPairs { b.cj with tokensSize := n } b.tokens := by
  obtain ⟨ref, beg, href, htokens, hbeg⟩ := b.has_identifiers
  have href' : Cj.valueRef { b.cj with tokensSize := n } 0 deviceIdentifiersKey = some ref := by
    rw [Cj.valueRef_tokensSize]
    exact href
  unfold deviceIdentifiers
  simp only [href', htokens, hbeg, ne_eq, not_true_eq_false, if_false]

theorem mem_deviceIdentifiers (n : Nat) (pair : NamePair) :
    pair ∈ deviceIdentifiers { b.cj with tokensSize := n } ↔ ∃ e, Reaches b.cj b.entries e ∧
      EntryReads b.cj e pair := by
  rw [deviceIdentifiers_eq]
  exact mem_identifierPairs b.entryTokens pair

end DescChunk

/-! ## The records that are marked -/

theorem pairAtoms_eq_some {t : AtomTable} {pair : NamePair} {mfname modelid : Nat} :
    pairAtoms t pair = some (mfname, modelid) ↔ t.index pair.1 = some mfname ∧ t.index pair.2 =
      some modelid := by
  unfold pairAtoms
  cases t.index pair.1 <;> cases t.index pair.2 <;> simp

def marked (t : AtomTable) (pairs : List NamePair) (rec : LoadRecord) : LoadRecord :=
  if ∃ pair ∈ pairs, pairAtoms t pair = some (rec.mfname, rec.modelid) then
    { rec with loadState := .scheduled }
  else rec

theorem marked_nil (rec : LoadRecord) : marked t [] rec = rec := by
  simp [marked]

theorem markPair_snd (nMarked : Nat) (records : List LoadRecord) (pair : NamePair) :
    (markPair t (nMarked, records) pair).2 = records.map (marked t [pair]) := by
  unfold markPair
  cases hatoms : pairAtoms t pair with
  | none =>
    have hid : marked t [pair] = id := funext fun rec => by simp [marked, hatoms]
    rw [hid, map_id]
  | some atoms =>
    refine map_congr_left fun rec _ => ?_
    have howned : (∃ p ∈ [pair], pairAtoms t p = some (rec.mfname, rec.modelid)) ↔ rec.mfname =
        atoms.1 ∧ rec.modelid = atoms.2 := by
      simp [hatoms, Prod.ext_iff, eq_comm]
    simp only [marked, howned, decide_eq_true_eq]

theorem marked_cons (pair : NamePair) (pairs : List NamePair) (rec : LoadRecord) :
    marked t (pair :: pairs) rec = marked t pairs (marked t [pair] rec) := by
  -- a record that is marked once more stays as it is
  by_cases hpair : pairAtoms t pair = some (rec.mfname, rec.modelid)
  · have hhead : marked t [pair] rec = { rec with loadState := .scheduled } := by
      simp [marked, hpair]
    have hall : marked t (pair :: pairs) rec = { rec with loadState := .scheduled } := by
      simp [marked, hpair]
    rw [hhead, hall]
    unfold marked
    split <;> rfl
  · have hhead : marked t [pair] rec = rec := by simp [marked, hpair]
    have hrest : (∃ p ∈ pair :: pairs, pairAtoms t p = some (rec.mfname, rec.modelid)) ↔ ∃ p ∈
        pairs, pairAtoms t p = some (rec.mfname, rec.modelid) := by
      rw [exists_mem_cons_iff, or_iff_right hpair]
    rw [hhead]
    simp only [marked, hrest]

theorem foldl_markPair (pairs : List NamePair) (nMarked : Nat) (records : List LoadRecord) :
    (pairs.foldl (markPair t) (nMarked, records)).2 = records.map (marked t pairs) := by
  induction pairs generalizing nMarked records with
  | nil =>
    have hid : marked t [] = id := funext (marked_nil t)
    rw [hid, map_id]
    rfl
  | cons pair pairs ih =>
    rw [foldl_cons]
    have hpair := markPair_snd t nMarked records pair
    generalize markPair t (nMarked, records) pair = step at hpair
    obtain ⟨nMarked', records'⟩ := step
    simp only at hpair
    rw [ih, hpair, map_map]
    exact map_congr_left fun rec _ => (marked_cons t pair pairs rec).symm

theorem marked_loadRecord {t : AtomTable} (pairs : List NamePair) (d : PresentDevice t) :
    marked t pairs (d.loadRecord .loaded) = d.loadRecord .scheduled ↔
      (t.string d.mfname, t.string d.modelid) ∈ pairs := by
  have howner : ∀ pair : NamePair, pairAtoms t pair = some (d.mfname, d.modelid) ↔ pair =
      (t.string d.mfname, t.string d.modelid) := by
    intro pair
    rw [pairAtoms_eq_some, AtomTable.index_eq_iff d.mfname_registered,
      AtomTable.index_eq_iff d.modelid_registered, Prod.ext_iff]
  unfold marked
  simp only [PresentDevice.loadRecord, howner, exists_eq_right]
  split
  · rename_i hmem
    simp [hmem]
  · rename_i hmem
    simp [hmem]

theorem PresentDevice.pairAtoms_own {t : AtomTable} (d : PresentDevice t) :
    pairAtoms t (t.string d.mfname, t.string d.modelid) = some (d.mfname, d.modelid) :=
  pairAtoms_eq_some.mpr ⟨d.mfname_registered, d.modelid_registered⟩

theorem marked_of_mem {t : AtomTable} {pairs : List NamePair} {d : PresentDevice t}
    (h : (t.string d.mfname, t.string d.modelid) ∈ pairs) (state : LoadState) :
    marked t pairs (d.loadRecord state) = d.loadRecord .scheduled := by
  unfold marked
  rw [if_pos ⟨_, h, d.pairAtoms_own⟩]
  rfl

theorem pairScheduled_iff {t : AtomTable} {records : List LoadRecord} {pair : NamePair} :
    pairScheduled t records pair = true ↔ ∃ mfname modelid, pairAtoms t pair =
      some (mfname, modelid) ∧ ∃ rec ∈ records, rec.modelid =
        modelid ∧ rec.mfnameLowerCaseHash = atomLowerCaseStringHash t.string mfname := by
  unfold pairScheduled
  cases pairAtoms t pair with
  | none => simp
  | some atoms =>
    obtain ⟨mfname, modelid⟩ := atoms
    simp only [Option.some.injEq, Prod.mk.injEq, any_eq_true, Bool.and_eq_true, beq_iff_eq]
    constructor
    · intro hrec
      exact ⟨mfname, modelid, ⟨rfl, rfl⟩, hrec⟩
    · rintro ⟨_, _, ⟨rfl, rfl⟩, hrec⟩
      exact hrec

namespace DescChunk

variable (b : DescChunk)

theorem reloadBundleDevices_snd (t : AtomTable) (records : List LoadRecord) :
    (reloadBundleDevices t b.desc records).2 = if b.cj.tokens.length ≤
      reloadTokens then
        records.map (marked t (deviceIdentifiers { b.cj with tokensSize := reloadTokens }))
      else records := by
  unfold reloadBundleDevices
  rw [b.parseDesc_eq (by decide)]
  by_cases hfits : b.cj.tokens.length ≤ reloadTokens
  · rw [if_pos hfits, if_pos hfits]
    exact foldl_markPair t _ 0 records
  · rw [if_neg hfits, if_neg hfits]

/-- A bundle is let through when a pair that is read has atoms in the spelling of the bundle, and a
record has the same model identifier and, but for its spelling, the same manufacturer name. -/
theorem isBundleScheduled_iff (timeFromISO8601 : List UInt8 → Int) (t : AtomTable)
    (records : List LoadRecord) (bundleLastModified : Int) :
    (isBundleScheduled timeFromISO8601 t b.desc records bundleLastModified).1 = true ↔
      b.cj.tokens.length ≤ contextTokens ∧ ∃ e pair mfname modelid, Reaches b.cj b.entries e ∧
        EntryReads b.cj e pair ∧ pairAtoms t pair = some (mfname, modelid) ∧ ∃ rec ∈
          records, rec.modelid = modelid ∧ rec.mfnameLowerCaseHash =
            atomLowerCaseStringHash t.string mfname := by
  obtain ⟨ref, href, htok⟩ := b.has_last_modified
  unfold isBundleScheduled
  rw [b.parseDesc_eq (by decide)]
  by_cases hfits : b.cj.tokens.length ≤ contextTokens
  · rw [if_pos hfits]
    simp only [Cj.valueRef_tokensSize, href, htok, b.last_modified_string, ne_eq, not_true_eq_false,
      if_false, any_eq_true, pairScheduled_iff, b.mem_deviceIdentifiers]
    constructor
    · rintro ⟨pair, ⟨e, hreaches, hreads⟩, mfname, modelid, hatoms, hrec⟩
      exact ⟨hfits, e, pair, mfname, modelid, hreaches, hreads, hatoms, hrec⟩
    · rintro ⟨-, e, pair, mfname, modelid, hreaches, hreads, hatoms, hrec⟩
      exact ⟨pair, ⟨e, hreaches, hreads⟩, mfname, modelid, hatoms, hrec⟩
  · rw [if_neg hfits]
    simp [hfits]

end DescChunk

/-! ## Agreement -/

/-- The description fits into the smaller one of the two token arrays, and one of the entries that
the loop comes to is read as the names of the device, spelled as the device has them. -/
def OwnSpellingRead (t : AtomTable) (b : DescChunk) (d : PresentDevice t) : Prop :=
  b.cj.tokens.length ≤ reloadTokens ∧ ∃ e, Reaches b.cj b.entries e ∧
    EntryReads b.cj e (t.string d.mfname, t.string d.modelid)

/-- The matchers agree just when every device that `get` would match has a pair of its own: one that
is read, and that is spelled as the device spells it. -/
theorem matchers_agree_iff (timeFromISO8601 : List UInt8 → Int) (t : AtomTable)
    (devices : List (PresentDevice t)) (b : DescChunk) :
    MatchersAgree timeFromISO8601 t devices b ↔ ∀ d ∈
      devices,
        (∃ pair, b.Lists pair ∧ pair.2 = t.string d.modelid ∧ stringHash (nameKey pair.1) =
          stringHash (nameKey (t.string d.mfname))) →
        OwnSpellingRead t b d := by
  constructor
  · -- the records are all loaded before the bundle is updated
    intro hagree d hmem hmeant
    obtain ⟨i, hi⟩ := mem_iff_getElem?.mp hmem
    obtain ⟨pair, hlists, hmatch⟩ := hmeant
    have hmarked := (hagree (fun _ => .loaded) 0 i d hi
      ⟨pair, hlists, (getMatches_iff t pair d).mpr hmatch⟩).2
    have hrecord : (devices.map fun d => d.loadRecord .loaded)[i]? =
        some (d.loadRecord .loaded) := by
      rw [List.getElem?_map, hi]
      rfl
    rw [b.reloadBundleDevices_snd] at hmarked
    by_cases hfits : b.cj.tokens.length ≤ reloadTokens
    · rw [if_pos hfits, List.getElem?_map, hrecord] at hmarked
      have hown := (marked_loadRecord _ d).mp (Option.some.inj hmarked)
      exact ⟨hfits, (b.mem_deviceIdentifiers reloadTokens _).mp hown⟩
    · rw [if_neg hfits, hrecord] at hmarked
      exact absurd (congrArg LoadRecord.loadState (Option.some.inj hmarked))
        (by simp [PresentDevice.loadRecord])
  · intro hown state bundleLastModified records i d hi hmeant
    obtain ⟨pair, hlists, hmatch⟩ := hmeant
    obtain ⟨hfits, hread⟩ := hown d (mem_of_getElem? hi)
      ⟨pair, hlists, (getMatches_iff t pair d).mp hmatch⟩
    have hrecord : records[i]? = some (d.loadRecord (state d)) := by
      rw [List.getElem?_map, hi]
      rfl
    obtain ⟨e, hreaches, hreads⟩ := hread
    constructor
    · rw [b.isBundleScheduled_iff]
      refine ⟨Nat.le_trans hfits (by decide), e, _, d.mfname, d.modelid, hreaches, hreads,
        d.pairAtoms_own, _, mem_of_getElem? hrecord, rfl, rfl⟩
    · rw [b.reloadBundleDevices_snd, if_pos hfits, List.getElem?_map, hrecord]
      exact congrArg some
        (marked_of_mem ((b.mem_deviceIdentifiers reloadTokens _).mpr ⟨e, hreaches, hreads⟩)
          (state d))

def sampleIndex (s : List UInt8) : Option Nat :=
  if s = sampleString 1 then some 1 else if s = sampleString 2 then some 2 else none

theorem sampleIndex_cases {s : List UInt8} {i : Nat} (h : sampleIndex s = some i) :
    sampleString i = s ∧ 0 < i ∧ i ≤ 2 := by
  unfold sampleIndex at h
  split at h
  · rename_i hs
    rw [← Option.some.inj h]
    exact ⟨hs.symm, by decide, by decide⟩
  · split at h
    · rename_i hs
      rw [← Option.some.inj h]
      exact ⟨hs.symm, by decide, by decide⟩
    · exact absurd h (by simp)

def sampleAtoms : AtomTable where
  index := sampleIndex
  string := sampleString
  last := 2
  string_of_index := fun _ _ h => (sampleIndex_cases h).1
  index_pos := fun _ _ h => (sampleIndex_cases h).2.1
  index_le := fun _ _ h => (sampleIndex_cases h).2.2

/-- `{"last_modified":"2024-01-01T00:00:00Z","device_identifiers":[["lumi","plug"]]}` -/
def lowerCaseDesc : List UInt8 :=
  [0x7B, 0x22, 0x6C, 0x61, 0x73, 0x74, 0x5F, 0x6D, 0x6F, 0x64, 0x69, 0x66, 0x69, 0x65, 0x64, 0x22,
    0x3A, 0x22, 0x32, 0x30, 0x32, 0x34, 0x2D, 0x30, 0x31, 0x2D, 0x30, 0x31, 0x54, 0x30, 0x30,
    0x3A, 0x30, 0x30, 0x3A, 0x30, 0x30, 0x5A, 0x22, 0x2C, 0x22, 0x64, 0x65, 0x76, 0x69, 0x63,
    0x65, 0x5F, 0x69, 0x64, 0x65, 0x6E, 0x74, 0x69, 0x66, 0x69, 0x65, 0x72, 0x73, 0x22, 0x3A,
    0x5B, 0x5B, 0x22, 0x6C, 0x75, 0x6D, 0x69, 0x22, 0x2C, 0x22, 0x70, 0x6C, 0x75, 0x67, 0x22,
    0x5D, 0x5D, 0x7D]

def lowerCaseContext : Ctx where
  buf := lowerCaseDesc
  pos := 79
  size := 79
  tokens :=
    [⟨.objectBeg, 0, 1, none⟩, ⟨.string, 2, 13, some 0⟩, ⟨.nameSep, 16, 1, some 0⟩,
      ⟨.string, 18, 20, some 0⟩, ⟨.itemSep, 39, 1, some 0⟩, ⟨.string, 41, 18, some 0⟩,
      ⟨.nameSep, 60, 1, some 0⟩, ⟨.arrayBeg, 61, 1, some 0⟩, ⟨.arrayBeg, 62, 1, some 7⟩,
      ⟨.string, 64, 4, some 8⟩, ⟨.itemSep, 69, 1, some 8⟩, ⟨.string, 71, 4, some 8⟩,
      ⟨.arrayEnd, 76, 1, some 7⟩, ⟨.arrayEnd, 77, 1, some 0⟩, ⟨.objectEnd, 78, 1, none⟩]
  tokensSize := contextTokens

def lowerCaseBundle : DescChunk where
  desc := lowerCaseDesc
  tokensSize := contextTokens
  cj := lowerCaseContext
  parsed := by decide +kernel
  lastModified := ⟨.string, 18, 20, some 0⟩
  has_last_modified := ⟨3, by decide +kernel, rfl⟩
  last_modified_string := rfl
  tokens := lowerCaseContext.tokens.drop 8
  entries := [(⟨.string, 64, 4, some 8⟩, ⟨.string, 71, 4, some 8⟩)]
  has_identifiers := ⟨7, ⟨.arrayBeg, 61, 1, some 0⟩, by decide +kernel, rfl, rfl⟩
  entryTokens := .entry rfl rfl rfl rfl rfl (.close rfl)

def upperCaseDevice : PresentDevice sampleAtoms where
  mfname := 1
  modelid := 2
  mfname_registered := by decide
  modelid_registered := by decide

/-- A bundle for `lumi` is not loaded for the device `LUMI`. -/
theorem lower_case_not_scheduled :
    ¬ ∀ timeFromISO8601 t devices b, MatchersAgree timeFromISO8601 t devices b := by
  intro h
  have hagree := h (fun _ => 0) sampleAtoms [upperCaseDevice] lowerCaseBundle (fun _ => .loaded) 0 0
    upperCaseDevice rfl
  have hlists : lowerCaseBundle.Lists ([0x6C, 0x75, 0x6D, 0x69], sampleString 2) :=
    ⟨_, mem_cons_self, .of_unescaped (by decide +kernel), .of_unescaped (by decide +kernel)⟩
  have hmatch : GetMatches sampleAtoms ([0x6C, 0x75, 0x6D, 0x69], sampleString 2)
      upperCaseDevice :=
    (getMatches_iff _ _ _).mpr ⟨rfl, by decide⟩
  have hscheduled := (hagree ⟨_, hlists, hmatch⟩).1
  have hnot : (isBundleScheduled (fun _ => 0) sampleAtoms lowerCaseDesc
      [upperCaseDevice.loadRecord .loaded] 0).1 = false := by decide +kernel
  exact absurd (hnot.symm.trans hscheduled) (by decide)

end Ddf
end DeconzRest

import DeconzRest.Ddf.FixLets

/-!
# `DDF_ResolveBundleParamScript`

A script of a bundle is named by a parameter; it is meant to be found by its file name.  The loop
for the last `/` of a path begins behind the path, and a name is compared with the end of the
parameter, with its `/` where it has one.  Which file is taken so is said by `names_iff`.
-/

namespace DeconzRest
namespace DeviceObject

open Option Json
open QString (ofLatin1)
open QVariant (value contains)
open Ddf (ExtfChunk tag)

variable {D : Type}

def slash : UInt8 := 0x2F

/-- The part of a path behind the last `/`, or all of it -/
def fileName (path : List UInt8) : List UInt8 := path.rtakeWhile (· != slash)

theorem fileName_append {name : List UInt8} (h : slash ∉ name) (front : List UInt8) :
    fileName (front ++ slash :: name) = name := by
  unfold fileName
  induction name using List.reverseRecOn with
  | nil => exact List.rtakeWhile_concat_neg _ _ _ (by simp)
  | append_singleton name octet ih =>
    obtain ⟨hname, hoctet⟩ := not_or.mp (mt List.mem_append.mpr h)
    have hkeep : (octet != slash) = true :=
      bne_iff_ne.mpr fun heq => hoctet (heq ▸ List.mem_singleton_self octet)
    rw [← List.cons_append, ← List.append_assoc, List.rtakeWhile_concat_pos (· != slash) _ _ hkeep,
      ih hname]

theorem exists_front {path : List UInt8} (h : slash ∈ path) :
    ∃ front, path = front ++ slash :: fileName path := by
  have hne : path.rdropWhile (· != slash) ≠ [] := by
    intro hnil
    exact absurd (List.rdropWhile_eq_nil_iff.mp hnil slash h) (by simp)
  have hlast := List.rdropWhile_last_not (· != slash) path hne
  have hsplit := List.rdropWhile_append_rtakeWhile (p := (· != slash)) (l := path)
  rw [← List.dropLast_append_getLast hne, List.append_assoc] at hsplit
  refine ⟨(path.rdropWhile (· != slash)).dropLast, ?_⟩
  simp only [bne_iff_ne, ne_eq, Decidable.not_not] at hlast
  rw [hlast] at hsplit
  exact hsplit.symm

/-- A text ends in a name with its `/` if it has a `/`, and this name behind the last one. -/
theorem slash_name_suffix_iff {name : List UInt8} (h : slash ∉ name) (s : List UInt8) :
    slash :: name <:+ s ↔ slash ∈ s ∧ fileName s = name := by
  constructor
  · rintro ⟨front, rfl⟩
    exact ⟨List.mem_append_right _ List.mem_cons_self, fileName_append h front⟩
  · rintro ⟨hmem, rfl⟩
    obtain ⟨front, hfront⟩ := exists_front hmem
    exact ⟨front, hfront.symm⟩

/-! ## External files -/

def BundleFile.path (bundle : BundleFile) (extf : ExtfChunk) : List UInt8 :=
  (bundle.data.drop extf.path).take extf.pathLength

def BundleFile.behindPath (bundle : BundleFile) (extf : ExtfChunk) : UInt8 :=
  bundle.data.getD (extf.path + extf.pathLength) 0

def BundleFile.text (bundle : BundleFile) (extf : ExtfChunk) : QString :=
  QString.fromUtf8 ((bundle.data.drop extf.fileData).take extf.fileSize)

/-- The scan for the last `/` goes from behind a path down to its second octet. -/
theorem fnameStart_spec (octet : Nat → UInt8) (n : Nat) :
    fnameStart octet n ≤ n ∧ (fnameStart octet n ≠ 0 → octet (fnameStart octet n) = slash) ∧
      ∀ i, fnameStart octet n < i → i ≤ n → octet i ≠ slash := by
  induction n with
  | zero => exact ⟨Nat.le_refl 0, fun h => absurd rfl h, fun i hi hle => by
    have hzero : fnameStart octet 0 = 0 := rfl
    omega⟩
  | succ n ih =>
    rw [fnameStart]
    split
    · rename_i hslash
      exact ⟨Nat.le_refl _, fun _ => hslash, fun i hi hle => absurd hi (Nat.not_lt_of_le hle)⟩
    · rename_i hno
      obtain ⟨hle, hat, hafter⟩ := ih
      refine ⟨Nat.le_succ_of_le hle, hat, fun i hi hin => ?_⟩
      rcases Nat.le_succ_iff.mp hin with hin | rfl
      · exact hafter i hi hin
      · exact hno

section Names

variable {bundle : BundleFile} {extf : ExtfChunk} {script : List UInt8}

theorem getElem?_path {i : Nat} (hi : i < extf.pathLength) :
    (bundle.path extf)[i]? = bundle.data[extf.path + i]? := by
  unfold BundleFile.path
  rw [List.getElem?_take_of_lt hi, List.getElem?_drop]

theorem getElem?_eq_slash_iff {data : List UInt8} {i : Nat} :
    data[i]? = some slash ↔ data.getD i 0 = slash := by
  rw [List.getD_eq_getElem?_getD]
  cases data[i]? with
  | none => exact iff_of_false (fun h => (nomatch h)) (by decide)
  | some octet => exact some_inj

/-- What a path is compared with: everything behind which the octet is a `/`, a text with the same
file name behind a `/`, or a text that ends in a path without `/`. -/
theorem names_iff (hpath : extf.pathLength ≠ 0) : bundle.names extf script = true ↔
    bundle.behindPath extf = slash ∨ if slash ∈
      bundle.path extf then
        slash ∈ script ∧ fileName (bundle.path extf) = fileName script
      else bundle.path extf <:+ script := by
  unfold BundleFile.names
  simp only
  obtain ⟨hle, hat, hafter⟩ :=
    fnameStart_spec (fun i => bundle.data.getD (extf.path + i) 0) extf.pathLength
  generalize fnameStart (fun i => bundle.data.getD (extf.path + i) 0) extf.pathLength = start
    at hle hat hafter
  have hname : (bundle.data.drop (extf.path + start)).take (extf.pathLength - start) =
      (bundle.path extf).drop start := by
    unfold BundleFile.path
    rw [List.drop_take, List.drop_drop]
  rw [hname, List.isSuffixOf_iff_suffix]
  by_cases hbehind : bundle.behindPath extf = slash
  · -- the scan stops at once, and nothing is compared
    have hstart : start = extf.pathLength := by
      by_contra hne
      exact hafter _ (Nat.lt_of_le_of_ne hle hne) (Nat.le_refl _) hbehind
    have hlength : (bundle.path extf).length ≤ extf.pathLength := List.length_take_le _ _
    rw [hstart, List.drop_eq_nil_of_le hlength]
    exact iff_of_true List.nil_suffix (.inl hbehind)
  · have hlt : start < extf.pathLength := by
      refine Nat.lt_of_le_of_ne hle fun heq => hbehind ?_
      rw [heq] at hat
      exact hat hpath
    have hrest : slash ∉ (bundle.path extf).drop (start + 1) := by
      intro hmem
      obtain ⟨i, hi⟩ := List.mem_iff_getElem?.mp hmem
      rw [List.getElem?_drop] at hi
      have hbound : start + 1 + i < extf.pathLength :=
        Nat.lt_of_lt_of_le (List.getElem?_eq_some_iff.mp hi).1 (List.length_take_le _ _)
      rw [getElem?_path hbound, getElem?_eq_slash_iff] at hi
      exact hafter _ (by omega) (Nat.le_of_lt hbound) hi
    rw [or_iff_right hbehind]
    split
    · rename_i hmem
      have hslash : (bundle.path extf)[start]? = some slash := by
        by_cases hzero : start = 0
        · subst hzero
          cases hlist : bundle.path extf with
          | nil => exact absurd (hlist ▸ hmem) List.not_mem_nil
          | cons octet path =>
            rw [hlist] at hmem hrest
            rcases List.mem_cons.mp hmem with rfl | hpath
            · rfl
            · exact absurd hpath hrest
        · rw [getElem?_path hlt, getElem?_eq_slash_iff]
          exact hat hzero
      obtain ⟨hbound, hget⟩ := List.getElem?_eq_some_iff.mp hslash
      have hdrop : (bundle.path extf).drop start = slash ::
          (bundle.path extf).drop (start + 1) := by
        rw [List.drop_eq_getElem_cons hbound, hget]
      have hfile : fileName (bundle.path extf) = (bundle.path extf).drop (start + 1) := by
        have hsplit := List.take_append_drop start (bundle.path extf)
        rw [hdrop] at hsplit
        have happend := fileName_append hrest ((bundle.path extf).take start)
        rwa [hsplit] at happend
      rw [hdrop, slash_name_suffix_iff hrest, hfile]
      exact and_congr_right fun _ => eq_comm
    · rename_i hmem
      have hzero : start = 0 := by
        by_contra hne
        refine hmem (List.mem_of_getElem? (i := start) ?_)
        rw [getElem?_path hlt, getElem?_eq_slash_iff]
        exact hat hne
      rw [hzero, List.drop_zero]

/-- The loop over the external files takes a file. -/
def BundleFile.Takes (bundle : BundleFile) (script : List UInt8) (extf : ExtfChunk) : Prop :=
  extf.fileType = tag "SCJS" ∧ 4 ≤ extf.pathLength ∧
    (bundle.behindPath extf = slash ∨ if slash ∈
      bundle.path extf then
        slash ∈ script ∧ fileName (bundle.path extf) = fileName script
      else bundle.path extf <:+ script)

instance (bundle : BundleFile) (script : List UInt8) (extf : ExtfChunk) :
    Decidable (bundle.Takes script extf) := inferInstanceAs (Decidable (_ ∧ _))

/-- The file that a parameter is meant to name: a JavaScript file with the same file name -/
def BundleFile.Named (bundle : BundleFile) (script : List UInt8) (extf : ExtfChunk) : Prop :=
  extf.fileType = tag "SCJS" ∧ fileName (bundle.path extf) = fileName script

instance (bundle : BundleFile) (script : List UInt8) (extf : ExtfChunk) :
    Decidable (bundle.Named script extf) := inferInstanceAs (Decidable (_ ∧ _))

def BundleFile.firstText (bundle : BundleFile) (p : ExtfChunk → Prop) [DecidablePred p] : QString :=
  ((bundle.extChunks.find? fun extf => decide (p extf)).map bundle.text).getD []

theorem script?_eq (bundle : BundleFile) (script : List UInt8) :
    (bundle.script? script).getD [] = bundle.firstText (bundle.Takes script) := by
  unfold BundleFile.script? BundleFile.firstText
  congr 3
  funext extf
  rw [Bool.eq_iff_iff, decide_eq_true_iff, Bool.and_eq_true, Bool.and_eq_true, beq_iff_eq,
    decide_eq_true_iff]
  unfold BundleFile.Takes
  rw [and_assoc]
  refine and_congr_right fun _ => and_congr_right fun hlength => names_iff ?_
  exact Nat.pos_iff_ne_zero.mp (Nat.lt_of_lt_of_le (by decide) hlength)

/-- The JavaScript files have pairwise different file names. -/
def BundleFile.DistinctNames (bundle : BundleFile) : Prop :=
  ((bundle.extChunks.filter fun extf => extf.fileType == tag "SCJS").map fun extf =>
    fileName (bundle.path extf)).Nodup

instance (bundle : BundleFile) : Decidable bundle.DistinctNames :=
  inferInstanceAs (Decidable (List.Nodup _))

theorem firstText_named (hdistinct : bundle.DistinctNames) (hextf : extf ∈ bundle.extChunks)
    (hnamed : bundle.Named script extf) :
    bundle.firstText (bundle.Named script) = bundle.text extf := by
  unfold BundleFile.firstText
  cases hfound : bundle.extChunks.find? fun extf => decide (bundle.Named script extf) with
  | none => exact absurd (decide_eq_true hnamed) (List.find?_eq_none.mp hfound extf hextf)
  | some first =>
    have hfirst : bundle.Named script first := of_decide_eq_true
      (List.find?_some (p := fun extf => decide (bundle.Named script extf)) hfound)
    have hmem (e : ExtfChunk) (he : e ∈ bundle.extChunks) (hn : bundle.Named script e) :
        e ∈ bundle.extChunks.filter fun extf => extf.fileType == tag "SCJS" :=
      List.mem_filter.mpr ⟨he, beq_iff_eq.mpr hn.1⟩
    have hsame : first = extf :=
      List.inj_on_of_nodup_map hdistinct (hmem first (List.mem_of_find?_eq_some hfound) hfirst)
        (hmem extf hextf hnamed) (hfirst.2.trans hnamed.2.symm)
    rw [hsame]
    rfl

theorem firstText_of_no_text {p : ExtfChunk → Prop} [DecidablePred p]
    (h : ∀ extf ∈ bundle.extChunks, p extf → bundle.text extf = []) : bundle.firstText p = [] := by
  unfold BundleFile.firstText
  cases hfound : bundle.extChunks.find? fun extf => decide (p extf) with
  | none => rfl
  | some first =>
    have hfirst : p first := of_decide_eq_true
      (List.find?_some (p := fun extf => decide (p extf)) hfound)
    exact h first (List.mem_of_find?_eq_some hfound) hfirst

end Names

/-! ## The parameters -/

/-- The parameters with a script as their expression; an empty one leaves them as they are. -/
def withEval (map : JsonObject D) (text : QString) : JsonObject D :=
  if text = [] then map else insert (ofLatin1 "eval") (.string text) map

section Parameters

variable (js : ScriptEnv D) (bundle : BundleFile) (map : JsonObject D)

/-- The octets of the parameter `script` -/
def scriptName : List UInt8 := QString.toUtf8 (js.toText (value map "script"))

/-- The end of `DDF_ResolveBundleParamScript`: the expression of the loaded parameters is repaired
where it does not compile. -/
def evalRepaired (loaded : JsonObject D) : Option (Option (JsonObject D)) :=
  match expression? js loaded with
  | none => some (some map)
  | some content =>
    (tryCompileAndFix js content).map fun content =>
      some (insert (ofLatin1 "eval") (.string content) loaded)

/-- The expression is the content of the file that is named, if this is not empty; otherwise it is
what it was. -/
structure ResolvesNamed : Prop where
  named : ∀ extf ∈ bundle.extChunks, bundle.Named (scriptName js map) extf → bundle.text extf ≠ [] →
    resolveBundleParamScript js bundle (some map) =
      evalRepaired js map (insert (ofLatin1 "eval") (.string (bundle.text extf)) map)
  other : (∀ extf ∈ bundle.extChunks, bundle.Named (scriptName js map) extf → bundle.text extf =
      []) →
    resolveBundleParamScript js bundle (some map) = evalRepaired js map map

/-- The expression that there is with a text of a script: the text, or else the expression of the
parameters -/
def expressionWith (text : QString) : Option QString :=
  if text = [] then expression? js map else some text

end Parameters

section Resolve

variable {js : ScriptEnv D} {bundle : BundleFile} {map : JsonObject D}

theorem loadScript_eq (hscript : contains map "script" = true) : loadScript js bundle map =
    withEval map (bundle.firstText (bundle.Takes (scriptName js map))) := by
  unfold loadScript withEval
  rw [if_pos hscript, ← script?_eq]
  unfold scriptName
  cases bundle.script? (QString.toUtf8 (js.toText (value map "script"))) with
  | none => rfl
  | some content => rfl

theorem resolve_eq (hscript : contains map "script" = true) :
    resolveBundleParamScript js bundle (some map) =
      evalRepaired js map
        (withEval map (bundle.firstText (bundle.Takes (scriptName js map)))) := by
  rw [← loadScript_eq hscript]
  rfl

theorem resolvesNamed_iff_repaired (hdistinct : bundle.DistinctNames)
    (hscript : contains map "script" = true) : ResolvesNamed js bundle map ↔
      evalRepaired js map (withEval map (bundle.firstText (bundle.Takes (scriptName js map)))) =
        evalRepaired js map
          (withEval map (bundle.firstText (bundle.Named (scriptName js map)))) := by
  rw [← resolve_eq hscript]
  constructor
  · intro h
    by_cases hany : ∃ extf ∈ bundle.extChunks, bundle.Named (scriptName js map) extf ∧
        bundle.text extf ≠ []
    · obtain ⟨extf, hextf, hnamed, htext⟩ := hany
      rw [h.named extf hextf hnamed htext, firstText_named hdistinct hextf hnamed, withEval,
        if_neg htext]
    · have hnone : ∀ extf ∈ bundle.extChunks, bundle.Named (scriptName js map) extf →
          bundle.text extf = [] := by
        intro extf hextf hnamed
        by_contra htext
        exact hany ⟨extf, hextf, hnamed, htext⟩
      rw [h.other hnone, firstText_of_no_text hnone]
      rfl
  · intro h
    refine ⟨fun extf hextf hnamed htext => ?_, fun hnone => ?_⟩
    · rw [h, firstText_named hdistinct hextf hnamed, withEval, if_neg htext]
    · rw [h, firstText_of_no_text hnone]
      rfl

theorem expression?_withEval (htext : ∀ s, js.toText (.string s) = s) (text : QString) :
    expression? js (withEval map text) = expressionWith js map text := by
  unfold withEval expressionWith
  split
  · rfl
  · rename_i hne
    unfold expression? contains value
    rw [lookup_insert, if_pos rfl, getD_some, htext]
    rw [if_pos (by simp [hne])]

theorem insert_withEval (content text : QString) :
    insert (ofLatin1 "eval") (.string content) (withEval map text) =
      insert (ofLatin1 "eval") (.string content) map := by
  unfold withEval
  split
  · rfl
  · exact insert_insert _ _ _ _

theorem evalRepaired_withEval (htext : ∀ s, js.toText (.string s) = s) (text : QString) :
    evalRepaired js map (withEval map text) =
      match expressionWith js map text with
      | none => some (some map)
      | some content => (tryCompileAndFix js content).map fun content =>
        some (insert (ofLatin1 "eval") (.string content) map) := by
  unfold evalRepaired
  rw [expression?_withEval htext]
  simp only [insert_withEval]

theorem expressionWith_ne_nil {text content : QString}
    (h : expressionWith js map text = some content) : content ≠ [] := by
  unfold expressionWith at h
  split at h
  · unfold expression? at h
    split at h
    · rename_i hboth
      rw [← some_inj.mp h]
      exact of_decide_eq_true (Bool.and_eq_true_iff.mp hboth).2
    · cases h
  · rename_i hne
    rw [← some_inj.mp h]
    exact hne

theorem insert_ne_of_none (htext : ∀ s, js.toText (.string s) = s) {text content : QString}
    (hnone : expressionWith js map text = none) (hcontent : content ≠ []) :
    insert (ofLatin1 "eval") (.string content) map ≠ map := by
  intro hsame
  have hexpression : expression? js (withEval map content) = _ :=
    expression?_withEval htext content
  rw [withEval, if_neg hcontent, hsame, expressionWith, if_neg hcontent] at hexpression
  unfold expressionWith at hnone
  split at hnone
  · exact absurd (hnone.symm.trans hexpression) (some_ne_none content).symm
  · cases hnone

theorem insert_inj {content content' : QString}
    (h : insert (ofLatin1 "eval") (.string content) map =
      insert (ofLatin1 "eval") (.string content') map) : content = content' := by
  have hlookup := congrArg (fun m => m.lookup (ofLatin1 "eval")) h
  simp only [lookup_insert, if_true, Option.some.injEq, QVariant.string.injEq] at hlookup
  exact hlookup

end Resolve

/-- A script is resolved by its file name, whatever compiles, exactly if the file that is taken has
the text of the file that is named, an empty text or no file standing for the expression that the
parameters have already.  The file that is taken is the first one with a path of at least four
octets that has a `/` behind its path, or a `/` in it and the file name of a parameter with a `/`,
or no `/` and a path in which the parameter ends. -/
theorem resolvesNamed_iff (js : ScriptEnv D) (htext : ∀ s, js.toText (.string s) = s)
    (bundle : BundleFile) (hdistinct : bundle.DistinctNames) (map : JsonObject D)
    (hscript : contains map "script" = true) :
    (∀ testCompile, ResolvesNamed { js with testCompile } bundle map) ↔
      expressionWith js map (bundle.firstText (bundle.Takes (scriptName js map))) =
        expressionWith js map (bundle.firstText (bundle.Named (scriptName js map))) := by
  have hiff (testCompile : QString → Bool) : ResolvesNamed { js with testCompile } bundle map ↔ _ :=
    resolvesNamed_iff_repaired hdistinct hscript
  have htext' (testCompile : QString → Bool) (s : QString) :
      ({ js with testCompile } : ScriptEnv D).toText (.string s) = s := htext s
  have hrepaired (testCompile : QString → Bool) (text : QString) :
      evalRepaired { js with testCompile } map (withEval map text) = _ :=
    evalRepaired_withEval (htext' testCompile) text
  have hsame (testCompile : QString → Bool) (text : QString) :
      expressionWith { js with testCompile } map text = expressionWith js map text := rfl
  have hname (testCompile : QString → Bool) :
      scriptName { js with testCompile } map = scriptName js map := rfl
  simp only [hiff, hrepaired, hsame, hname]
  generalize bundle.firstText (bundle.Takes (scriptName js map)) = taken
  generalize bundle.firstText (bundle.Named (scriptName js map)) = named
  constructor
  · intro hall
    -- an engine for which every text compiles
    have hcompiles := hall fun _ => true
    have hfix (content : QString) :
        tryCompileAndFix { js with testCompile := fun _ => true } content = some content := rfl
    simp only [hfix, map_some] at hcompiles
    cases htaken : expressionWith js map taken with
    | none =>
      cases hnamed : expressionWith js map named with
      | none => rfl
      | some content =>
        rw [htaken, hnamed] at hcompiles
        exact absurd (some_inj.mp (some_inj.mp hcompiles)).symm
          (insert_ne_of_none htext htaken (expressionWith_ne_nil hnamed))
    | some content =>
      cases hnamed : expressionWith js map named with
      | none =>
        rw [htaken, hnamed] at hcompiles
        exact absurd (some_inj.mp (some_inj.mp hcompiles))
          (insert_ne_of_none htext hnamed (expressionWith_ne_nil htaken))
      | some content' =>
        rw [htaken, hnamed] at hcompiles
        rw [insert_inj (some_inj.mp (some_inj.mp hcompiles))]
  · intro hexpression testCompile
    rw [hexpression]

def firstScript : ExtfChunk :=
  { fileType := tag "SCJS", pathLength := 4, fileSize := 1, fileData := 4 }

def oneScript (path : List UInt8) : BundleFile :=
  { data := path ++ [0x31], extChunks := [firstScript] }

def scriptParam (script : String) : JsonObject Unit :=
  [(ofLatin1 "script", .string (ofLatin1 script))]

theorem ownScript_resolved :
    ResolvesNamed (compiling fun _ => true) (oneScript [0x61, 0x2E, 0x6A, 0x73])
      (scriptParam "a.js") :=
  (resolvesNamed_iff (compiling fun _ => true) (fun _ => rfl) (oneScript [0x61, 0x2E, 0x6A, 0x73])
    (by decide +kernel) (scriptParam "a.js") (by decide)).mpr (by decide +kernel) fun _ => true

/-- The file `b.js` is taken for the script `ab.js`. -/
theorem otherScript_taken :
    (oneScript [0x62, 0x2E, 0x6A, 0x73]).DistinctNames ∧ contains (scriptParam "ab.js") "script" =
      true ∧
      ¬ ∀ testCompile, ResolvesNamed { compiling (fun _ => true) with testCompile }
        (oneScript [0x62, 0x2E, 0x6A, 0x73]) (scriptParam "ab.js") := by
  refine ⟨by decide +kernel, by decide, fun h => ?_⟩
  have hother := (h fun _ => true).other (by decide +kernel)
  have htaken : resolveBundleParamScript (compiling fun _ => true)
      (oneScript [0x62, 0x2E, 0x6A, 0x73]) (some (scriptParam "ab.js")) =
        some (some (insert (ofLatin1 "eval") (.string (ofLatin1 "1"))
          (scriptParam "ab.js"))) := by
    rw [resolve_eq (by decide)]
    have htext : (oneScript [0x62, 0x2E, 0x6A, 0x73]).firstText
        ((oneScript [0x62, 0x2E, 0x6A, 0x73]).Takes
          (scriptName (compiling fun _ => true) (scriptParam "ab.js"))) = ofLatin1 "1" := by
      decide +kernel
    rw [htext]
    rfl
  have hlength := congrArg (fun r => r.map fun p => p.map List.length) (htaken.symm.trans hother)
  exact absurd hlength (by decide)

end DeviceObject
end DeconzRest

import DeconzRest.Resource.Item
import DeconzRest.Qt.Unicode
import DeconzRest.Lib.Transition
import Mathlib.Data.List.TakeWhile
import Mathlib.Data.List.GetD

/-!
# The string views of a resource item

The text of a string item is kept three times: as a `QString`, and as UTF-8 either in a small
buffer of the item or as an atom.  Short values go to the buffer, unless the suffix tells that
the item is kept as an atom; a value that goes to an atom leaves the buffer as it was.

* A text with a NUL is cut by the views that read up to the first NUL.
* `equalsString` of an empty string looks at the buffer, also where the value is an atom.

These are the only differences between the views (`views_agree_iff`).
-/

namespace DeconzRest

open QString Transition List

/-! ## Storage -/

/-- The octets that `strlen` counts of the octets behind a pointer. -/
def cString (octets : List UInt8) : List UInt8 := octets.takeWhile (· ≠ 0)

theorem cString_eq_self_iff {octets : List UInt8} : cString octets = octets ↔ 0 ∉ octets := by
  unfold cString
  rw [takeWhile_eq_self_iff]
  constructor
  · intro h hzero
    exact absurd (h 0 hzero) (by decide)
  · intro h b hb
    simp only [ne_eq, decide_not, Bool.not_eq_eq_eq_not, Bool.not_true, decide_eq_false_iff_not]
    intro hzero
    rw [hzero] at hb
    exact h hb

variable (octets : List UInt8)

theorem zero_not_mem_cString : (0 : UInt8) ∉ cString octets := by
  intro hmem
  exact absurd (mem_takeWhile_imp hmem) (by decide)

theorem cString_cString : cString (cString octets) = cString octets :=
  cString_eq_self_iff.mpr (zero_not_mem_cString octets)

theorem length_cString_le : (cString octets).length ≤ octets.length :=
  (takeWhile_sublist _).length_le

theorem toUtf8_eq_nil_iff {s : QString} : toUtf8 s = [] ↔ s = [] := by
  have hchar : ∀ (c : Char) (cs : List Char), (c :: cs).flatMap String.utf8EncodeChar ≠ [] := by
    intro c cs hnil
    have hlength := congrArg List.length hnil
    rw [flatMap_cons, List.length_append, String.length_utf8EncodeChar] at hlength
    have hpos := c.utf8Size_pos
    simp only [length_nil] at hlength
    omega
  constructor
  · intro h
    cases s with
    | nil => rfl
    | cons u s =>
      unfold toUtf8 at h
      cases s with
      | nil => exact absurd h (hchar _ _)
      | cons v s =>
        rw [toChars] at h
        split at h
        · exact absurd h (hchar _ _)
        · exact absurd h (hchar _ _)
  · rintro rfl
    rfl

/-- `BufString`: a buffer with a length octet and a terminating NUL. -/
structure BufString (size : Nat) where
  octets : List UInt8 := []
  length_le : octets.length ≤ size - 2 := by exact Nat.zero_le _

namespace BufString

variable {size : Nat}

/-- `setString` with a length; what is too long is refused. -/
def setString (b : BufString size) (str : List UInt8) : BufString size :=
  if h : str.length ≤ size - 2 then { octets := str, length_le := h } else b

/-- Comparison with the octets behind a pointer. -/
def equals (b : BufString size) (str : List UInt8) : Bool :=
  cString b.octets == cString str

end BufString

/-- `ItemString` -/
abbrev ItemString := BufString 16

/-- The atom table of the deCONZ library: an atom is found by its index, and has no octets if
there is none.  The octets of an atom are followed by a NUL. -/
structure AtomTable (T : Type) where
  addAtom : T → List UInt8 → Option (Nat × T)
  getAtomByIndex : T → Nat → List UInt8

/-- Atoms can be allocated, keep their octets and are never removed; 0 is no index. -/
structure AtomTable.Interns {T : Type} (table : AtomTable T) : Prop where
  add : ∀ t octets, octets ≠ [] → ∃ index t', table.addAtom t octets = some (index, t') ∧ index ≠
    0 ∧ table.getAtomByIndex t' index = octets
  keep : ∀ t octets index t' i, table.addAtom t octets = some (index, t') →
    table.getAtomByIndex t i ≠ [] → table.getAtomByIndex t' i = table.getAtomByIndex t i

namespace AtomTable

variable {T : Type} (table : AtomTable T)

/-- `StringCacheAdd`; the handle 0 is `STRING_CACHE_INVALID_HANDLE`. -/
def stringCacheAdd (t : T) (str : List UInt8) : Nat × T :=
  if str = [] then (0, t)
  else
    match table.addAtom t str with
    | some added => added
    | none => (0, t)

/-- `StringCacheGet` -/
def stringCacheGet (t : T) (handle : Nat) : Option (List UInt8) :=
  if handle = 0 then none
  else
    match table.getAtomByIndex t handle with
    | [] => none
    | b :: octets => some (b :: octets)

end AtomTable

/-- The strings of a `ResourceItem`. -/
structure StringItem extends ResourceItem where
  strHandle : Nat := 0
  istr : ItemString := {}

structure StringWorld (T : Type) where
  item : StringItem := {}
  atoms : T

inductive StringAction where
  | setValue (val : QString)
  | addAtom (octets : List UInt8)
deriving DecidableEq, Repr

def embedded (rid : ResourceItemDescriptor) (str : QString) : Bool :=
  decide ((toUtf8 str).length ≤ 14) && decide (rid.suffix.toList[0]? ≠ some 'a') &&
    decide (rid.suffix.toList[1]? ≠ some 't')

namespace StringWorld

variable {T : Type} (table : AtomTable T) (rid : ResourceItemDescriptor)

/-- `ResourceItem::setItemString` -/
def setItemString (w : StringWorld T) (str : QString) : StringWorld T :=
  if rid.type ≠ .string then w
  else if embedded rid str then
    { w with item := { w.item with
        istr := w.item.istr.setString (cString (toUtf8 str)), strHandle := 0 } }
  else
    let added := table.stringCacheAdd w.atoms (toUtf8 str)
    { item := { w.item with strHandle := added.1 }, atoms := added.2 }

/-- `ResourceItem::setValue(const QString &)` of an item with strings. -/
def setValue (w : StringWorld T) (val : QString) : StringWorld T :=
  let w := w.setItemString table rid (trimmed val)
  { w with item := { w.item with toResourceItem := w.item.toResourceItem.setString val } }

def step (w : StringWorld T) : StringAction → StringWorld T
  | .setValue val => w.setValue table rid val
  | .addAtom octets =>
    match table.addAtom w.atoms octets with
    | some (_, atoms) => { w with atoms := atoms }
    | none => w

/-- `ResourceItem::toString` -/
def toString (w : StringWorld T) : QString := if rid.type = .string then w.item.str else []

/-- `ResourceItem::toLatin1String` -/
def toLatin1String (w : StringWorld T) : List UInt8 :=
  if w.item.strHandle = 0 then w.item.istr.octets
  else
    match table.stringCacheGet w.atoms w.item.strHandle with
    | some str => str
    | none => []

/-- `ResourceItem::toCString`, up to the first NUL. -/
def toCString (w : StringWorld T) : List UInt8 :=
  match table.stringCacheGet w.atoms w.item.strHandle with
  | some str => cString str
  | none => cString w.item.istr.octets

/-- `ResourceItem::equalsString` of the octets behind a pointer; no length is -1. -/
def equalsString (w : StringWorld T) (str : List UInt8) (length : Option Nat) : Bool :=
  let length := length.getD (cString str).length
  if w.item.strHandle ≠ 0 ∧ 0 < length then
    match table.stringCacheGet w.atoms w.item.strHandle with
    | some istr => istr.length == length && str.take length == istr
    | none => false
  else if w.item.istr.octets.length = length then
    w.item.istr.equals str
  else
    false

/-- The views are the UTF-8 form of the text, and only its octets are equal to it. -/
structure Agree (w : StringWorld T) : Prop where
  toCString : w.toCString table = toUtf8 (w.toString rid)
  toLatin1String : w.toLatin1String table = toUtf8 (w.toString rid)
  equalsString : ∀ str, (0 : UInt8) ∉ str →
    (w.equalsString table str none = true ↔ toUtf8 (w.toString rid) = str)

/-! ## What was set -/

def noteText (text : QString) : StringAction → QString
  | .setValue val => trimmed val
  | .addAtom _ => text

def noteEmbedded (octets : List UInt8) : StringAction → List UInt8
  | .setValue val =>
    if embedded rid (trimmed val) then toUtf8 (trimmed val) else octets
  | .addAtom _ => octets

def lastText (acts : List StringAction) : QString := acts.foldl noteText []

/-- The UTF-8 octets of the last of the values that go to the buffer. -/
def lastEmbedded (acts : List StringAction) : List UInt8 := acts.foldl (noteEmbedded rid) []

/-- The views are read from the text `text` and from the octets of the buffer. -/
structure Holds (w : StringWorld T) (text : QString) (octets : List UInt8) : Prop where
  str : w.item.str = text
  istr : w.item.istr.octets = cString octets
  place : (w.item.strHandle = 0 ∧ w.item.istr.octets = cString (toUtf8 text)) ∨
    (w.item.strHandle ≠ 0 ∧ text ≠ [] ∧ table.getAtomByIndex w.atoms w.item.strHandle = toUtf8 text)
  /-- An item whose suffix keeps values out of the buffer never had one in it. -/
  outside : embedded rid [] = false → octets = []

variable {table rid}

theorem embedded_nil {str : QString} (h : embedded rid str = true) : embedded rid [] = true := by
  unfold embedded at h ⊢
  rw [Bool.and_eq_true, Bool.and_eq_true] at h ⊢
  exact ⟨⟨by decide, h.1.2⟩, h.2⟩

theorem octets_setString {str : QString} (h : embedded rid str = true) (b : ItemString) :
    (b.setString (cString (toUtf8 str))).octets = cString (toUtf8 str) := by
  unfold embedded at h
  rw [Bool.and_eq_true, Bool.and_eq_true, decide_eq_true_eq] at h
  have hfits : (cString (toUtf8 str)).length ≤ 16 - 2 :=
    Nat.le_trans (length_cString_le _) h.1.1
  unfold BufString.setString
  rw [dif_pos hfits]

variable {w : StringWorld T}

theorem holds_addAtom {text : QString} {octets : List UInt8} (h : Holds table rid w text octets)
    (htable : table.Interns) (added : List UInt8) :
    Holds table rid (w.step table rid (.addAtom added)) text octets := by
  unfold step
  simp only
  split
  · rename_i index atoms hadd
    refine ⟨h.str, h.istr, ?_, h.outside⟩
    rcases h.place with hbuffer | ⟨hhandle, htext, hatom⟩
    · exact .inl hbuffer
    · refine .inr ⟨hhandle, htext, ?_⟩
      have hfound : table.getAtomByIndex w.atoms w.item.strHandle ≠ [] := by
        rw [hatom]
        exact fun hnil => htext (toUtf8_eq_nil_iff.mp hnil)
      exact (htable.keep _ _ _ _ _ hadd hfound).trans hatom
  · exact h

theorem holds_setValue {text : QString} {octets : List UInt8} (h : Holds table rid w text octets)
    (htable : table.Interns) (hrid : rid.type = .string) (val : QString) :
    Holds table rid (w.step table rid (.setValue val)) (trimmed val)
      (noteEmbedded rid octets (.setValue val)) := by
  have hstring : ¬ rid.type ≠ .string := not_not.mpr hrid
  unfold step setValue setItemString noteEmbedded
  simp only
  rw [if_neg hstring]
  have hstr : ∀ it : ResourceItem, (it.setString val).str = trimmed val := fun _ => rfl
  generalize trimmed val = str at hstr ⊢
  cases hplace : embedded rid str with
  | true =>
    have hset := octets_setString hplace w.item.istr
    refine ⟨hstr _, hset, .inl ⟨rfl, hset⟩, fun hout => ?_⟩
    rw [embedded_nil hplace] at hout
    cases hout
  | false =>
    unfold AtomTable.stringCacheAdd
    by_cases hempty : toUtf8 str = []
    · -- no atom is made of no octets, and the buffer was never used
      have hnone := h.outside (by rwa [toUtf8_eq_nil_iff.mp hempty] at hplace)
      rw [if_pos hempty]
      refine ⟨hstr _, h.istr, .inl ⟨rfl, ?_⟩, h.outside⟩
      rw [hempty, ← hnone]
      exact h.istr
    · obtain ⟨index, atoms, hadd, hindex, hatom⟩ := htable.add w.atoms _ hempty
      rw [if_neg hempty, hadd]
      refine ⟨hstr _, h.istr, .inr ⟨hindex, ?_, hatom⟩, h.outside⟩
      exact fun hnil => hempty (toUtf8_eq_nil_iff.mpr hnil)

theorem holds_run (htable : table.Interns) (hrid : rid.type = .string) (t : T)
    (acts : List StringAction) :
    Holds table rid (run (step table rid) { atoms := t } acts) (lastText acts)
      (lastEmbedded rid acts) := by
  induction acts using List.reverseRecOn with
  | nil => exact ⟨rfl, rfl, .inl ⟨rfl, rfl⟩, fun _ => rfl⟩
  | append_singleton acts a ih =>
    rw [run_concat]
    unfold lastText lastEmbedded at ih ⊢
    rw [foldl_append, foldl_append]
    cases a with
    | setValue val => exact holds_setValue ih htable hrid val
    | addAtom octets => exact holds_addAtom ih htable octets

/-! ## The views -/

theorem buffer_equals_iff {octets str : List UInt8} (hoctets : 0 ∉ octets) (hstr : 0 ∉ str) :
    octets.length = str.length ∧ cString octets = cString str ↔ octets = str := by
  rw [cString_eq_self_iff.mpr hoctets, cString_eq_self_iff.mpr hstr]
  constructor
  · exact fun h => h.2
  · rintro rfl
    exact ⟨rfl, rfl⟩

theorem equalsString_buffer_iff {str : List UInt8} (hstr : 0 ∉ str)
    (hbuffer : w.item.strHandle = 0 ∨ str = []) (hoctets : 0 ∉ w.item.istr.octets) :
    w.equalsString table str none = true ↔ w.item.istr.octets = str := by
  have hlength : (cString str).length = str.length := by
    rw [cString_eq_self_iff.mpr hstr]
  have hplace : ¬ (w.item.strHandle ≠ 0 ∧ 0 < str.length) := by
    rintro ⟨hhandle, hsome⟩
    rcases hbuffer with hzero | rfl
    · exact hhandle hzero
    · exact absurd hsome (Nat.not_lt_zero 0)
  unfold equalsString BufString.equals
  simp only [Option.getD_none]
  rw [hlength, if_neg hplace, ← buffer_equals_iff hoctets hstr]
  split
  · rename_i hsame
    rw [beq_iff_eq]
    exact ⟨fun h => ⟨hsame, h⟩, fun h => h.2⟩
  · rename_i hother
    exact ⟨fun h => absurd h Bool.false_ne_true, fun h => absurd h.1 hother⟩

theorem equalsString_atom_iff {str atom : List UInt8} (hstr : 0 ∉ str) (hsome : str ≠ [])
    (hhandle : w.item.strHandle ≠ 0)
    (hatom : table.stringCacheGet w.atoms w.item.strHandle = some atom) :
    w.equalsString table str none = true ↔ atom = str := by
  have hlength : (cString str).length = str.length := by
    rw [cString_eq_self_iff.mpr hstr]
  have hpos : 0 < str.length := length_pos_iff.mpr hsome
  unfold equalsString
  simp only [Option.getD_none]
  rw [hlength, if_pos ⟨hhandle, hpos⟩, hatom]
  simp only
  rw [Bool.and_eq_true, beq_iff_eq, beq_iff_eq, take_length]
  constructor
  · exact fun h => h.2.symm
  · rintro rfl
    exact ⟨rfl, rfl⟩

theorem agree_of_buffer (hrid : rid.type = .string) (hhandle : w.item.strHandle = 0)
    (hbuffer : w.item.istr.octets = cString (toUtf8 w.item.str)) :
    w.Agree table rid ↔ 0 ∉ toUtf8 w.item.str := by
  have htext : w.toString rid = w.item.str := by
    unfold toString
    rw [if_pos hrid]
  have hcstr : w.toCString table = cString (toUtf8 w.item.str) := by
    unfold toCString AtomTable.stringCacheGet
    rw [if_pos hhandle, hbuffer]
    exact cString_cString _
  have hlatin : w.toLatin1String table = cString (toUtf8 w.item.str) := by
    unfold toLatin1String
    rw [if_pos hhandle, hbuffer]
  have hfree : 0 ∉ w.item.istr.octets := by
    rw [hbuffer]
    exact zero_not_mem_cString _
  constructor
  · intro h
    have hsame := h.toCString
    rw [hcstr, htext] at hsame
    exact cString_eq_self_iff.mp hsame
  · intro hzero
    have hwhole := cString_eq_self_iff.mpr hzero
    refine ⟨?_, ?_, fun str hstr => ?_⟩
    · rw [hcstr, htext, hwhole]
    · rw [hlatin, htext, hwhole]
    · rw [equalsString_buffer_iff hstr (.inl hhandle) hfree, hbuffer, htext, hwhole]

theorem agree_of_atom (hrid : rid.type = .string) (hhandle : w.item.strHandle ≠ 0)
    (hsome : w.item.str ≠ [])
    (hatom : table.getAtomByIndex w.atoms w.item.strHandle = toUtf8 w.item.str)
    (hfree : 0 ∉ w.item.istr.octets) :
    w.Agree table rid ↔ 0 ∉ toUtf8 w.item.str ∧ w.item.istr.octets ≠ [] := by
  have htext : w.toString rid = w.item.str := by
    unfold toString
    rw [if_pos hrid]
  have hoctets : toUtf8 w.item.str ≠ [] := fun h => hsome (toUtf8_eq_nil_iff.mp h)
  have hget : table.stringCacheGet w.atoms w.item.strHandle = some (toUtf8 w.item.str) := by
    unfold AtomTable.stringCacheGet
    rw [if_neg hhandle, hatom]
    split
    · rename_i hnil
      exact absurd hnil hoctets
    · rename_i hcons
      rw [hcons]
  have hcstr : w.toCString table = cString (toUtf8 w.item.str) := by
    unfold toCString
    rw [hget]
  have hlatin : w.toLatin1String table = toUtf8 w.item.str := by
    unfold toLatin1String
    rw [if_neg hhandle, hget]
  have hempty : w.equalsString table [] none = true ↔ w.item.istr.octets = [] :=
    equalsString_buffer_iff not_mem_nil (.inr rfl) hfree
  constructor
  · intro h
    refine ⟨?_, fun hnil => ?_⟩
    · have hsame := h.toCString
      rw [hcstr, htext] at hsame
      exact cString_eq_self_iff.mp hsame
    · -- the comparison with an empty string succeeds
      have hequal := (h.equalsString [] not_mem_nil).mp (hempty.mpr hnil)
      rw [htext] at hequal
      exact hoctets hequal
  · rintro ⟨hzero, hbuffer⟩
    refine ⟨?_, ?_, fun str hstr => ?_⟩
    · rw [hcstr, htext, cString_eq_self_iff.mpr hzero]
    · rw [hlatin, htext]
    · rw [htext]
      by_cases hnil : str = []
      · rw [hnil, hempty]
        exact ⟨fun h => absurd h hbuffer, fun h => absurd h hoctets⟩
      · exact equalsString_atom_iff hstr hnil hhandle hget

/-- **When the string views agree.**  After every sequence of values: exactly if the last value
has no NUL and, unless it is empty, the last value that went to the buffer left something to
read in it. -/
theorem views_agree_iff (htable : table.Interns) (hrid : rid.type = .string) (t : T)
    (acts : List StringAction) :
    (run (step table rid) { atoms := t } acts).Agree table rid ↔ 0 ∉ toUtf8 (lastText acts) ∧
      (lastText acts ≠ [] → cString (lastEmbedded rid acts) ≠ []) := by
  have hholds := holds_run htable hrid t acts
  generalize run (step table rid) { atoms := t } acts = w at hholds ⊢
  obtain ⟨hstr, histr, hplace, -⟩ := hholds
  rw [← hstr] at hplace ⊢
  rcases hplace with ⟨hhandle, hbuffer⟩ | ⟨hhandle, hsome, hatom⟩
  · -- in the buffer the last value is the last one that went there
    rw [agree_of_buffer hrid hhandle hbuffer]
    refine ⟨fun hzero => ⟨hzero, fun hsome hnil => ?_⟩, fun h => h.1⟩
    rw [← histr, hbuffer, cString_eq_self_iff.mpr hzero] at hnil
    exact hsome (toUtf8_eq_nil_iff.mp hnil)
  · have hfree : 0 ∉ w.item.istr.octets := by
      rw [histr]
      exact zero_not_mem_cString _
    rw [agree_of_atom hrid hhandle hsome hatom hfree, histr]
    exact ⟨fun h => ⟨h.1, fun _ => h.2⟩, fun h => ⟨h.1, h.2 hsome⟩⟩

def atomList : AtomTable (List (List UInt8)) where
  addAtom t octets :=
    if t.contains octets then some (t.idxOf octets + 1, t) else some (t.length + 1, t ++ [octets])
  getAtomByIndex t index := if index = 0 then [] else t.getD (index - 1) []

theorem interns_atomList : atomList.Interns where
  add := by
    intro t octets _
    by_cases hmem : t.contains octets
    · refine ⟨t.idxOf octets + 1, t, if_pos hmem, Nat.succ_ne_zero _, ?_⟩
      show t.getD (t.idxOf octets) [] = octets
      rw [getD_eq_getElem?_getD, List.getElem?_idxOf (contains_iff_mem.mp hmem)]
      rfl
    · refine ⟨t.length + 1, t ++ [octets], if_neg hmem, Nat.succ_ne_zero _, ?_⟩
      show (t ++ [octets]).getD t.length [] = octets
      rw [getD_eq_getElem?_getD, List.getElem?_concat_length]
      rfl
  keep := by
    intro t octets index t' i hadd hfound
    have hgrown : t' = t ∨ t' = t ++ [octets] := by
      by_cases hmem : t.contains octets
      · have hsame : some (t.idxOf octets + 1, t) = some (index, t') :=
          (if_pos hmem).symm.trans hadd
        cases hsame
        exact .inl rfl
      · have hmore : some (t.length + 1, t ++ [octets]) = some (index, t') :=
          (if_neg hmem).symm.trans hadd
        cases hmore
        exact .inr rfl
    rcases hgrown with rfl | rfl
    · rfl
    · unfold atomList at hfound ⊢
      simp only at hfound ⊢
      split at hfound
      · exact absurd rfl hfound
      · rename_i hindex
        have hlt : i - 1 < t.length := by
          by_contra hge
          rw [getD_eq_default _ _ (Nat.le_of_not_lt hge)] at hfound
          exact hfound rfl
        rw [if_neg hindex, if_neg hindex, getD_append _ _ _ _ hlt]

def stateEffect : ResourceItemDescriptor := { type := .string, suffix := "state/effect" }
def configMode : ResourceItemDescriptor := { type := .string, suffix := "config/mode" }

def longBehindShort : List StringAction :=
  [.setValue (ofLatin1 "auto"), .setValue (ofLatin1 "temperature and humidity")]

theorem views_agree_iff_longBehindShort :
    (run (step atomList configMode) { atoms := [] } longBehindShort).Agree atomList
      configMode := by
  apply (views_agree_iff interns_atomList rfl [] longBehindShort).mpr
  exact ⟨by decide +kernel, fun _ => by decide +kernel⟩

/-- An effect is equal to the empty string. -/
theorem effect_equals_empty :
    ¬ (run (step atomList stateEffect) { atoms := [] }
      [.setValue (ofLatin1 "loop")]).Agree atomList stateEffect := by
  intro h
  have hequal := (h.equalsString [] not_mem_nil).mp (by decide +kernel)
  exact absurd hequal (by decide +kernel)

end StringWorld
end DeconzRest

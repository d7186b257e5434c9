import DeconzRest.Resource.StringItem
import DeconzRest.Qt.Latin1

/-!
# String items that are set from UTF-8

`ResourceItem::setValue(const char *, int)` takes UTF-8, as its comment says, but hands it on as a
`QLatin1String`.  `equalsString` compares octets with the UTF-8 form of the text.
-/

namespace DeconzRest
namespace StringWorld

open QString

variable {T : Type}

/-- `ResourceItem::setValue(const char *, int)`; no length is -1. -/
def setValueUtf8 (table : AtomTable T) (rid : ResourceItemDescriptor) (w : StringWorld T)
    (str : List UInt8) (length : Option Nat) : StringWorld T :=
  w.setValue table rid (latin1 (str.take (length.getD (cString str).length)))

/-- The item has the text of the characters, and is equal to their UTF-8 form. -/
structure HasText (table : AtomTable T) (rid : ResourceItemDescriptor) (w : StringWorld T)
    (cs : List Char) : Prop where
  toString : w.toString rid = ofChars cs
  equalsString : w.equalsString table (utf8 cs) (some (utf8 cs).length) = true

variable {table : AtomTable T} {rid : ResourceItemDescriptor} {w : StringWorld T}
  {octets : List UInt8}

theorem setValueUtf8_length (str : List UInt8) :
    w.setValueUtf8 table rid str (some str.length) = w.setValue table rid (latin1 str) := by
  rw [setValueUtf8, Option.getD_some, List.take_length]

theorem strHandle_setValue (htable : table.Interns) (hrid : rid.type = .string) {val : QString}
    (hsome : trimmed val ≠ []) :
    (w.setValue table rid val).item.strHandle = 0 ↔ embedded rid (trimmed val) = true := by
  unfold setValue setItemString
  simp only
  rw [if_neg (not_not.mpr hrid)]
  cases hplace : embedded rid (trimmed val) with
  | true => exact ⟨fun _ => rfl, fun _ => rfl⟩
  | false =>
    have hoctets : toUtf8 (trimmed val) ≠ [] :=
      fun hnil => hsome (toUtf8_eq_nil_iff.mp hnil)
    obtain ⟨index, atoms, hadd, hindex, -⟩ := htable.add w.atoms _ hoctets
    unfold AtomTable.stringCacheAdd
    rw [if_neg Bool.false_ne_true, if_neg hoctets, hadd]
    exact ⟨fun h => absurd h hindex, fun h => absurd h Bool.false_ne_true⟩

/-- An item is equal to the UTF-8 form of its text, unless a buffer cuts that at a NUL. -/
theorem equalsString_self_iff {cs : List Char}
    (h : Holds table rid w (ofChars cs) octets) :
    w.equalsString table (utf8 cs) (some (utf8 cs).length) = true ↔
      (w.item.strHandle = 0 → 0 ∉ utf8 cs) := by
  have hutf8 : toUtf8 (ofChars cs) = utf8 cs := toUtf8_ofChars cs
  have hplace := h.place
  rw [hutf8] at hplace
  unfold equalsString
  simp only [Option.getD_some]
  rcases hplace with ⟨hhandle, hbuffer⟩ | ⟨hhandle, hsome, hatom⟩
  · rw [if_neg fun hor => hor.1 hhandle, hbuffer]
    constructor
    · intro hequal _
      split at hequal
      · rename_i hlength
        exact cString_eq_self_iff.mp ((List.takeWhile_prefix _).eq_of_length hlength)
      · exact absurd hequal Bool.false_ne_true
    · intro hfree
      have hwhole := cString_eq_self_iff.mpr (hfree hhandle)
      rw [hwhole, if_pos rfl]
      unfold BufString.equals
      rw [hbuffer, cString_cString]
      exact beq_self_eq_true _
  · have hne : utf8 cs ≠ [] := by
      rw [← hutf8]
      exact fun hnil => hsome (toUtf8_eq_nil_iff.mp hnil)
    have hget : table.stringCacheGet w.atoms w.item.strHandle = some (utf8 cs) := by
      unfold AtomTable.stringCacheGet
      rw [if_neg hhandle, hatom]
      obtain ⟨b, rest, hcons⟩ := List.exists_cons_of_ne_nil hne
      rw [hcons]
    rw [if_pos ⟨hhandle, List.length_pos_iff.mpr hne⟩, hget]
    simp only [List.take_length, beq_self_eq_true, Bool.and_self]
    exact ⟨fun _ hzero => absurd hzero hhandle, fun _ => trivial⟩

/-- **Setting an item from UTF-8** gives it the text and the octets back if the text is ASCII and
no buffer cuts it at a NUL. -/
theorem setUtf8_iff (htable : table.Interns) (hrid : rid.type = .string) (t : T)
    (acts : List StringAction) {cs : List Char}
    (htrim : trimmed (ofChars cs) = ofChars cs) :
    ((Transition.run (step table rid) { atoms := t } acts).setValueUtf8 table rid
        (utf8 cs) (some (utf8 cs).length)).HasText table rid cs ↔
      (∀ c ∈ cs, c.toNat < 0x80) ∧ (0 ∈ utf8 cs → embedded rid (ofChars cs) = false) := by
  have hholds := holds_run htable hrid t acts
  generalize Transition.run (step table rid) { atoms := t } acts = w at hholds ⊢
  rw [setValueUtf8_length]
  have hset : Holds table rid (w.setValue table rid (latin1 (utf8 cs))) _ _ :=
    holds_setValue hholds htable hrid (latin1 (utf8 cs))
  have hstring : (w.setValue table rid (latin1 (utf8 cs))).toString rid =
      trimmed (latin1 (utf8 cs)) := by
    unfold toString
    rw [if_pos hrid]
    exact hset.str
  have hascii := trimmed_latin1_iff htrim
  -- a text with a NUL is kept in the buffer if it goes there
  have hnul : (∀ c ∈ cs, c.toNat < 0x80) →
      (((w.setValue table rid (latin1 (utf8 cs))).item.strHandle = 0 → 0 ∉ utf8 cs) ↔
        (0 ∈ utf8 cs → embedded rid (ofChars cs) = false)) := by
    intro hall
    by_cases hzero : 0 ∈ utf8 cs
    · have hsome : trimmed (latin1 (utf8 cs)) ≠ [] := by
        rw [hascii.mpr hall]
        intro hnil
        rw [utf8, ← toUtf8_ofChars, hnil] at hzero
        exact absurd hzero List.not_mem_nil
      rw [strHandle_setValue htable hrid hsome, hascii.mpr hall]
      exact ⟨fun h _ => eq_false_of_ne_true fun hin => h hin hzero,
        fun h hin _ => Bool.false_ne_true ((h hzero).symm.trans hin)⟩
    · exact ⟨fun _ h => absurd h hzero, fun _ _ => hzero⟩
  constructor
  · rintro ⟨htext, hequal⟩
    have hall := hascii.mp (hstring.symm.trans htext)
    rw [hascii.mpr hall] at hset
    exact ⟨hall, (hnul hall).mp ((equalsString_self_iff hset).mp hequal)⟩
  · rintro ⟨hall, hfree⟩
    rw [hascii.mpr hall] at hset
    exact ⟨hstring.trans (hascii.mpr hall),
      (equalsString_self_iff hset).mpr ((hnul hall).mpr hfree)⟩

theorem setUtf8_auto :
    ((Transition.run (step atomList configMode) { atoms := [] } []).setValueUtf8 atomList
        configMode (utf8 ['a', 'u', 't', 'o'])
        (some (utf8 ['a', 'u', 't', 'o']).length)).HasText atomList configMode
      ['a', 'u', 't', 'o'] :=
  (setUtf8_iff interns_atomList rfl [] [] (by decide +kernel)).mpr
    ⟨by simp, fun h => absurd h (by decide +kernel)⟩

/-- The octets C3 A4 of an `ä` become two characters. -/
theorem umlaut_not_set :
    ¬ ∀ cs : List Char, trimmed (ofChars cs) = ofChars cs →
      ((Transition.run (step atomList configMode) { atoms := [] } []).setValueUtf8 atomList
        configMode (utf8 cs) (some (utf8 cs).length)).HasText atomList configMode
        cs := by
  intro hall
  have hset := (hall [Char.ofNat 0xE4] (by decide +kernel)).toString
  have htwo : ((Transition.run (step atomList configMode) { atoms := [] } []).setValueUtf8 atomList
      configMode (utf8 [Char.ofNat 0xE4])
      (some (utf8 [Char.ofNat 0xE4]).length)).toString configMode = [0xC3, 0xA4] := by
    decide +kernel
  rw [htwo] at hset
  exact absurd hset (by decide +kernel)

end StringWorld
end DeconzRest

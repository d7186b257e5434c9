import DeconzRest.Json.Text

/-!
# The octets of `Json::serialize` are the UTF-8 form of the text

Every variant is serialized to the UTF-8 form of its `text`, with the strings and keys as
UTF-8 leaves them (`serialize_isUtf8Of`).  So a reader of the octets gets that text back
(`fromUtf8_serialize`).
-/

namespace DeconzRest
namespace Json

open QString List

variable {D : Type}

/-- The text starts with an ASCII character, and the octets are its UTF-8 form. -/
structure IsUtf8Of (bytes : List UInt8) (t : QString) : Prop where
  bytes_eq : bytes = toUtf8 t
  head : ∃ c rest, t = unit c :: rest ∧ c.toNat < 0x80 ∧ QString.WellFormed rest

variable {t : QString}

theorem wellFormed_cons {c : Char} (hc : c.toNat < 0x80) (ht : QString.WellFormed t) :
    QString.WellFormed (unit c :: t) := by
  have hunit : QString.WellFormed [unit c] := by
    refine ⟨[c], ?_⟩
    have hbmp : c.toNat < 0x10000 := by omega
    rw [ofChars_cons, utf16, if_pos hbmp]
    rfl
  exact hunit.append ht

theorem toUtf8_cons {c : Char} (hc : c.toNat < 0x80) (ht : QString.WellFormed t) :
    toUtf8 (unit c :: t) = toUtf8 [unit c] ++ toUtf8 t :=
  (wellFormed_cons hc wellFormed_nil).toUtf8_append ht

variable {bytes : List UInt8}

theorem IsUtf8Of.wellFormed (h : IsUtf8Of bytes t) : QString.WellFormed t := by
  obtain ⟨c, rest, rfl, hc, hrest⟩ := h.head
  exact wellFormed_cons hc hrest

theorem IsUtf8Of.fromUtf8 (h : IsUtf8Of bytes t) : fromUtf8 bytes = t := by
  obtain ⟨c, rest, rfl, hc, hrest⟩ := h.head
  rw [h.bytes_eq]
  exact fromUtf8_toUtf8 hc hrest

theorem IsUtf8Of.ne_nil (h : IsUtf8Of bytes t) : bytes ≠ [] := by
  rintro rfl
  obtain ⟨c, rest, rfl, -⟩ := h.head
  exact cons_ne_nil _ _ h.fromUtf8.symm

theorem join_cons (first : List UInt8) (hfirst : first ≠ []) (list : List (List UInt8))
    (sep : List UInt8) : join (first :: list) sep = first ++ list.flatMap fun i => sep ++ i := by
  have hfold : ∀ (list : List (List UInt8)) (res : List UInt8), res ≠ [] →
      list.foldl (fun res i => (if res = [] then res else res ++ sep) ++ i) res = res ++
        list.flatMap fun i => sep ++ i := by
    intro list
    induction list with
    | nil => exact fun res _ => (append_nil res).symm
    | cons i list ih =>
      intro res hres
      have hne : res ++ sep ++ i ≠ [] := by simp [hres]
      rw [foldl_cons, if_neg hres, ih _ hne, flatMap_cons]
      simp only [append_assoc]
  exact hfold list first hfirst

theorem bracket_isUtf8Of {o c : Char} (ho : o.toNat < 0x80) (hc : c.toNat < 0x80)
    {first tailBytes : List UInt8} {t tail : QString} (h : IsUtf8Of first t)
    (htail : tailBytes = toUtf8 tail) (hwell : QString.WellFormed tail) :
    IsUtf8Of (toUtf8 [unit o] ++ (first ++ tailBytes) ++ toUtf8 [unit c])
      (unit o :: (t ++ (tail ++ [unit c]))) := by
  have hclose := wellFormed_cons hc wellFormed_nil
  have hrest := hwell.append hclose
  have hinner := h.wellFormed.append hrest
  refine ⟨?_, o, _, rfl, ho, hinner⟩
  rw [toUtf8_cons ho hinner, h.wellFormed.toUtf8_append hrest, hwell.toUtf8_append hclose,
    ← h.bytes_eq, ← htail]
  simp only [append_assoc]

theorem comma_toUtf8 {first tailBytes : List UInt8} {t tail : QString} (h : IsUtf8Of first t)
    (htail : tailBytes = toUtf8 tail) (hwell : QString.WellFormed tail) :
    ascii "," ++ first ++ tailBytes = toUtf8 (unit ',' :: (t ++ tail)) ∧
      QString.WellFormed (unit ',' :: (t ++ tail)) := by
  have hcomma : ascii "," = toUtf8 [unit ','] := by decide
  have hboth := h.wellFormed.append hwell
  refine ⟨?_, wellFormed_cons (by decide) hboth⟩
  rw [toUtf8_cons (by decide) hboth, h.wellFormed.toUtf8_append hwell, ← h.bytes_eq, ← htail,
    hcomma, append_assoc]

theorem sanitizeString_isUtf8Of (s : QString) :
    IsUtf8Of (toUtf8 (sanitizeString s)) (sanitizeString (repair s)) := by
  obtain ⟨rest, heq, hrest⟩ := sanitizeString_wellFormed (wellFormed_repair s)
  exact ⟨toUtf8_sanitizeString_repair s, '"', rest, heq, by decide, hrest⟩

theorem ascii_isUtf8Of {t : String} (hascii : (t.toList.all fun c => c.toNat < 0x80) = true)
    (hne : t.toList ≠ []) : IsUtf8Of (ascii t) (QString.ofLatin1 t) := by
  have hlt : ∀ c ∈ t.toList, c.toNat < 0x80 :=
    fun c hc => of_decide_eq_true (all_eq_true.mp hascii c hc)
  have hbmp : ∀ c ∈ t.toList, c.toNat < 0x10000 := fun c hc => Nat.lt_trans (hlt c hc) (by decide)
  refine ⟨?_, ?_⟩
  · unfold QString.ofLatin1 ascii
    rw [QString.map_unit_eq hbmp, QString.toUtf8_ofChars, map_eq_flatMap]
    apply flatMap_congr
    intro c hc
    have hsize : c.utf8Size = 1 := Char.utf8Size_eq_one_iff.mpr (UInt32.le_iff_toNat_le.mpr (by
      have h := hlt c hc
      show c.toNat ≤ 127
      omega))
    rw [String.utf8EncodeChar_eq_singleton hsize]
    rfl
  · cases htext : t.toList with
    | nil => exact absurd htext hne
    | cons c cs =>
      rw [htext] at hlt hbmp
      refine ⟨c, cs.map QString.unit, ?_, hlt c mem_cons_self, cs, ?_⟩
      · unfold QString.ofLatin1
        rw [htext, map_cons]
      · exact QString.map_unit_eq fun x hx => hbmp x (mem_cons_of_mem c hx)

theorem IsNumberText.isUtf8Of {t : String} (h : IsNumberText t) :
    IsUtf8Of (ascii t) (QString.ofLatin1 t) := by
  refine ascii_isUtf8Of h.all_ascii ?_
  obtain ⟨c, cs, htext, -⟩ := h
  rw [htext]
  exact cons_ne_nil c cs

theorem number_isUtf8Of {qt : Qt D} {d : D} (hd : ReadBack qt d ∨ Unreadable qt d) :
    IsUtf8Of (qt.number d) (numberText qt d) := by
  have hother : ∀ t : String, (t.toList.all fun c => c.toNat < 0x80) = true → t.toList ≠ [] →
      qt.number d = ascii t → IsUtf8Of (qt.number d) (numberText qt d) := by
    intro t hascii hne h
    unfold numberText
    rw [h, map_ascii hascii]
    exact ascii_isUtf8Of hascii hne
  rcases hd with ⟨t, hnumber, ht, -⟩ | h | h | h
  · unfold numberText
    rw [hnumber, map_ascii ht.all_ascii]
    exact ht.isUtf8Of
  · exact hother _ (by decide) (by decide) h
  · exact hother _ (by decide) (by decide) h
  · exact hother _ (by decide) (by decide) h

theorem entry_isUtf8Of (key : QString) (h : IsUtf8Of bytes t) :
    IsUtf8Of (QString.toUtf8 (sanitizeString key) ++ ascii ":" ++ bytes)
      (sanitizeString (QString.repair key) ++ QString.unit ':' :: t) := by
  obtain ⟨rest, heq, hrest⟩ := sanitizeString_wellFormed (QString.wellFormed_repair key)
  have hcolon : ascii ":" = QString.toUtf8 [QString.unit ':'] := by decide
  have hvalue := wellFormed_cons (by decide : (':' : Char).toNat < 0x80) h.wellFormed
  refine ⟨?_, '"', rest ++ unit ':' :: t, ?_, by decide, hrest.append hvalue⟩
  · rw [(sanitizeString_isUtf8Of key).wellFormed.toUtf8_append hvalue,
      toUtf8_cons (by decide) h.wellFormed, ← h.bytes_eq, hcolon, append_assoc,
      (sanitizeString_isUtf8Of key).bytes_eq]
  · rw [heq]
    rfl

section Octets

variable {qt : Qt D}

/-- What Qt writes for a number is readable, or known to be no JSON. -/
def written (qt : Qt D) : Parts D := Parts.doubles fun d => ReadBack qt d ∨ Unreadable qt d

theorem written_of_numbers {finite : D → Prop} (hqt : Numbers qt finite) (v : QVariant D) :
    Every (written qt) v :=
  every_of_forall (fun _ => trivial) (fun d => hqt.cases d) (fun _ => trivial)
    (fun _ => trivial) v

mutual

/-- **The serialization of a variant is the UTF-8 form of its text.** -/
theorem serialize_isUtf8Of (v : QVariant D) (hv : Every (written qt) v) :
    IsUtf8Of (serialize qt v) (text repair qt v) := by
  match v with
  | .invalid =>
    rw [serialize, text]
    exact ascii_isUtf8Of (by decide) (by decide)
  | .bool true =>
    rw [serialize, text]
    exact ascii_isUtf8Of (by decide) (by decide)
  | .bool false =>
    rw [serialize, text]
    exact ascii_isUtf8Of (by decide) (by decide)
  | .int n =>
    rw [serialize, text]
    exact (isNumberText_int n).isUtf8Of
  | .double d =>
    rw [serialize, text]
    exact number_isUtf8Of hv
  | .string s =>
    rw [serialize, text]
    exact sanitizeString_isUtf8Of s
  | .list [] =>
    rw [serialize, serializeList, text]
    exact ascii_isUtf8Of (t := "[]") (by decide) (by decide)
  | .list (v :: values) =>
    rw [Every, EveryValue] at hv
    have hfirst := serialize_isUtf8Of v hv.1
    have htail := serializeList_toUtf8 values hv.2
    have hopen : ascii "[" = toUtf8 [unit '['] := by decide
    have hclose : ascii "]" = toUtf8 [unit ']'] := by decide
    rw [serialize, serializeList, text, join_cons _ hfirst.ne_nil, hopen, hclose]
    exact bracket_isUtf8Of (by decide) (by decide) hfirst htail.1 htail.2
  | .map [] =>
    rw [serialize, serializeEntries, text]
    exact ascii_isUtf8Of (t := "\x7b\x7d") (by decide) (by decide)
  | .map ((key, v) :: entries) =>
    rw [Every, EveryEntry] at hv
    have hfirst := entry_isUtf8Of key (serialize_isUtf8Of v hv.1.2.1)
    have htail := serializeEntries_toUtf8 entries hv.1.2.2
    have hwhole := bracket_isUtf8Of (by decide : '{'.toNat < 0x80)
      (by decide : '}'.toNat < 0x80) hfirst htail.1 htail.2
    have hopen : ascii "\x7b" = toUtf8 [unit '{'] := by decide
    have hclose : ascii "\x7d" = toUtf8 [unit '}'] := by decide
    rw [serialize, serializeEntries, text, join_cons _ hfirst.ne_nil, hopen, hclose]
    simpa only [append_assoc, cons_append] using hwhole
termination_by sizeOf v

theorem serializeList_toUtf8 (values : List (QVariant D))
    (hvalues : EveryValue (written qt) values) :
    ((serializeList qt values).flatMap fun i => ascii "," ++ i) =
        toUtf8 (textTail repair qt values) ∧
      QString.WellFormed (textTail repair qt values) := by
  match values with
  | [] =>
    rw [serializeList, textTail]
    exact ⟨rfl, wellFormed_nil⟩
  | v :: values =>
    rw [EveryValue] at hvalues
    obtain ⟨hbytes, hwell⟩ := serializeList_toUtf8 values hvalues.2
    rw [serializeList, textTail, flatMap_cons]
    exact comma_toUtf8 (serialize_isUtf8Of v hvalues.1) hbytes hwell
termination_by sizeOf values

theorem serializeEntries_toUtf8 (entries : List (QString × QVariant D))
    (hentries : EveryEntry (written qt) entries) :
    ((serializeEntries qt entries).flatMap fun i => ascii "," ++ i) =
        toUtf8 (textEntriesTail repair qt entries) ∧
      QString.WellFormed (textEntriesTail repair qt entries) := by
  match entries with
  | [] =>
    rw [serializeEntries, textEntriesTail]
    exact ⟨rfl, wellFormed_nil⟩
  | (key, v) :: entries =>
    rw [EveryEntry] at hentries
    obtain ⟨hbytes, hwell⟩ := serializeEntries_toUtf8 entries hentries.2.2
    have hwhole := comma_toUtf8 (entry_isUtf8Of key (serialize_isUtf8Of v hentries.2.1)) hbytes
      hwell
    rw [serializeEntries, textEntriesTail, flatMap_cons]
    simpa only [append_assoc, cons_append] using hwhole
termination_by sizeOf entries

end

theorem fromUtf8_serialize {v : QVariant D} (hv : Every (written qt) v) :
    fromUtf8 (serialize qt v) = text repair qt v :=
  (serialize_isUtf8Of v hv).fromUtf8

/-- **A variant without infinities, written and read again.** -/
theorem parse_serialize_readBack {v : QVariant D} (hv : Every (Parts.doubles (ReadBack qt)) v) :
    parse qt (fromUtf8 (serialize qt v)) = (reread repair qt v, true) := by
  have hwritten : Every (written qt) v :=
    hv.imp (fun _ h => h) (fun _ h => Or.inl h) (fun _ h => h) fun _ h => h
  rw [fromUtf8_serialize hwritten, parse_text repair hv]

end Octets

end Json
end DeconzRest

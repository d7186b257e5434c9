import DeconzRest.Qt.Text

/-!
# UTF-8 and UTF-16

`QString::toUtf8` and `QString::fromUtf8`.  Both go through the list of
characters: a `QString` is well formed when it is the UTF-16 form of some list
of characters, and on well-formed texts the two functions undo each other.
-/

namespace DeconzRest
namespace QString

open List

def utf16 (c : Char) : QString :=
  if c.toNat < 0x10000 then
    [UInt16.ofNat c.toNat]
  else
    [UInt16.ofNat (0xD800 + (c.toNat - 0x10000) / 0x400),
      UInt16.ofNat (0xDC00 + (c.toNat - 0x10000) % 0x400)]

def ofChars (cs : List Char) : QString := cs.flatMap utf16

/-- The text is the UTF-16 form of a list of characters: no unpaired surrogate. -/
def WellFormed (s : QString) : Prop := ∃ cs, s = ofChars cs

def isHighSurrogate (u : QChar) : Bool := decide (0xD800 ≤ u.toNat ∧ u.toNat < 0xDC00)

def isLowSurrogate (u : QChar) : Bool := decide (0xDC00 ≤ u.toNat ∧ u.toNat < 0xE000)

/-- The character of a unit that stands alone; an unpaired surrogate is replaced. -/
def loneChar (u : QChar) : Char :=
  if isHighSurrogate u || isLowSurrogate u then '?' else Char.ofNat u.toNat

def toChars : QString → List Char
  | [] => []
  | [u] => [loneChar u]
  | u :: v :: rest =>
    if isHighSurrogate u && isLowSurrogate v then
      Char.ofNat (0x10000 + (u.toNat - 0xD800) * 0x400 + (v.toNat - 0xDC00)) :: toChars rest
    else
      loneChar u :: toChars (v :: rest)

/-- `QString::toUtf8` -/
def toUtf8 (s : QString) : List UInt8 := (toChars s).flatMap String.utf8EncodeChar

/-- Decode UTF-8; an octet that starts no valid sequence is replaced by U+FFFD.  Every
turn takes an octet, so the number of octets is fuel enough. -/
def decodeUtf8 : Nat → List UInt8 → List Char
  | 0, _ => []
  | _ + 1, [] => []
  | n + 1, b :: bytes =>
    match (b :: bytes).toByteArray.utf8DecodeChar? 0 with
    | some c => c :: decodeUtf8 n ((b :: bytes).drop c.utf8Size)
    | none => '\uFFFD' :: decodeUtf8 n bytes

/-- `QString::fromUtf8`: a leading byte order mark is dropped. -/
def fromUtf8 (bytes : List UInt8) : QString :=
  let bytes :=
    match bytes with
    | 0xEF :: 0xBB :: 0xBF :: rest => rest
    | _ => bytes
  ofChars (decodeUtf8 bytes.length bytes)

@[simp] theorem ofChars_nil : ofChars [] = [] := rfl

@[simp] theorem ofChars_cons (c : Char) (cs : List Char) :
    ofChars (c :: cs) = utf16 c ++ ofChars cs := rfl

theorem ofChars_append (cs ds : List Char) : ofChars (cs ++ ds) = ofChars cs ++ ofChars ds :=
  flatMap_append

theorem toNat_valid (c : Char) :
    c.toNat < 0xD800 ∨ (0xDFFF < c.toNat ∧ c.toNat < 0x110000) := c.valid

theorem loneChar_utf16 (c : Char) (h : c.toNat < 0x10000) :
    loneChar (UInt16.ofNat c.toNat) = c ∧ isHighSurrogate (UInt16.ofNat c.toNat) = false := by
  have hvalid := toNat_valid c
  have hnat : (UInt16.ofNat c.toNat).toNat = c.toNat := UInt16.toNat_ofNat_of_lt' h
  have hhigh : isHighSurrogate (UInt16.ofNat c.toNat) = false := by
    simp only [isHighSurrogate, hnat, decide_eq_false_iff_not]
    omega
  have hlow : isLowSurrogate (UInt16.ofNat c.toNat) = false := by
    simp only [isLowSurrogate, hnat, decide_eq_false_iff_not]
    omega
  refine ⟨?_, hhigh⟩
  rw [loneChar, hhigh, hlow, hnat]
  exact Char.ofNat_toNat c

theorem toChars_utf16_append (c : Char) (rest : QString) :
    toChars (utf16 c ++ rest) = c :: toChars rest := by
  have hvalid := toNat_valid c
  by_cases hbmp : c.toNat < 0x10000
  · obtain ⟨hlone, hhigh⟩ := loneChar_utf16 c hbmp
    rw [utf16, if_pos hbmp, singleton_append]
    cases rest with
    | nil => simp only [toChars, hlone]
    | cons v rest => simp [toChars, hhigh, hlone]
  · rw [utf16, if_neg hbmp]
    have hu : (UInt16.ofNat (0xD800 + (c.toNat - 0x10000) / 0x400)).toNat = 0xD800 +
        (c.toNat - 0x10000) / 0x400 := UInt16.toNat_ofNat_of_lt' (by
      show _ < 65536
      omega)
    have hv : (UInt16.ofNat (0xDC00 + (c.toNat - 0x10000) % 0x400)).toNat = 0xDC00 +
        (c.toNat - 0x10000) % 0x400 := UInt16.toNat_ofNat_of_lt' (by
      show _ < 65536
      omega)
    have hhigh : isHighSurrogate (UInt16.ofNat (0xD800 + (c.toNat - 0x10000) / 0x400)) = true := by
      simp only [isHighSurrogate, hu, decide_eq_true_eq]
      omega
    have hlow : isLowSurrogate (UInt16.ofNat (0xDC00 + (c.toNat - 0x10000) % 0x400)) = true := by
      simp only [isLowSurrogate, hv, decide_eq_true_eq]
      omega
    have hcode : 0x10000 + (0xD800 + (c.toNat - 0x10000) / 0x400 - 0xD800) * 0x400 +
        (0xDC00 + (c.toNat - 0x10000) % 0x400 - 0xDC00) = c.toNat := by omega
    show toChars (_ :: _ :: rest) = _
    rw [toChars, hhigh, hlow, hu, hv, hcode, Char.ofNat_toNat]
    rfl

@[simp] theorem toChars_ofChars (cs : List Char) : toChars (ofChars cs) = cs := by
  induction cs with
  | nil => rfl
  | cons c cs ih => rw [ofChars_cons, toChars_utf16_append, ih]

theorem wellFormed_nil : WellFormed [] := ⟨[], rfl⟩

theorem WellFormed.append {s t : QString} (hs : WellFormed s) (ht : WellFormed t) :
    WellFormed (s ++ t) := by
  obtain ⟨cs, rfl⟩ := hs
  obtain ⟨ds, rfl⟩ := ht
  exact ⟨cs ++ ds, (ofChars_append cs ds).symm⟩

theorem map_unit_eq {cs : List Char} (h : ∀ c ∈ cs, c.toNat < 0x10000) :
    cs.map unit = ofChars cs := by
  induction cs with
  | nil => rfl
  | cons c cs ih =>
    have hc : utf16 c = [unit c] := if_pos (h c mem_cons_self)
    rw [map_cons, ofChars_cons, hc, ih fun d hd => h d (mem_cons_of_mem c hd)]
    rfl

theorem wellFormed_ofLatin1 {s : String}
    (h : (s.toList.all fun c => c.toNat < 0x10000) = true) : WellFormed (ofLatin1 s) := by
  rw [all_eq_true] at h
  exact ⟨s.toList, map_unit_eq fun c hc => of_decide_eq_true (h c hc)⟩

/-! ## UTF-8 and back -/

theorem decodeUtf8_encode (cs : List Char) (n : Nat)
    (hn : (cs.flatMap String.utf8EncodeChar).length ≤ n) :
    decodeUtf8 n (cs.flatMap String.utf8EncodeChar) = cs := by
  induction cs generalizing n with
  | nil => cases n <;> rfl
  | cons c cs ih =>
    rw [flatMap_cons, List.length_append, String.length_utf8EncodeChar] at hn
    have hpos : 0 < c.utf8Size := Char.utf8Size_pos c
    obtain ⟨m, rfl⟩ : ∃ m, n = m + 1 := ⟨n - 1, by omega⟩
    have hdecode : ((c :: cs).flatMap String.utf8EncodeChar).toByteArray.utf8DecodeChar? 0 =
        some c := by
      rw [flatMap_cons, toByteArray_append]
      exact ByteArray.utf8DecodeChar?_utf8EncodeChar_append
    have hrest : ((c :: cs).flatMap String.utf8EncodeChar).drop c.utf8Size =
        cs.flatMap String.utf8EncodeChar := by
      rw [flatMap_cons]
      exact drop_left' (String.length_utf8EncodeChar c)
    cases hbytes : (c :: cs).flatMap String.utf8EncodeChar with
    | nil =>
      have hlen := congrArg List.length hbytes
      rw [flatMap_cons, List.length_append, String.length_utf8EncodeChar] at hlen
      simp only [length_nil] at hlen
      omega
    | cons b bytes =>
      rw [hbytes] at hdecode hrest
      simp only [decodeUtf8, hdecode, hrest]
      rw [ih m (by omega)]

theorem toUtf8_ofChars (cs : List Char) :
    toUtf8 (ofChars cs) = cs.flatMap String.utf8EncodeChar := by
  rw [toUtf8, toChars_ofChars]

theorem WellFormed.toUtf8_append {s t : QString} (hs : WellFormed s) (ht : WellFormed t) :
    toUtf8 (s ++ t) = toUtf8 s ++ toUtf8 t := by
  obtain ⟨cs, rfl⟩ := hs
  obtain ⟨ds, rfl⟩ := ht
  rw [← ofChars_append, toUtf8_ofChars, toUtf8_ofChars, toUtf8_ofChars, flatMap_append]

/-- **Round trip.**  A well-formed text that starts with an ASCII character comes
back from its UTF-8 form. -/
theorem fromUtf8_toUtf8 {c : Char} (hc : c.toNat < 0x80) {t : QString} (ht : WellFormed t) :
    fromUtf8 (toUtf8 (unit c :: t)) = unit c :: t := by
  obtain ⟨cs, rfl⟩ := ht
  have htext : unit c :: ofChars cs = ofChars (c :: cs) := by
    have hbmp : c.toNat < 0x10000 := by omega
    rw [ofChars_cons, utf16, if_pos hbmp]
    rfl
  have hsize : c.utf8Size = 1 :=
    Char.utf8Size_eq_one_iff.mpr (UInt32.le_iff_toNat_le.mpr (by
      show c.toNat ≤ 127
      omega))
  have hdecode := decodeUtf8_encode (c :: cs) _ (Nat.le_refl _)
  rw [htext, toUtf8_ofChars]
  unfold fromUtf8
  split
  · -- the first octet is below 0x80, so there is no byte order mark
    rename_i rest hbom
    rw [flatMap_cons, String.utf8EncodeChar_eq_singleton hsize, singleton_append,
      List.cons.injEq] at hbom
    have hoctet := congrArg UInt8.toNat hbom.1
    have hsmall : c.val.toUInt8.toNat = c.toNat % 256 := UInt32.toNat_toUInt8 c.val
    rw [hsmall, Nat.mod_eq_of_lt (by omega)] at hoctet
    have hmark : (0xEF : UInt8).toNat = 239 := rfl
    omega
  · exact congrArg ofChars hdecode

theorem toNat_charOfNat {n : Nat} (h : n < 0xD800 ∨ (0xDFFF < n ∧ n < 0x110000)) :
    (Char.ofNat n).toNat = n := by
  have hvalid : n.isValidChar := h
  rw [Char.ofNat, dif_pos hvalid]
  rfl

theorem utf16_charOfNat {ch : QChar} (h : ch.toNat < 0x80) :
    utf16 (Char.ofNat ch.toNat) = [ch] := by
  have hnat : (Char.ofNat ch.toNat).toNat = ch.toNat := toNat_charOfNat (.inl (by omega))
  rw [utf16, if_pos (by omega), hnat, UInt16.ofNat_toNat]

theorem wellFormed_of_ascii {s : QString} (h : ∀ c ∈ s, c.toNat < 0x80) : WellFormed s := by
  induction s with
  | nil => exact wellFormed_nil
  | cons c s ih =>
    obtain ⟨hc, hs⟩ := forall_mem_cons.mp h
    have hunit : WellFormed [c] :=
      ⟨[Char.ofNat c.toNat], by rw [ofChars_cons, utf16_charOfNat hc]; rfl⟩
    exact hunit.append (ih hs)

theorem toUtf8_cons_ascii {ch : QChar} (h : ch.toNat < 0x80) (rest : QString) :
    toUtf8 (ch :: rest) = ch.toUInt8 :: toUtf8 rest := by
  have hnat : (Char.ofNat ch.toNat).toNat = ch.toNat := toNat_charOfNat (.inl (by omega))
  have hunit : utf16 (Char.ofNat ch.toNat) = [ch] := utf16_charOfNat h
  have hsize : (Char.ofNat ch.toNat).utf8Size = 1 :=
    Char.utf8Size_eq_one_iff.mpr (UInt32.le_iff_toNat_le.mpr (by
      show (Char.ofNat ch.toNat).toNat ≤ 127
      omega))
  have hchars := toChars_utf16_append (Char.ofNat ch.toNat) rest
  rw [hunit, singleton_append] at hchars
  have hoctet : (Char.ofNat ch.toNat).val.toUInt8 = ch.toUInt8 := by
    refine UInt8.toNat_inj.mp ?_
    rw [UInt32.toNat_toUInt8, UInt16.toNat_toUInt8]
    exact congrArg (· % 256) hnat
  unfold toUtf8
  rw [hchars, flatMap_cons, String.utf8EncodeChar_eq_singleton hsize, hoctet]
  rfl

theorem length_le_length_toUtf8 (s : QString) : s.length ≤ (toUtf8 s).length := by
  unfold toUtf8
  fun_induction toChars s with
  | case1 => exact Nat.le_refl _
  | case2 u =>
    rw [flatMap_cons, List.length_append, String.length_utf8EncodeChar]
    have hpos := (loneChar u).utf8Size_pos
    simp only [length_singleton]
    omega
  | case3 u v rest hpair ih =>
    rw [flatMap_cons, List.length_append, String.length_utf8EncodeChar]
    simp only [Bool.and_eq_true, isHighSurrogate, isLowSurrogate, decide_eq_true_eq] at hpair
    obtain ⟨hhigh, hlow⟩ := hpair
    generalize hn : 0x10000 + (u.toNat - 0xD800) * 0x400 + (v.toNat - 0xDC00) = n
    have hnat : (Char.ofNat n).toNat = n := toNat_charOfNat (.inr (by omega))
    have hone : (Char.ofNat n).utf8Size ≠ 1 := by
      intro hone
      have hle := UInt32.le_iff_toNat_le.mp (Char.utf8Size_eq_one_iff.mp hone)
      have hsmall : (Char.ofNat n).toNat ≤ 127 := hle
      omega
    have hpos := (Char.ofNat n).utf8Size_pos
    simp only [length_cons]
    omega
  | case4 u v rest hpair ih =>
    rw [flatMap_cons, List.length_append, String.length_utf8EncodeChar]
    have hpos := (loneChar u).utf8Size_pos
    rw [length_cons]
    omega

end QString
end DeconzRest

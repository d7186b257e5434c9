import DeconzRest.Cj.Accept
import DeconzRest.Cj.Codec

/-!
# Copies of the strings of a parsed text

`cj_copy_ref_utf8` decodes the escapes of a string while it copies it.  Its loop goes through the
characters of the string one by one (`Emits`), each with a check of the room that is left, and ends
in an error at a surrogate without the other one of its pair (`Stops`).  Of the escapes those of
the carriage return, the backspace and the form feed are copied as their letters.
-/

namespace DeconzRest
namespace Cj

open Rfc8259 List Option

/-- What a copy returns, with the octets of the buffer in front of the NUL behind them.  A buffer of
no octets is left alone. -/
structure Copied where
  ret : Nat
  octets : List UInt8
deriving DecidableEq, Repr

/-- An error leaves the empty string in the buffer. -/
def Copied.failure : Copied := ⟨0, []⟩

/-- `cj_copy_ref` -/
def copyRef (ctx : Ctx) (size ref : Nat) : Copied :=
  if size = 0 then .failure
  else
    match ctx.tokens[ref]? with
    | none => .failure
    | some tok =>
      if tok.len < size then
        if ctx.size < tok.len then .failure
        else if ctx.size - tok.len < tok.pos then .failure
        else ⟨1, slice ctx tok⟩
      else .failure

/-- `cj_copy_ref_utf8` -/
def copyRefUtf8 (ctx : Ctx) (size ref : Nat) : Copied :=
  if size = 0 then .failure
  else
    match ctx.tokens[ref]? with
    | none => .failure
    | some tok =>
      if tok.type ≠ .string then copyRef ctx size ref
      else
        match copyTokenUtf8 ctx size tok with
        | none => .failure
        | some octets => ⟨1, octets⟩

/-- The escaped characters that are copied as they stand, though they stand for control characters -/
def isLetterEscape (b : UInt8) : Bool := b = 0x72 || b = 0x62 || b = 0x66

/-- One of the escapes `\r`, `\b` and `\f` is in the string. -/
def hasLetterEscape : List UInt8 → Bool
  | [] => false
  | [_] => false
  | c :: b :: rest =>
    if c = 0x5C then isLetterEscape b || hasLetterEscape rest else hasLetterEscape (b :: rest)

/-- What is copied for an escaped character other than `u` -/
def copiedOctet (b : UInt8) : UInt8 := if isLetterEscape b then b else escapedOctet b

/-- The end of `cj_copy_ref_utf8`, behind its loop -/
def finish (s : Option CopyState) : Option (List UInt8) :=
  s.bind fun s => if s.state = .none then some s.written else none

variable {size : Nat}

/-- The loop reads `front` as characters and writes `octets` for them, where there is room. -/
def Emits (size : Nat) (front octets : List UInt8) : Prop :=
  ∀ rest w high, w.length < size → ∃ high',
    finish (copyLoop size (front ++ rest) { written := w, highSurrogate := high }) = if w.length +
      octets.length < size then
        finish (copyLoop size rest { written := w ++ octets, highSurrogate := high' })
      else none

/-- The loop does not get through `body`. -/
def Stops (size : Nat) (body : List UInt8) : Prop :=
  ∀ w high, w.length < size →
    finish (copyLoop size body { written := w, highSurrogate := high }) = none

theorem emits_nil : Emits size [] [] := by
  intro rest w high hw
  refine ⟨high, ?_⟩
  rw [length_nil, if_pos (by omega), append_nil, nil_append]

theorem Emits.append {front front' octets octets' : List UInt8} (h : Emits size front octets)
    (h' : Emits size front' octets') : Emits size (front ++ front') (octets ++ octets') := by
  intro rest w high hw
  obtain ⟨high₁, hfront⟩ := h (front' ++ rest) w high hw
  rw [append_assoc, hfront, List.length_append]
  by_cases hroom : w.length + octets.length < size
  · obtain ⟨high₂, hfront'⟩ := h' rest (w ++ octets) high₁ (by rw [List.length_append]; omega)
    refine ⟨high₂, ?_⟩
    rw [if_pos hroom, hfront', List.length_append, append_assoc, Nat.add_assoc]
  · refine ⟨high, ?_⟩
    rw [if_neg hroom, if_neg (by omega)]

theorem Emits.stops {front octets body : List UInt8} (h : Emits size front octets)
    (hbody : Stops size body) : Stops size (front ++ body) := by
  intro w high hw
  obtain ⟨high', hfront⟩ := h body w high hw
  rw [hfront]
  split
  · rename_i hroom
    exact hbody _ _ (by rw [List.length_append]; exact hroom)
  · rfl

theorem Emits.copied {body octets : List UInt8} (h : Emits size body octets) (hsize : 0 < size) :
    finish (copyLoop size body {}) = if octets.length < size then some octets else none := by
  obtain ⟨high, hbody⟩ := h [] [] 0 hsize
  rw [append_nil, length_nil, Nat.zero_add, nil_append] at hbody
  exact hbody

/-! ## The steps of the loop -/

variable {c : UInt8} {rest : List UInt8} {s : CopyState}

theorem copyLoop_full (h : size - s.written.length = 1) : copyLoop size (c :: rest) s = none := by
  rw [copyLoop, if_pos h]

theorem copyLoop_room (h : size - s.written.length ≠ 1) (hstate : s.state = .none) :
    copyLoop size (c :: rest) s = if c =
      0x5C then copyLoop size rest { s with state := .esc }
      else copyLoop size rest { s with written := s.written ++ [c] } := by
  rw [copyLoop, if_neg h, hstate]

variable {b : UInt8}

theorem emits_unescaped (hsolidus : b ≠ 0x5C) : Emits size [b] [b] := by
  intro rest w high hw
  refine ⟨high, ?_⟩
  rw [singleton_append, length_singleton]
  by_cases hfull : size - w.length = 1
  · rw [copyLoop_full hfull, if_neg (by omega)]
    rfl
  · rw [copyLoop_room hfull rfl, if_neg hsolidus, if_pos (by omega)]

theorem escapedChar_eq (h : isEscape b = true) :
    b ≠ 0x75 ∧ escapedChar b = some (copiedOctet b) := by
  simp only [isEscape, Bool.or_eq_true, decide_eq_true_eq] at h
  rcases h with ((((((rfl | rfl) | rfl) | rfl) | rfl) | rfl) | rfl) | rfl <;> decide

theorem emits_escape (h : isEscape b = true) : Emits size [0x5C, b] [copiedOctet b] := by
  intro rest w high hw
  refine ⟨high, ?_⟩
  obtain ⟨hnum, hchar⟩ := escapedChar_eq h
  rw [cons_append, singleton_append, length_singleton]
  by_cases hfull : size - w.length = 1
  · rw [copyLoop_full hfull, if_neg (by omega)]
    rfl
  · rw [copyLoop_room hfull rfl, if_pos rfl, copyLoop, if_neg hfull,
      if_pos (show w.length + 1 < size by omega)]
    simp only
    rw [if_neg hnum, hchar]

theorem hexDigit_eq (h : isHexDigit c = true) :
    hexDigit c = some (hexValue c) ∧ hexValue c < 16 := by
  simp only [isHexDigit, Rfc8259.isDigit, Bool.or_eq_true, Bool.and_eq_true, decide_eq_true_eq,
    UInt8.le_iff_toNat_le] at h
  simp only [hexDigit, hexValue, UInt8.le_iff_toNat_le]
  have hdigits : (0x30 : UInt8).toNat = 0x30 ∧ (0x39 : UInt8).toNat = 0x39 := ⟨rfl, rfl⟩
  have hupper : (0x41 : UInt8).toNat = 0x41 ∧ (0x46 : UInt8).toNat = 0x46 := ⟨rfl, rfl⟩
  have hlower : (0x61 : UInt8).toNat = 0x61 ∧ (0x66 : UInt8).toNat = 0x66 := ⟨rfl, rfl⟩
  simp only [hdigits, hupper, hlower] at h ⊢
  rcases h with (h | h) | h
  · rw [if_neg (by omega), if_neg (by omega), if_pos h, if_pos h.2]
    exact ⟨rfl, by omega⟩
  · rw [if_neg (by omega), if_pos h, if_neg (by omega), if_pos h.2]
    exact ⟨rfl, by omega⟩
  · rw [if_pos h, if_neg (by omega), if_neg (by omega)]
    exact ⟨rfl, by omega⟩

theorem shift_digit {num digit : Nat} (h : digit < 16) :
    (num <<< 4) ||| digit = num * 16 + digit := by
  rw [← Nat.shiftLeft_add_eq_or_of_lt (show digit < 2 ^ 4 from h), Nat.shiftLeft_eq]

theorem copyLoop_digit {rest w : List UInt8} {num high k : Nat} {low : Bool}
    (h : size - w.length ≠ 1) (hc : isHexDigit c = true) :
    copyLoop size (c :: rest) ⟨w, .num k, num, low, high⟩ = if k <
      3 then copyLoop size rest ⟨w, .num (k + 1), num * 16 + hexValue c, low, high⟩
      else
        (checkNum size ⟨w, .num k, num * 16 + hexValue c, low, high⟩ rest).bind
          (copyLoop size rest) := by
  obtain ⟨hdigit, hlt⟩ := hexDigit_eq hc
  rw [copyLoop, if_neg h]
  simp only
  rw [hdigit]
  simp only [shift_digit hlt]
  split
  · rfl
  · cases checkNum size ⟨w, .num k, num * 16 + hexValue c, low, high⟩ rest <;> rfl

theorem copyLoop_unicode {a b c d : UInt8} (hroom : size - s.written.length ≠ 1)
    (hstate : s.state = .none) (hnum : s.num0 = 0) (ha : isHexDigit a = true)
    (hb : isHexDigit b = true) (hc : isHexDigit c = true) (hd : isHexDigit d = true) :
    copyLoop size (0x5C :: 0x75 :: a :: b :: c :: d :: rest) s =
      (checkNum size { s with num0 := codeUnit a b c d, state := .num 3 } rest).bind
        (copyLoop size rest) := by
  rw [copyLoop_room hroom hstate, if_pos rfl, copyLoop, if_neg hroom]
  simp only [length_cons, if_true]
  rw [if_neg (by omega), copyLoop_digit hroom ha, if_pos (by decide), copyLoop_digit hroom hb,
    if_pos (by decide), copyLoop_digit hroom hc,
    if_pos (by decide), copyLoop_digit hroom hd, if_neg (by decide)]
  simp only [hnum, Nat.zero_mul, Nat.zero_add]
  rfl

theorem codeUnit_lt {a b c d : UInt8} (ha : isHexDigit a = true) (hb : isHexDigit b = true)
    (hc : isHexDigit c = true) (hd : isHexDigit d = true) : codeUnit a b c d < 0x10000 := by
  have hva := (hexDigit_eq ha).2
  have hvb := (hexDigit_eq hb).2
  have hvc := (hexDigit_eq hc).2
  have hvd := (hexDigit_eq hd).2
  unfold codeUnit
  omega

theorem length_encode_pos (c : Char) : 0 < (String.utf8EncodeChar c).length := by
  rw [String.length_utf8EncodeChar]
  exact c.utf8Size_pos

section Units

variable {a b c d : UInt8} (ha : isHexDigit a = true) (hb : isHexDigit b = true)
  (hc : isHexDigit c = true) (hd : isHexDigit d = true)

include ha hb hc hd

theorem emits_unicode (hchar : codeUnit a b c d < 0xD800 ∨ 0xDFFF < codeUnit a b c d) :
    Emits size [0x5C, 0x75, a, b, c, d]
      (String.utf8EncodeChar (Char.ofNat (codeUnit a b c d))) := by
  intro rest w high hw
  refine ⟨high, ?_⟩
  have hlt := codeUnit_lt ha hb hc hd
  obtain ⟨char, hunit⟩ := exists_char (hchar.imp id fun h => ⟨h, by omega⟩)
  have hpos := length_encode_pos char
  have hwrite := unicodeToUtf8_char char (size - w.length)
  rw [hunit] at hwrite
  rw [← hunit, Char.ofNat_toNat]
  simp only [cons_append, nil_append]
  by_cases hfull : size - w.length = 1
  · rw [copyLoop_full hfull, if_neg (by omega)]
    rfl
  · rw [copyLoop_unicode hfull rfl rfl ha hb hc hd, checkNum]
    simp only [true_and, false_and, if_false, Bool.false_eq_true]
    rw [if_neg (by omega), if_neg (by omega), hwrite]
    by_cases hroom : w.length + (String.utf8EncodeChar char).length < size
    · rw [if_pos (by omega), if_pos hroom]
      rfl
    · rw [if_neg (by omega), if_neg hroom]
      rfl

variable {rest : List UInt8}

theorem stops_low (hlow : 0xDC00 ≤ codeUnit a b c d ∧ codeUnit a b c d ≤ 0xDFFF) :
    Stops size (0x5C :: 0x75 :: a :: b :: c :: d :: rest) := by
  intro w high hw
  by_cases hfull : size - w.length = 1
  · rw [copyLoop_full hfull]
    rfl
  · rw [copyLoop_unicode hfull rfl rfl ha hb hc hd, checkNum]
    simp only [true_and]
    rw [if_neg (by omega), if_pos hlow]
    rfl

theorem stops_high (hhigh : 0xD800 ≤ codeUnit a b c d ∧ codeUnit a b c d ≤ 0xDBFF)
    (hrest : ¬ [0x5C, 0x75].isPrefixOf rest) :
    Stops size (0x5C :: 0x75 :: a :: b :: c :: d :: rest) := by
  intro w high hw
  by_cases hfull : size - w.length = 1
  · rw [copyLoop_full hfull]
    rfl
  · rw [copyLoop_unicode hfull rfl rfl ha hb hc hd, checkNum]
    simp only [true_and]
    rw [if_pos hhigh, if_pos (.inr hrest)]
    rfl

variable {a' b' c' d' : UInt8} (ha' : isHexDigit a' = true) (hb' : isHexDigit b' = true)
  (hc' : isHexDigit c' = true) (hd' : isHexDigit d' = true)
  (hhigh : 0xD800 ≤ codeUnit a b c d ∧ codeUnit a b c d ≤ 0xDBFF)

include ha' hb' hc' hd' hhigh

theorem copyLoop_pair {rest w : List UInt8} {high : Nat} (hroom : size - w.length ≠ 1) :
    copyLoop size (0x5C :: 0x75 :: a :: b :: c :: d :: 0x5C :: 0x75 :: a' :: b' :: c' :: d' :: rest)
        { written := w, highSurrogate := high } =
      (checkNum size
        { written := w, state := .num 3, num0 := codeUnit a' b' c' d', needLowSurrogate := true
          highSurrogate := (codeUnit a b c d - 0xD800) * 0x400 } rest).bind
        (copyLoop size rest) := by
  have hmore : ¬ ((0x5C :: 0x75 :: a' :: b' :: c' :: d' :: rest).length + 1 < 6 ∨
      ¬ [0x5C, 0x75].isPrefixOf (0x5C :: 0x75 :: a' :: b' :: c' :: d' :: rest)) := by
    simp only [length_cons, List.isPrefixOf, beq_self_eq_true, Bool.and_self, not_true_eq_false,
      or_false]
    omega
  rw [copyLoop_unicode hroom rfl rfl ha hb hc hd, checkNum]
  simp only [true_and]
  rw [if_pos hhigh, if_neg hmore, bind_some,
    copyLoop_unicode (by exact hroom) rfl rfl ha' hb' hc' hd']

theorem stops_pair (hlow : codeUnit a' b' c' d' < 0xDC00 ∨ 0xDFFF < codeUnit a' b' c' d') :
    Stops size
      (0x5C :: 0x75 :: a :: b :: c :: d :: 0x5C :: 0x75 :: a' :: b' :: c' :: d' :: rest) := by
  intro w high hw
  by_cases hfull : size - w.length = 1
  · rw [copyLoop_full hfull]
    rfl
  · rw [copyLoop_pair ha hb hc hd ha' hb' hc' hd' hhigh hfull, checkNum]
    simp only [Bool.true_eq_false, false_and, if_false, true_and]
    rw [if_pos hlow]
    rfl

theorem emits_pair (hlow : 0xDC00 ≤ codeUnit a' b' c' d' ∧ codeUnit a' b' c' d' ≤ 0xDFFF) :
    Emits size [0x5C, 0x75, a, b, c, d, 0x5C, 0x75, a', b', c', d']
      (String.utf8EncodeChar (surrogatePair (codeUnit a b c d) (codeUnit a' b' c' d'))) := by
  intro rest w high hw
  refine ⟨(codeUnit a b c d - 0xD800) * 0x400, ?_⟩
  obtain ⟨char, hunit⟩ : ∃ char : Char, char.toNat = (codeUnit a b c d - 0xD800) * 0x400 +
      (codeUnit a' b' c' d' - 0xDC00) + 0x10000 :=
    exists_char (by omega)
  have hpos := length_encode_pos char
  have hwrite := unicodeToUtf8_char char (size - w.length)
  rw [hunit] at hwrite
  rw [surrogatePair, ← hunit, Char.ofNat_toNat]
  simp only [cons_append, nil_append]
  by_cases hfull : size - w.length = 1
  · rw [copyLoop_full hfull, if_neg (by omega)]
    rfl
  · rw [copyLoop_pair ha hb hc hd ha' hb' hc' hd' hhigh hfull, checkNum]
    simp only [Bool.true_eq_false, false_and, if_false, true_and, if_true]
    rw [if_neg (by omega), hwrite]
    by_cases hroom : w.length + (String.utf8EncodeChar char).length < size
    · rw [if_pos (by omega), if_pos hroom]
      rfl
    · rw [if_neg (by omega), if_neg hroom]
      rfl

end Units

/-! ## Whole strings -/

theorem hasLetterEscape_cons (hb : b ≠ 0x5C) (rest : List UInt8) :
    hasLetterEscape (b :: rest) = hasLetterEscape rest := by
  cases rest with
  | nil => rfl
  | cons c rest => rw [hasLetterEscape, if_neg hb]

theorem hasLetterEscape_escape (b : UInt8) (rest : List UInt8) :
    hasLetterEscape (0x5C :: b :: rest) = (isLetterEscape b || hasLetterEscape rest) := by
  rw [hasLetterEscape, if_pos rfl]

theorem hexDigit_ne (h : isHexDigit c = true) : c ≠ 0x5C := by
  rintro rfl
  exact absurd h (by decide)

theorem hasLetterEscape_unicode {a b c d : UInt8} (ha : isHexDigit a = true)
    (hb : isHexDigit b = true) (hc : isHexDigit c = true) (hd : isHexDigit d = true)
    (rest : List UInt8) :
    hasLetterEscape (0x5C :: 0x75 :: a :: b :: c :: d :: rest) = hasLetterEscape rest := by
  rw [hasLetterEscape_escape, hasLetterEscape_cons (hexDigit_ne ha),
    hasLetterEscape_cons (hexDigit_ne hb), hasLetterEscape_cons (hexDigit_ne hc),
    hasLetterEscape_cons (hexDigit_ne hd)]
  rfl

theorem copiedOctet_eq_iff (b : UInt8) :
    copiedOctet b = escapedOctet b ↔ isLetterEscape b = false := by
  unfold copiedOctet
  by_cases h : isLetterEscape b = true
  · rw [if_pos h, h]
    simp only [isLetterEscape, Bool.or_eq_true, decide_eq_true_eq] at h
    rcases h with (rfl | rfl) | rfl <;> decide
  · rw [if_neg h]
    simp only [Bool.eq_false_iff.mpr h]

theorem emits_of_decodes {body text : List UInt8} (h : Decodes body text) :
    ∃ octets, Emits size body octets ∧ octets.length = text.length ∧
      (octets = text ↔ hasLetterEscape body = false) := by
  induction h with
  | nil => exact ⟨[], emits_nil, rfl, iff_of_true rfl rfl⟩
  | @unescaped b rest text _ _ hsolidus _ ih =>
    obtain ⟨octets, hemits, hlength, hsame⟩ := ih
    refine ⟨b :: octets, (emits_unescaped hsolidus).append hemits, ?_, ?_⟩
    · rw [length_cons, length_cons, hlength]
    · rw [hasLetterEscape_cons hsolidus, ← hsame, cons_inj_right]
  | @escape b rest text hb _ ih =>
    obtain ⟨octets, hemits, hlength, hsame⟩ := ih
    refine ⟨copiedOctet b :: octets, (emits_escape hb).append hemits, ?_, ?_⟩
    · rw [length_cons, length_cons, hlength]
    · rw [hasLetterEscape_escape, Bool.or_eq_false_iff, ← hsame, ← copiedOctet_eq_iff,
        List.cons.injEq]
  | unicode ha hb hc hd hchar _ ih =>
    obtain ⟨octets, hemits, hlength, hsame⟩ := ih
    refine ⟨_, (emits_unicode ha hb hc hd hchar).append hemits, ?_, ?_⟩
    · rw [List.length_append, List.length_append, hlength]
    · rw [hasLetterEscape_unicode ha hb hc hd, ← hsame, append_right_inj]
  | pair ha hb hc hd ha' hb' hc' hd' hhigh hlow _ ih =>
    obtain ⟨octets, hemits, hlength, hsame⟩ := ih
    refine ⟨_, (emits_pair ha hb hc hd ha' hb' hc' hd' hhigh hlow).append hemits, ?_, ?_⟩
    · rw [List.length_append, List.length_append, hlength]
    · rw [hasLetterEscape_unicode ha hb hc hd, hasLetterEscape_unicode ha' hb' hc' hd', ← hsame,
        append_right_inj]

theorem high_decodes_or_stops {a b c d : UInt8} (ha : isHexDigit a = true)
    (hb : isHexDigit b = true) (hc : isHexDigit c = true) (hd : isHexDigit d = true)
    (hhigh : 0xD800 ≤ codeUnit a b c d ∧ codeUnit a b c d ≤ 0xDBFF) (h : Chars rest)
    (ih : ∀ more, more.length < rest.length → Chars more → (∃ text, Decodes more text) ∨
      Stops size more)
    :
    (∃ text, Decodes (0x5C :: 0x75 :: a :: b :: c :: d :: rest) text) ∨
      Stops size (0x5C :: 0x75 :: a :: b :: c :: d :: rest) := by
  cases h with
  | nil => exact .inr (stops_high ha hb hc hd hhigh (by decide))
  | unescaped _ _ hsolidus _ =>
    refine .inr (stops_high ha hb hc hd hhigh fun hu => hsolidus ?_)
    simp only [List.isPrefixOf, Bool.and_eq_true, beq_iff_eq] at hu
    exact hu.1.symm
  | escape hescape _ =>
    refine .inr (stops_high ha hb hc hd hhigh fun hu => (escapedChar_eq hescape).1 ?_)
    simp only [List.isPrefixOf, Bool.and_eq_true, beq_iff_eq] at hu
    exact hu.2.1.symm
  | @unicode a' b' c' d' more ha' hb' hc' hd' hmore =>
    by_cases hlow : 0xDC00 ≤ codeUnit a' b' c' d' ∧ codeUnit a' b' c' d' ≤ 0xDFFF
    · refine (ih more (by simp only [length_cons]; omega) hmore).imp ?_ ?_
      · exact fun ⟨text, htext⟩ => ⟨_, .pair ha hb hc hd ha' hb' hc' hd' hhigh hlow htext⟩
      · exact (emits_pair ha hb hc hd ha' hb' hc' hd' hhigh hlow).stops
    · exact .inr (stops_pair ha hb hc hd ha' hb' hc' hd' hhigh (by omega))

theorem decodes_or_stops {body : List UInt8} (h : Chars body) :
    (∃ text, Decodes body text) ∨ Stops size body := by
  -- a pair of surrogates takes two escapes at once
  induction hn : body.length using Nat.strongRecOn generalizing body with
  | _ n ih =>
    have hshorter : ∀ more : List UInt8, more.length < body.length → Chars more →
        (∃ text, Decodes more text) ∨ Stops size more :=
      fun more hless hmore => ih _ (hn ▸ hless) hmore rfl
    cases h with
    | nil => exact .inl ⟨[], .nil⟩
    | @unescaped b rest hcontrol hquote hsolidus hrest =>
      refine (hshorter rest (by simp only [length_cons]; omega) hrest).imp ?_
        (emits_unescaped hsolidus).stops
      exact fun ⟨text, htext⟩ => ⟨_, .unescaped hcontrol hquote hsolidus htext⟩
    | @escape b rest hb hrest =>
      refine (hshorter rest (by simp only [length_cons]; omega) hrest).imp ?_
        (emits_escape hb).stops
      exact fun ⟨text, htext⟩ => ⟨_, .escape hb htext⟩
    | @unicode a b c d rest ha hb hc hd hrest =>
      rcases Nat.lt_or_ge (codeUnit a b c d) 0xD800 with hbelow | hbelow
      · refine (hshorter rest (by simp only [length_cons]; omega) hrest).imp ?_
          (emits_unicode ha hb hc hd (.inl hbelow)).stops
        exact fun ⟨text, htext⟩ => ⟨_, .unicode ha hb hc hd (.inl hbelow) htext⟩
      rcases Nat.lt_or_ge 0xDFFF (codeUnit a b c d) with habove | habove
      · refine (hshorter rest (by simp only [length_cons]; omega) hrest).imp ?_
          (emits_unicode ha hb hc hd (.inr habove)).stops
        exact fun ⟨text, htext⟩ => ⟨_, .unicode ha hb hc hd (.inr habove) htext⟩
      rcases Nat.lt_or_ge 0xDBFF (codeUnit a b c d) with hlow | hhigh
      · exact .inr (stops_low ha hb hc hd ⟨hlow, habove⟩)
      · refine high_decodes_or_stops ha hb hc hd ⟨hbelow, hhigh⟩ hrest fun more hless =>
          hshorter more (by simp only [length_cons]; omega)

theorem decodes_unique {body text text' : List UInt8} (h : Decodes body text)
    (h' : Decodes body text') : text' = text := by
  induction h generalizing text' with
  | nil =>
    cases h'
    rfl
  | unescaped _ _ hsolidus _ ih =>
    cases h' with
    | unescaped _ _ _ h' => rw [ih h']
    | _ => exact absurd rfl hsolidus
  | escape hb _ ih =>
    cases h' with
    | unescaped _ _ hsolidus _ => exact absurd rfl hsolidus
    | escape _ h' => rw [ih h']
    | _ => exact absurd rfl (escapedChar_eq hb).1
  | unicode _ _ _ _ hchar _ ih =>
    cases h' with
    | unescaped _ _ hsolidus _ => exact absurd rfl hsolidus
    | escape hb _ => exact absurd rfl (escapedChar_eq hb).1
    | unicode _ _ _ _ _ h' => rw [ih h']
    | pair _ _ _ _ _ _ _ _ hhigh _ _ => omega
  | pair _ _ _ _ _ _ _ _ hhigh _ _ ih =>
    cases h' with
    | unescaped _ _ hsolidus _ => exact absurd rfl hsolidus
    | escape hb _ => exact absurd rfl (escapedChar_eq hb).1
    | unicode _ _ _ _ hchar _ => omega
    | pair _ _ _ _ _ _ _ _ _ _ h' => rw [ih h']

theorem layoutSpans_string {pieces : List Placed} {before after : List UInt8} {pos len : Nat}
    (h : (TokenType.string, pos, len) ∈ layoutSpans before.length pieces) :
    Chars (((before ++ (layoutText pieces ++ after)).drop pos).take len) ∧ pos + len ≤
      before.length + (layoutText pieces).length := by
  induction pieces generalizing before with
  | nil => exact absurd h not_mem_nil
  | cons p pieces ih =>
    rw [layoutSpans, mem_cons] at h
    rw [layoutText_cons]
    rcases h with h | h
    · obtain ⟨htype, hspan⟩ := Prod.mk.inj h
      obtain ⟨hpos, hlen⟩ := Prod.mk.inj hspan
      have hvalue := valueText_eq p.lexeme (before ++ p.gap) (layoutText pieces ++ after)
      rw [List.length_append, ← hpos, ← hlen] at hvalue
      simp only [append_assoc] at hvalue ⊢
      rw [hvalue]
      obtain ⟨gap, hgap, kind, text, hlex⟩ := p
      have hkind : kind = .string := kindType_injective htype.symm
      subst hkind
      obtain ⟨body, rfl, hbody⟩ := hlex
      refine ⟨by simpa [valueText] using hbody, ?_⟩
      simp only [valueSpan, length_cons, List.length_append, length_nil] at hpos hlen ⊢
      omega
    · have hrest := @ih (before ++ (p.gap ++ p.lexeme.text)) (by
        rw [List.length_append, List.length_append]
        exact h)
      simp only [append_assoc, List.length_append] at hrest ⊢
      exact ⟨hrest.1, by omega⟩

variable {ctx : Ctx}

theorem Parsed.layout {json : List UInt8} {n : Nat} (h : Parsed json n ctx) :
    (∃ pieces trailing, ctx.buf = layoutText pieces ++ trailing ∧ ctx.size =
      (layoutText pieces).length ∧ spans ctx.tokens = layoutSpans 0 pieces) ∨
      ctx.tokens.map Token.type = [.primitive] := by
  obtain ⟨stop, s, hsteps⟩ := h.steps
  have hctx := hsteps.ctx_eq
  have hne : json ≠ [] := mt length_eq_zero_iff.mpr hsteps.init.1
  obtain ⟨text, trailing, hjson, -, htext, htrim⟩ := exists_trimmed json
  have hstop : stop = text.length := some.inj (hsteps.trim.symm.trans htrim)
  rw [hstop] at hsteps
  rcases htext with rfl | htext
  · -- white space alone has no token
    obtain ⟨_, hblank, -⟩ := @parseLoop_blank n json hne (by have := hsteps.init.2; omega)
    have hstatus := congrArg Prod.snd (some.inj (hsteps.loop.symm.trans hblank))
    exact absurd hstatus Status.noConfusion
  · have hview : View json text.length 0 text := by
      rw [hjson]
      exact view_text text trailing
    obtain ⟨s', status, hloop, -, hsound⟩ :=
      @parseLoop_sound _ _ n _ hview htext (n + 1) (Nat.lt_succ_self n)
    obtain ⟨rfl, rfl⟩ := Prod.mk.inj (some.inj (hsteps.loop.symm.trans hloop))
    rcases hsound rfl with ⟨pieces, hpieces, hprogress⟩ |
      ⟨pieces, gap, tail, -, -, -, hadmissible, htracks⟩
    · refine .inl ⟨pieces, trailing, ?_, ?_, ?_⟩
      · rw [hctx, ← hpieces]
        exact hjson
      · rw [hctx, ← hpieces]
        exact hstop
      · rw [hctx]
        exact hprogress.spans
    · obtain ⟨result, hfinal, hiff⟩ := finalStatus_spec htracks hadmissible (by simp)
      have hlenient := hiff.mp (some.inj (hfinal.symm.trans hsteps.final))
      have htypes := htracks.types
      rw [lenient_primitive hlenient] at htypes
      refine .inr ?_
      rw [hctx]
      exact htypes

theorem Parsed.string_chars {json : List UInt8} {n : Nat} {tok : Token} (h : Parsed json n ctx)
    (htok : tok ∈ ctx.tokens) (htype : tok.type = .string) :
    Chars (slice ctx tok) ∧ tok.pos + tok.len ≤ ctx.size := by
  rcases h.layout with ⟨pieces, trailing, hbuf, hstop, hspans⟩ | htypes
  · have hspan : (TokenType.string, tok.pos, tok.len) ∈
        layoutSpans ([] : List UInt8).length pieces := by
      rw [length_nil, ← hspans, ← htype]
      exact mem_map_of_mem htok
    have hstring := @layoutSpans_string pieces [] trailing _ _ hspan
    rw [nil_append, ← hbuf, length_nil, Nat.zero_add, ← hstop] at hstring
    exact hstring
  · have hmem : tok.type ∈ ctx.tokens.map Token.type := mem_map_of_mem htok
    rw [htypes, htype] at hmem
    exact absurd hmem (by decide)

/-! ## The copy of a string -/

/-- What a copy of a string into a buffer of `size` octets should be: the text that the string
stands for, where its surrogates are paired and it fits together with the NUL, and else an error
with the empty string -/
structure CopiesString (body : List UInt8) (size : Nat) (copied : Copied) : Prop where
  ret : copied.ret = 1 ↔ ∃ text, Decodes body text ∧ text.length < size
  text : ∀ text, Decodes body text → text.length < size → copied.octets = text
  failure : copied.ret ≠ 1 → copied = .failure

theorem copyRefUtf8_string {ref : Nat} {tok : Token} (hsize : 0 < size)
    (htok : ctx.tokens[ref]? = some tok) (htype : tok.type = .string)
    (hinside : tok.pos + tok.len ≤ ctx.size) :
    copyRefUtf8 ctx size ref =
      match finish (copyLoop size (slice ctx tok) {}) with
      | none => .failure
      | some octets => ⟨1, octets⟩ := by
  have hloop : copyTokenUtf8 ctx size tok = finish (copyLoop size (slice ctx tok) {}) := by
    unfold copyTokenUtf8
    rw [if_neg (by omega)]
    cases copyLoop size (slice ctx tok) {} <;> rfl
  unfold copyRefUtf8
  rw [if_neg (by omega), htok]
  simp only [htype, ne_eq, not_true_eq_false, if_false, hloop]

theorem copiesString_failure {body : List UInt8}
    (h : ¬ ∃ text, Decodes body text ∧ text.length < size) : CopiesString body size .failure where
  ret := iff_of_false (by decide) h
  text := fun text htext hfits => absurd ⟨text, htext, hfits⟩ h
  failure := fun _ => rfl

theorem copiesString_emits {body text octets : List UInt8} (htext : Decodes body text)
    (hfits : text.length < size) (hsame : octets = text ↔ hasLetterEscape body = false) :
    CopiesString body size ⟨1, octets⟩ ↔ hasLetterEscape body = false := by
  rw [← hsame]
  refine ⟨fun h => h.text text htext hfits, fun hoctets => ⟨?_, ?_, ?_⟩⟩
  · exact iff_of_true rfl ⟨text, htext, hfits⟩
  · intro text' htext' _
    rw [decodes_unique htext htext']
    exact hoctets
  · exact fun habsurd => absurd rfl habsurd

/-- **Copies of strings**: with every buffer a string of a parsed text is copied as the text that it
stands for, unless one of its escapes is `\r`, `\b` or `\f`; such a string is copied wrongly
wherever its surrogates are paired and it fits. -/
theorem copies_string_iff {json : List UInt8} {n : Nat} {ctx : Ctx} (h : Parsed json n ctx)
    {ref : Nat} {tok : Token} (htok : ctx.tokens[ref]? = some tok) (htype : tok.type = .string)
    (size : Nat) :
    CopiesString (slice ctx tok) size (copyRefUtf8 ctx size ref) ↔
      ¬ (hasLetterEscape (slice ctx tok) = true ∧ ∃ text, Decodes (slice ctx tok) text ∧
        text.length < size) := by
  obtain ⟨hchars, hinside⟩ := h.string_chars (mem_of_getElem? htok) htype
  by_cases hfitting : ∃ text, Decodes (slice ctx tok) text ∧ text.length < size
  · obtain ⟨text, htext, hfits⟩ := hfitting
    have hsize : 0 < size := by omega
    obtain ⟨octets, hemits, hlength, hsame⟩ := @emits_of_decodes size _ _ htext
    rw [copyRefUtf8_string hsize htok htype hinside, hemits.copied hsize, if_pos (by omega)]
    rw [copiesString_emits htext hfits hsame, ← Bool.not_eq_true]
    exact not_congr ⟨fun hletter => ⟨hletter, text, htext, hfits⟩, And.left⟩
  · refine iff_of_true ?_ fun hletter => hfitting hletter.2
    suffices hnone : copyRefUtf8 ctx size ref = .failure by
      rw [hnone]
      exact copiesString_failure hfitting
    rcases Nat.eq_zero_or_pos size with rfl | hsize
    · rfl
    rw [copyRefUtf8_string hsize htok htype hinside]
    rcases @decodes_or_stops size _ hchars with ⟨text, htext⟩ | hstops
    · -- the text does not fit
      obtain ⟨octets, hemits, hlength, -⟩ := @emits_of_decodes size _ _ htext
      have hlong : ¬ octets.length < size := fun hfits => hfitting ⟨text, htext, by omega⟩
      rw [hemits.copied hsize, if_neg hlong]
    · rw [hstops [] 0 hsize]

/-- The text `"a\r"`, quotation marks included -/
def carriageReturnText : List UInt8 := [0x22, 0x61, 0x5C, 0x72, 0x22]

def carriageReturnCtx : Ctx where
  buf := carriageReturnText
  pos := 5
  size := 5
  tokens := [{ type := .string, pos := 1, len := 3 }]
  tokensSize := 8
  status := .ok

theorem carriageReturn_parsed : Parsed carriageReturnText 8 carriageReturnCtx := by
  decide

theorem carriageReturn_decodes :
    Decodes (slice carriageReturnCtx ⟨.string, 1, 3, none⟩) [0x61, 0x0D] :=
  .unescaped (by decide) (by decide) (by decide) (.escape rfl .nil)

/-- A carriage return is copied as the letter `r`. -/
theorem carriage_return_copied_wrongly :
    ¬ ∀ (json : List UInt8) (n : Nat) (ctx : Ctx), Parsed json n ctx →
      ∀ (ref : Nat) (tok : Token), ctx.tokens[ref]? = some tok → tok.type = .string →
        ∀ size, CopiesString (slice ctx tok) size (copyRefUtf8 ctx size ref) := by
  intro h
  have hcopied := h _ _ _ carriageReturn_parsed 0 ⟨.string, 1, 3, none⟩ rfl rfl 16
  have htext := hcopied.text [0x61, 0x0D] carriageReturn_decodes (by decide)
  exact absurd htext (by decide)

theorem copies_string_iff_carriageReturn :
    CopiesString (slice carriageReturnCtx ⟨.string, 1, 3, none⟩) 2
      (copyRefUtf8 carriageReturnCtx 2 0) := by
  refine (copies_string_iff carriageReturn_parsed rfl rfl 2).mpr ?_
  rintro ⟨-, text, htext, hfits⟩
  rw [decodes_unique carriageReturn_decodes htext] at hfits
  exact absurd hfits (by decide)

end Cj
end DeconzRest

import Mathlib.Data.List.Basic

/-!
# The grammar of JSON texts

RFC 8259 in two levels.  The lexical level says which octets a token has: the six
structural characters, strings, numbers and the three literal names.  The
syntactic level derives sequences of token kinds (`Derives`).  A JSON text is
valid UTF-8 that reads, with white space between its tokens and at both ends, as
the tokens of one derived value (`JsonText`).

* `Lexeme`: a token kind together with a text that is one of its spellings.
* `Placed`: a lexeme with the white space in front of it; a list of them is the
  layout of a text.
* `Derives`: values, the elements between brackets, the members between braces.
-/

namespace DeconzRest
namespace Rfc8259

inductive Kind where
  | beginArray | endArray | beginObject | endObject | nameSeparator | valueSeparator
  | string | primitive
deriving DecidableEq, Repr

/-! ## Lexical level -/

/-- `ws`: space, horizontal tab, line feed, carriage return. -/
def isWs (b : UInt8) : Bool := b = 0x20 || b = 0x09 || b = 0x0A || b = 0x0D

def isDigit (b : UInt8) : Bool := 0x30 ≤ b && b ≤ 0x39

def isHexDigit (b : UInt8) : Bool :=
  isDigit b || (0x41 ≤ b && b ≤ 0x46) || (0x61 ≤ b && b ≤ 0x66)

/-- The characters that may follow a backslash: quotation mark, reverse solidus,
solidus, `b`, `f`, `n`, `r`, `t`. -/
def isEscape (b : UInt8) : Bool :=
  b = 0x22 || b = 0x5C || b = 0x2F || b = 0x62 || b = 0x66 || b = 0x6E || b = 0x72 || b = 0x74

/-- The octets between the quotation marks of a string.  An octet of a multibyte
character is none of the special ones, so this needs no decoding. -/
inductive Chars : List UInt8 → Prop where
  | nil : Chars []
  | unescaped {b : UInt8} {rest : List UInt8} (hcontrol : 0x20 ≤ b) (hquote : b ≠ 0x22)
      (hsolidus : b ≠ 0x5C) (h : Chars rest) : Chars (b :: rest)
  | escape {b : UInt8} {rest : List UInt8} (hb : isEscape b = true) (h : Chars rest) :
      Chars (0x5C :: b :: rest)
  | unicode {a b c d : UInt8} {rest : List UInt8} (ha : isHexDigit a = true)
      (hb : isHexDigit b = true) (hc : isHexDigit c = true) (hd : isHexDigit d = true)
      (h : Chars rest) : Chars (0x5C :: 0x75 :: a :: b :: c :: d :: rest)

/-- The octet that a character behind a backslash stands for, other than `u` -/
def escapedOctet (b : UInt8) : UInt8 :=
  if b = 0x62 then 0x08
  else if b = 0x66 then 0x0C
  else if b = 0x6E then 0x0A
  else if b = 0x72 then 0x0D
  else if b = 0x74 then 0x09
  else b

def hexValue (b : UInt8) : Nat :=
  if b ≤ 0x39 then b.toNat - 0x30
  else if b ≤ 0x46 then b.toNat - 0x41 + 10
  else b.toNat - 0x61 + 10

/-- The UTF-16 code unit of four hexadecimal digits -/
def codeUnit (a b c d : UInt8) : Nat :=
  ((hexValue a * 16 + hexValue b) * 16 + hexValue c) * 16 + hexValue d

/-- The character of a pair of surrogates -/
def surrogatePair (high low : Nat) : Char :=
  Char.ofNat ((high - 0xD800) * 0x400 + (low - 0xDC00) + 0x10000)

/-- The octets between the quotation marks of a string, and the UTF-8 encoding of the string that
they stand for.  A surrogate without the other one of its pair stands for nothing. -/
inductive Decodes : List UInt8 → List UInt8 → Prop where
  | nil : Decodes [] []
  | unescaped {b : UInt8} {rest text : List UInt8} (hcontrol : 0x20 ≤ b) (hquote : b ≠ 0x22)
      (hsolidus : b ≠ 0x5C) (h : Decodes rest text) : Decodes (b :: rest) (b :: text)
  | escape {b : UInt8} {rest text : List UInt8} (hb : isEscape b = true) (h : Decodes rest text) :
      Decodes (0x5C :: b :: rest) (escapedOctet b :: text)
  | unicode {a b c d : UInt8} {rest text : List UInt8} (ha : isHexDigit a = true)
      (hb : isHexDigit b = true) (hc : isHexDigit c = true) (hd : isHexDigit d = true)
      (hchar : codeUnit a b c d < 0xD800 ∨ 0xDFFF < codeUnit a b c d) (h : Decodes rest text) :
      Decodes (0x5C :: 0x75 :: a :: b :: c :: d :: rest)
        (String.utf8EncodeChar (Char.ofNat (codeUnit a b c d)) ++ text)
  | pair {a b c d a' b' c' d' : UInt8} {rest text : List UInt8} (ha : isHexDigit a = true)
      (hb : isHexDigit b = true) (hc : isHexDigit c = true) (hd : isHexDigit d = true)
      (ha' : isHexDigit a' = true) (hb' : isHexDigit b' = true) (hc' : isHexDigit c' = true)
      (hd' : isHexDigit d' = true)
      (hhigh : 0xD800 ≤ codeUnit a b c d ∧ codeUnit a b c d ≤ 0xDBFF)
      (hlow : 0xDC00 ≤ codeUnit a' b' c' d' ∧ codeUnit a' b' c' d' ≤ 0xDFFF)
      (h : Decodes rest text) :
      Decodes (0x5C :: 0x75 :: a :: b :: c :: d :: 0x5C :: 0x75 :: a' :: b' :: c' :: d' :: rest)
        (String.utf8EncodeChar (surrogatePair (codeUnit a b c d) (codeUnit a' b' c' d')) ++ text)

theorem Decodes.of_unescaped {body : List UInt8}
    (h : ∀ b ∈ body, 0x20 ≤ b ∧ b ≠ 0x22 ∧ b ≠ 0x5C) : Decodes body body := by
  induction body with
  | nil => exact .nil
  | cons b body ih =>
    obtain ⟨⟨hcontrol, hquote, hsolidus⟩, hrest⟩ := List.forall_mem_cons.mp h
    exact .unescaped hcontrol hquote hsolidus (ih hrest)

/-- `*DIGIT` -/
def Digits (l : List UInt8) : Prop := ∀ b ∈ l, isDigit b = true

/-- `1*DIGIT` -/
def Digits1 (l : List UInt8) : Prop := l ≠ [] ∧ Digits l

/-- `int = zero / ( digit1-9 *DIGIT )` -/
def IntPart (l : List UInt8) : Prop :=
  l = [0x30] ∨ ∃ d ds, l = d :: ds ∧ isDigit d = true ∧ d ≠ 0x30 ∧ Digits ds

/-- `[ frac ]` -/
def FracPart (l : List UInt8) : Prop :=
  l = [] ∨ ∃ ds, l = 0x2E :: ds ∧ Digits1 ds

/-- `[ exp ]` -/
def ExpPart (l : List UInt8) : Prop :=
  l = [] ∨ ∃ e sign ds, l = e :: (sign ++ ds) ∧ (e = 0x65 ∨ e = 0x45) ∧
    (sign = [] ∨ sign = [0x2B] ∨ sign = [0x2D]) ∧ Digits1 ds

/-- `number = [ minus ] int [ frac ] [ exp ]` -/
def Number (l : List UInt8) : Prop :=
  ∃ minus int frac exp, l = minus ++ (int ++ (frac ++ exp)) ∧ (minus = [] ∨ minus = [0x2D]) ∧
    IntPart int ∧ FracPart frac ∧ ExpPart exp

def literalNull : List UInt8 := [0x6E, 0x75, 0x6C, 0x6C]
def literalTrue : List UInt8 := [0x74, 0x72, 0x75, 0x65]
def literalFalse : List UInt8 := [0x66, 0x61, 0x6C, 0x73, 0x65]

def Primitive (l : List UInt8) : Prop :=
  l = literalNull ∨ l = literalTrue ∨ l = literalFalse ∨ Number l

def Lexical : Kind → List UInt8 → Prop
  | .beginArray, text => text = [0x5B]
  | .endArray, text => text = [0x5D]
  | .beginObject, text => text = [0x7B]
  | .endObject, text => text = [0x7D]
  | .nameSeparator, text => text = [0x3A]
  | .valueSeparator, text => text = [0x2C]
  | .string, text => ∃ body, text = 0x22 :: (body ++ [0x22]) ∧ Chars body
  | .primitive, text => Primitive text

/-- A token with one of its spellings. -/
structure Lexeme where
  kind : Kind
  text : List UInt8
  lexical : Lexical kind text

namespace Lexeme

/-! The structural characters. -/

def beginArray : Lexeme := ⟨.beginArray, [0x5B], rfl⟩
def endArray : Lexeme := ⟨.endArray, [0x5D], rfl⟩
def beginObject : Lexeme := ⟨.beginObject, [0x7B], rfl⟩
def endObject : Lexeme := ⟨.endObject, [0x7D], rfl⟩
def nameSeparator : Lexeme := ⟨.nameSeparator, [0x3A], rfl⟩
def valueSeparator : Lexeme := ⟨.valueSeparator, [0x2C], rfl⟩

end Lexeme

/-- A token and the white space in front of it. -/
structure Placed where
  gap : List UInt8
  gap_ws : ∀ b ∈ gap, isWs b = true
  lexeme : Lexeme

theorem gap_nil : ∀ b ∈ ([] : List UInt8), isWs b = true :=
  List.forall_mem_nil _

def Placed.ofLexeme (lexeme : Lexeme) : Placed := ⟨[], gap_nil, lexeme⟩

def layoutText (pieces : List Placed) : List UInt8 :=
  pieces.flatMap fun p => p.gap ++ p.lexeme.text

def layoutKinds (pieces : List Placed) : List Kind :=
  pieces.map fun p => p.lexeme.kind

@[simp] theorem layoutText_nil : layoutText [] = [] := rfl

@[simp] theorem layoutText_cons (p : Placed) (pieces : List Placed) :
    layoutText (p :: pieces) = p.gap ++ (p.lexeme.text ++ layoutText pieces) := by
  simp [layoutText]

@[simp] theorem layoutKinds_nil : layoutKinds [] = [] := rfl

@[simp] theorem layoutKinds_cons (p : Placed) (pieces : List Placed) :
    layoutKinds (p :: pieces) = p.lexeme.kind :: layoutKinds pieces := rfl

@[simp] theorem length_layoutKinds (pieces : List Placed) :
    (layoutKinds pieces).length = pieces.length := by
  simp [layoutKinds]

/-- What a sequence of token kinds is derived as. -/
inductive Category where
  | value | elements | members
deriving DecidableEq, Repr

/-- The derivations of values, of the comma separated elements of an array, and
of the comma separated members of an object. -/
inductive Derives : Category → List Kind → Prop where
  | string : Derives .value [.string]
  | primitive : Derives .value [.primitive]
  | emptyArray : Derives .value [.beginArray, .endArray]
  | array {es : List Kind} (h : Derives .elements es) :
      Derives .value (.beginArray :: (es ++ [.endArray]))
  | emptyObject : Derives .value [.beginObject, .endObject]
  | object {ms : List Kind} (h : Derives .members ms) :
      Derives .value (.beginObject :: (ms ++ [.endObject]))
  | element {v : List Kind} (h : Derives .value v) : Derives .elements v
  | elements {es v : List Kind} (hes : Derives .elements es) (hv : Derives .value v) :
      Derives .elements (es ++ .valueSeparator :: v)
  | member {v : List Kind} (h : Derives .value v) :
      Derives .members (.string :: .nameSeparator :: v)
  | members {ms v : List Kind} (hms : Derives .members ms) (hv : Derives .value v) :
      Derives .members (ms ++ .valueSeparator :: .string :: .nameSeparator :: v)

theorem Derives.ne_nil {c : Category} {ks : List Kind} (h : Derives c ks) : ks ≠ [] := by
  induction h with
  | element _ ih => exact ih
  | elements | members => exact List.append_ne_nil_of_right_ne_nil _ (List.cons_ne_nil _ _)
  | _ => exact List.cons_ne_nil _ _

/-- The octets are the UTF-8 encoding of some characters. -/
def ValidUtf8 (bytes : List UInt8) : Prop :=
  ∃ cs : List Char, bytes = cs.flatMap String.utf8EncodeChar

/-- The octets read as the tokens of a layout, with white space at the end. -/
def ReadsAs (pieces : List Placed) (bytes : List UInt8) : Prop :=
  ∃ trailing, (∀ b ∈ trailing, isWs b = true) ∧ bytes = layoutText pieces ++ trailing

/-- `JSON-text = ws value ws`, encoded in UTF-8. -/
def JsonText (bytes : List UInt8) : Prop :=
  ValidUtf8 bytes ∧ ∃ pieces, ReadsAs pieces bytes ∧ Derives .value (layoutKinds pieces)

end Rfc8259
end DeconzRest

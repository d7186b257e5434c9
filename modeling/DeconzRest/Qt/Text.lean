import Mathlib.Data.List.Basic

/-!
# `QString`, `QLatin1String` and `QVariant`

A `QString` is its sequence of UTF-16 code units (`QChar`), surrogates
included, as the parser and the item code index it.  `QLatin1String` literals
of the source are ASCII, so `ofLatin1` reads a Lean string literal unit by
unit.

A `QVariant` is one of the alternatives the REST code builds: JSON values and
integers.  What Qt itself decides about numbers (the `double` of a text, the
`int` of a `double`, comparison across types) is not code of this repository
and stays a parameter, collected in `Qt`.
-/

namespace DeconzRest

abbrev QChar := UInt16

/-- A UTF-16 string, one entry for each code unit. -/
abbrev QString := List QChar

instance QString.instLawfulBEq : LawfulBEq QString := List.instLawfulBEq

namespace QString

/-- The code unit of an ASCII (or Latin-1) character. -/
def unit (c : Char) : QChar := UInt16.ofNat c.toNat

/-- A `QLatin1String` literal as a `QString`. -/
def ofLatin1 (s : String) : QString := s.toList.map unit

/-- `QChar::isSpace`: the separators and the ASCII control blanks. -/
def isSpace (c : QChar) : Bool :=
  let n := c.toNat
  (9 ≤ n && n ≤ 13) || n == 0x20 || n == 0x85 || n == 0xA0 || n == 0x1680 ||
    (0x2000 ≤ n && n ≤ 0x200A) || n == 0x2028 || n == 0x2029 || n == 0x202F ||
    n == 0x205F || n == 0x3000

/-- `QString::trimmed`: no white space at either end. -/
def trimmed (s : QString) : QString :=
  ((s.dropWhile isSpace).reverse.dropWhile isSpace).reverse

def digitValue (c : QChar) : Option Nat :=
  if 0x30 ≤ c.toNat ∧ c.toNat ≤ 0x39 then some (c.toNat - 0x30) else none

/-- The place marker at the front of a text, `%` with an optional `L` and one or
two digits: its number and its length. -/
def marker? (s : QString) : Option (Nat × Nat) :=
  match s with
  | [] => none
  | c :: s =>
    if c ≠ unit '%' then
      none
    else
      let skip := if s.head? = some (unit 'L') then 1 else 0
      match (s.drop skip).map digitValue with
      | some n :: some m :: _ => some (10 * n + m, skip + 3)
      | some n :: _ => some (n, skip + 2)
      | _ => none

def lowestMarker : QString → Option Nat
  | [] => none
  | c :: s =>
    match marker? (c :: s), lowestMarker s with
    | some (n, _), some m => some (min n m)
    | some (n, _), none => some n
    | none, m => m

/-- Replace the markers of number `n`; `skip` units of a marker are still to be
dropped. -/
def fillMarker (n : Nat) (a : QString) : Nat → QString → QString
  | _, [] => []
  | skip + 1, _ :: s => fillMarker n a skip s
  | 0, c :: s =>
    match marker? (c :: s) with
    | some (m, len) =>
      if m = n then a ++ fillMarker n a (len - 1) s else c :: fillMarker n a 0 s
    | none => c :: fillMarker n a 0 s

/-- `QString::arg`: every place marker of the lowest number is replaced. -/
def arg (s a : QString) : QString :=
  match lowestMarker s with
  | some n => fillMarker n a 0 s
  | none => s

/-- `QString::toHtmlEscaped` -/
def toHtmlEscaped (s : QString) : QString :=
  s.flatMap fun c =>
    if c = unit '<' then ofLatin1 "&lt;"
    else if c = unit '>' then ofLatin1 "&gt;"
    else if c = unit '&' then ofLatin1 "&amp;"
    else if c = unit '"' then ofLatin1 "&quot;"
    else [c]

/-- `QString::number` and `QString::arg` of an `int`. -/
def number (n : Int) : QString := ofLatin1 (toString n)

/-- `QString::endsWith`, case sensitive. -/
def endsWith (s suffix : QString) : Bool := suffix.isSuffixOf s

/-- `QString::startsWith`, case sensitive. -/
def startsWith (s front : QString) : Bool := front.isPrefixOf s

def parts (sep : QChar) : QString → QString × List QString
  | [] => ([], [])
  | c :: s =>
    if c = sep then
      ([], (parts sep s).1 :: (parts sep s).2)
    else
      (c :: (parts sep s).1, (parts sep s).2)

/-- `QString::split` with `SKIP_EMPTY_PARTS`. -/
def split (s : QString) (sep : Char) : List QString :=
  ((parts (unit sep) s).1 :: (parts (unit sep) s).2).filter fun part => part ≠ []

/-- Replace every occurrence of a text; `skip` units of one are still to be dropped. -/
def replaceFrom (before after : QString) : Nat → QString → QString
  | _, [] => []
  | skip + 1, _ :: s => replaceFrom before after skip s
  | 0, c :: s =>
    if before.isPrefixOf (c :: s) then
      after ++ replaceFrom before after (before.length - 1) s
    else
      c :: replaceFrom before after 0 s

/-- `QString::replace` of a text by another. -/
def replaceText (s before after : QString) : QString := replaceFrom before after 0 s

theorem endsWith_iff {s suffix : QString} :
    endsWith s suffix = true ↔ ∃ front, front ++ suffix = s := by
  simp [endsWith, List.IsSuffix]

end QString

/-- The alternatives of a `QVariant` that the REST code handles.  `D` stands for
the C++ `double`. -/
inductive QVariant (D : Type) where
  | invalid
  | bool (b : Bool)
  | int (n : Int)
  | double (d : D)
  | string (s : QString)
  | list (values : List (QVariant D))
  | map (entries : List (QString × QVariant D))

/-- What Qt decides about numbers and variants: `QString::toDouble`, the
conversions of `QVariant`, and `QVariant::operator==`. -/
structure Qt (D : Type) where
  /-- `QString::toDouble` -/
  toDouble : QString → D
  /-- `QString::toInt(nullptr, 16)` -/
  toIntBase16 : QString → Int
  /-- The `double` of an integer. -/
  ofInt : Int → D
  /-- `QVariant::toInt(&ok)`; `none` when `ok` is false. -/
  toInt : QVariant D → Option Int
  /-- `QVariant::toBool` -/
  toBool : QVariant D → Bool
  /-- `QVariant::toString` of anything that is no string. -/
  toText : QVariant D → QString
  /-- `QByteArray::number(double, 'f', QLocale::FloatingPointShortest)` -/
  number : D → List UInt8
  /-- `QVariant::operator==` -/
  eqv : QVariant D → QVariant D → Bool

namespace Qt

def digits? (s : QString) : Option Int :=
  if s ≠ [] ∧ s.all (fun c => 0x30 ≤ c && c ≤ 0x39) then
    some (s.foldl (fun n c => 10 * n + (c.toNat - 0x30 : Nat)) 0)
  else
    none

def hexDigit (c : QChar) : Nat :=
  let n := c.toNat
  if 0x30 ≤ n ∧ n ≤ 0x39 then n - 0x30
  else if 0x41 ≤ n ∧ n ≤ 0x46 then n - 0x37
  else if 0x61 ≤ n ∧ n ≤ 0x66 then n - 0x57
  else 16

def numeric? : QVariant Int → Option Int
  | .bool b => some (if b then 1 else 0)
  | .int n | .double n => some n
  | _ => none

/-- Enough of Qt to run the model: every `double` is a whole number and every
number text plain decimal digits. -/
def whole : Qt Int where
  toDouble := fun s => (digits? s).getD 0
  toIntBase16 := fun s =>
    if s.all fun c => hexDigit c < 16 then
      s.foldl (fun n c => 16 * n + (hexDigit c : Int)) 0
    else
      0
  ofInt := fun n => n
  toInt
    | .string s => digits? s
    | v => numeric? v
  toBool
    | .string s => decide (s ≠ [] ∧ s ≠ QString.unit '0' :: [] ∧ s ≠ QString.ofLatin1 "false")
    | v => decide ((numeric? v).getD 0 ≠ 0)
  toText
    | .bool b => QString.ofLatin1 (if b then "true" else "false")
    | v => (numeric? v).elim [] fun n => QString.ofLatin1 (toString n)
  number := fun n => (toString n).toUTF8.toList
  eqv
    | .string s, .string t => decide (s = t)
    | .invalid, .invalid => true
    | v, w => decide ((numeric? v).isSome ∧ numeric? v = numeric? w)

end Qt

namespace QVariant

variable {D : Type}

/-- `QVariant::isValid` -/
def isValid : QVariant D → Bool
  | .invalid => false
  | _ => true

/-- `QVariant::toString` -/
def toString (qt : Qt D) : QVariant D → QString
  | .string s => s
  | v => qt.toText v

/-- `QVariant::toMap`: the empty map for anything that is no map. -/
def toMap : QVariant D → List (QString × QVariant D)
  | .map entries => entries
  | _ => []

/-- `QVariant::toList`: the empty list for anything that is no list. -/
def toList : QVariant D → List (QVariant D)
  | .list values => values
  | _ => []

/-- `QVariantMap::value` for a key of the source; an invalid variant when it is not
there. -/
def value (map : List (QString × QVariant D)) (key : String) : QVariant D :=
  (map.lookup (QString.ofLatin1 key)).getD .invalid

/-- `QVariantMap::contains` -/
def contains (map : List (QString × QVariant D)) (key : String) : Bool :=
  (map.lookup (QString.ofLatin1 key)).isSome

end QVariant

end DeconzRest

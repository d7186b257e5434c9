import DeconzRest.Qt.Unicode

/-!
# `Json::serialize`

The serializer of the REST code, from a `QVariant` to the octets of a
`QByteArray`.  Every alternative of the model has a branch of its own in the
source that succeeds, so the `success` flag stays true and is left out.
-/

namespace DeconzRest
namespace Json

open QString

def ascii (s : String) : List UInt8 := s.toList.map fun c => c.toNat.toUInt8

/-- `QString::replace` of a single character by a text. -/
def replace (before : Char) (after : String) (str : QString) : QString :=
  str.flatMap fun c => if c = unit before then ofLatin1 after else [c]

/-- `sanitizeString`: the escapes one after the other, then the quotes around. -/
def sanitizeString (str : QString) : QString :=
  let str := replace '\\' "\\\\" str
  let str := replace '"' "\\\"" str
  let str := replace (Char.ofNat 0x08) "\\b" str
  let str := replace (Char.ofNat 0x0C) "\\f" str
  let str := replace '\n' "\\n" str
  let str := replace '\r' "\\r" str
  let str := replace '\t' "\\t" str
  unit '"' :: str ++ [QString.unit '"']

/-- `join`: the separator stands before an element where the result is not empty. -/
def join (list : List (List UInt8)) (sep : List UInt8) : List UInt8 :=
  list.foldl (fun res i => (if res = [] then res else res ++ sep) ++ i) []

variable {D : Type}

mutual

/-- `Json::serialize` -/
def serialize (qt : Qt D) : QVariant D → List UInt8
  | .invalid => ascii "null"
  | .list values => ascii "[" ++ join (serializeList qt values) (ascii ",") ++ ascii "]"
  | .map entries => ascii "\x7b" ++ join (serializeEntries qt entries) (ascii ",") ++ ascii "\x7d"
  | .string s => toUtf8 (sanitizeString s)
  | .double d => qt.number d
  | .bool b => ascii (if b then "true" else "false")
  | .int n => ascii (toString n)

def serializeList (qt : Qt D) : List (QVariant D) → List (List UInt8)
  | [] => []
  | v :: values => serialize qt v :: serializeList qt values

def serializeEntries (qt : Qt D) : List (QString × QVariant D) → List (List UInt8)
  | [] => []
  | (key, v) :: entries =>
    (toUtf8 (sanitizeString key) ++ ascii ":" ++ serialize qt v) ::
      serializeEntries qt entries

end

end Json
end DeconzRest

import DeconzRest.Qt.Text

/-!
# `Json::parse`

The recursive parser of the REST code.  The source passes the whole text and an
index by reference; here every function takes the text from the index on and
returns what is left of it.

The mutual recursion of `parseValue`, `parseObject` and `parseArray` runs on a
fuel.  Every turn of a loop and every nested value takes at least one code unit,
so `parse` gives enough of it, whatever the text.
-/

namespace DeconzRest
namespace Json

open QString

/-- `JsonToken` -/
inductive Token where
  | none | curlyOpen | curlyClose | squaredOpen | squaredClose | colon | comma
  | string | number | true | false | null
deriving DecidableEq, Repr

/-- `Json::eatWhitespace` -/
def eatWhitespace (json : QString) : QString :=
  json.dropWhile fun c => decide (c ∈ ofLatin1 " \t\n\r")

/-- The `switch` of `Json::nextToken` over a single character. -/
def charToken (c : QChar) : Option Token :=
  if c = unit '{' then some .curlyOpen
  else if c = unit '}' then some .curlyClose
  else if c = unit '[' then some .squaredOpen
  else if c = unit ']' then some .squaredClose
  else if c = unit ',' then some .comma
  else if c = unit '"' then some .string
  else if c ∈ QString.ofLatin1 "0123456789-" then some .number
  else if c = QString.unit ':' then some .colon
  else Option.none

/-- `Json::nextToken`: the token and the text behind it. -/
def nextToken (json : QString) : Token × QString :=
  match eatWhitespace json with
  | [] => (.none, [])
  | c :: rest =>
    match charToken c with
    | some token => (token, rest)
    | Option.none =>
      if (QString.ofLatin1 "true").isPrefixOf (c :: rest) then (.true, rest.drop 3)
      else if (QString.ofLatin1 "false").isPrefixOf (c :: rest) then (.false, rest.drop 4)
      else if (QString.ofLatin1 "null").isPrefixOf (c :: rest) then (.null, rest.drop 3)
      else (.none, c :: rest)

/-- `Json::lookAhead` -/
def lookAhead (json : QString) : Token := (nextToken json).1

variable {D : Type}

/-- A value, the text that is left, and the `success` flag. -/
structure Parsed (D : Type) where
  value : QVariant D
  rest : QString
  success : Bool

/-- What an escape other than `\u` appends. -/
def unescape (c : QChar) : QString :=
  if c = QString.unit '"' then [unit '"']
  else if c = QString.unit '\\' then [QString.unit '\\']
  else if c = QString.unit '/' then [QString.unit '/']
  else if c = QString.unit 'b' then [0x08]
  else if c = QString.unit 'f' then [0x0C]
  else if c = QString.unit 'n' then [0x0A]
  else if c = QString.unit 'r' then [0x0D]
  else if c = QString.unit 't' then [0x09]
  else []

/-- `QChar(int)` -/
def charOfInt (symbol : Int) : QChar := UInt16.ofNat (symbol % 65536).toNat

/-- The loop of `Json::parseString`: the text read so far, what is left, and whether
the closing quote was found. -/
def stringLoop (qt : Qt D) (s : QString) : QString → QString × QString × Bool
  | [] => (s, [], false)
  | c :: rest =>
    if c = QString.unit '"' then
      (s, rest, true)
    else if c = unit '\\' then
      match rest with
      | [] => (s, [], false)
      | e :: rest =>
        if e = unit 'u' then
          match rest with
          | a :: b :: c :: d :: rest =>
            stringLoop qt (s ++ [charOfInt (qt.toIntBase16 [a, b, c, d])]) rest
          | rest => (s, rest, false)
        else
          stringLoop qt (s ++ unescape e) rest
    else
      stringLoop qt (s ++ [c]) rest

/-- `Json::parseString`; the first character, the opening quote, is skipped unseen. -/
def parseString (qt : Qt D) (json : QString) : Parsed D :=
  let (s, rest, complete) := stringLoop qt [] ((eatWhitespace json).drop 1)
  if complete then ⟨.string s, rest, true⟩ else ⟨.invalid, rest, false⟩

def isNumberChar (c : QChar) : Bool := decide (c ∈ ofLatin1 "0123456789+-.eE")

/-- `Json::parseNumber` -/
def parseNumber (qt : Qt D) (json : QString) : Parsed D :=
  let json := eatWhitespace json
  ⟨.double (qt.toDouble (json.takeWhile isNumberChar)), json.dropWhile isNumberChar, true⟩

/-- `map[key] = value`: the entries stay sorted by their keys. -/
def insert (key : QString) (value : QVariant D) :
    List (QString × QVariant D) → List (QString × QVariant D)
  | [] => [(key, value)]
  | (k, v) :: entries =>
    if key < k then (key, value) :: (k, v) :: entries
    else if key = k then (key, value) :: entries
    else (k, v) :: insert key value entries

mutual

/-- `Json::parseValue` -/
def parseValue (qt : Qt D) : Nat → QString → Parsed D
  | 0, json => ⟨.invalid, json, false⟩
  | fuel + 1, json =>
    match lookAhead json with
    | .string => parseString qt json
    | .number => parseNumber qt json
    | .curlyOpen => parseObject qt fuel (nextToken json).2 []
    | .squaredOpen => parseArray qt fuel (nextToken json).2 []
    | .true => ⟨.bool true, (nextToken json).2, true⟩
    | .false => ⟨.bool false, (nextToken json).2, true⟩
    | .null => ⟨.invalid, (nextToken json).2, true⟩
    | _ => ⟨.invalid, json, false⟩

/-- The loop of `Json::parseObject`, with the entries so far. -/
def parseObject (qt : Qt D) : Nat → QString → List (QString × QVariant D) → Parsed D
  | 0, json, _ => ⟨.map [], json, false⟩
  | fuel + 1, json, map =>
    match lookAhead json with
    | .none => ⟨.map [], json, false⟩
    | .comma => parseObject qt fuel (nextToken json).2 map
    | .curlyClose => ⟨.map map, (nextToken json).2, true⟩
    | _ =>
      let name := parseString qt json
      if name.success = false then
        ⟨.map [], name.rest, false⟩
      else
        let colon := nextToken name.rest
        if colon.1 ≠ .colon then
          ⟨.map [], colon.2, false⟩
        else
          let value := parseValue qt fuel colon.2
          if value.success = false then
            ⟨.map [], value.rest, false⟩
          else
            parseObject qt fuel value.rest (insert (name.value.toString qt) value.value map)

/-- The loop of `Json::parseArray`, with the values so far. -/
def parseArray (qt : Qt D) : Nat → QString → List (QVariant D) → Parsed D
  | 0, json, _ => ⟨.list [], json, false⟩
  | fuel + 1, json, list =>
    match lookAhead json with
    | .none => ⟨.list [], json, false⟩
    | .comma => parseArray qt fuel (nextToken json).2 list
    | .squaredClose => ⟨.list list, (nextToken json).2, true⟩
    | _ =>
      let value := parseValue qt fuel json
      if value.success = false then
        ⟨.list [], value.rest, false⟩
      else
        parseArray qt fuel value.rest (list ++ [value.value])

end

/-- `Json::parse` of a text that is not null: the value and the `success` flag. -/
def parse (qt : Qt D) (json : QString) : QVariant D × Bool :=
  let r := parseValue qt (2 * json.length + 2) json
  (r.value, r.success)

/-! ## The fuel is enough -/

theorem eatWhitespace_length (json : QString) : (eatWhitespace json).length ≤ json.length :=
  (List.dropWhile_suffix _).length_le

theorem nextToken_length (json : QString) :
    (nextToken json).2.length ≤ json.length ∧
      ((nextToken json).1 ≠ .none → (nextToken json).2.length < json.length) := by
  have heat := eatWhitespace_length json
  unfold nextToken
  cases hjson : eatWhitespace json with
  | nil => exact ⟨Nat.zero_le _, fun h => absurd rfl h⟩
  | cons c rest =>
    rw [hjson, List.length_cons] at heat
    have hdrop : ∀ n, (rest.drop n).length < json.length := by
      intro n
      rw [List.length_drop]
      omega
    simp only
    cases charToken c with
    | some token => exact ⟨by simp only; omega, fun _ => by simp only; omega⟩
    | none =>
      simp only
      split
      · exact ⟨Nat.le_of_lt (hdrop 3), fun _ => hdrop 3⟩
      · split
        · exact ⟨Nat.le_of_lt (hdrop 4), fun _ => hdrop 4⟩
        · split
          · exact ⟨Nat.le_of_lt (hdrop 3), fun _ => hdrop 3⟩
          · exact ⟨by simpa using heat, fun h => absurd rfl h⟩

variable (qt : Qt D)

theorem stringLoop_length (s json : QString) : (stringLoop qt s json).2.1.length ≤ json.length := by
  fun_induction stringLoop qt s json <;> simp_all <;> omega

variable {json : QString}

theorem eatWhitespace_ne_nil (h : lookAhead json ≠ .none) : eatWhitespace json ≠ [] := by
  intro hnil
  refine h ?_
  unfold lookAhead nextToken
  rw [hnil]

theorem parseString_length (h : lookAhead json ≠ .none) :
    (parseString qt json).rest.length < json.length := by
  have heat := eatWhitespace_length json
  have hloop := stringLoop_length qt [] ((eatWhitespace json).drop 1)
  have hpos := List.length_pos_iff.mpr (eatWhitespace_ne_nil h)
  rw [List.length_drop] at hloop
  unfold parseString
  split
  split <;> (simp only; simp_all; omega)

theorem charToken_number {c : QChar} (h : charToken c = some .number) : isNumberChar c = true := by
  have hall : (ofLatin1 "0123456789-").all isNumberChar = true := by decide
  unfold charToken at h
  split_ifs at h <;>
    first
    | exact List.all_eq_true.mp hall c (by assumption)
    | exact absurd (Option.some.inj h) (by decide)

theorem parseNumber_length (h : lookAhead json = .number) :
    (parseNumber qt json).rest.length < json.length := by
  have heat := eatWhitespace_length json
  unfold parseNumber
  cases hjson : eatWhitespace json with
  | nil =>
    refine absurd hjson (eatWhitespace_ne_nil ?_)
    rw [h]
    decide
  | cons c rest =>
    rw [hjson, List.length_cons] at heat
    have hnumber : isNumberChar c = true := by
      unfold lookAhead nextToken at h
      simp only [hjson] at h
      cases htoken : charToken c with
      | some token =>
        simp only [htoken] at h
        rw [h] at htoken
        exact charToken_number htoken
      | none =>
        simp only [htoken] at h
        split_ifs at h
    have hrest := (List.dropWhile_suffix isNumberChar (l := rest)).length_le
    simp only
    rw [List.dropWhile_cons_of_pos hnumber]
    omega

theorem parse_length (fuel : Nat) :
    (∀ json, (parseValue qt fuel json).rest.length ≤ json.length ∧
        ((parseValue qt fuel json).success = true → (parseValue qt fuel json).rest.length <
          json.length)) ∧
      (∀ json map, (parseObject qt fuel json map).rest.length ≤ json.length) ∧
      (∀ json list, (parseArray qt fuel json list).rest.length ≤ json.length) := by
  induction fuel with
  | zero =>
    refine ⟨fun json => ?_, fun json map => ?_, fun json list => ?_⟩
    · simp [parseValue]
    · simp [parseObject]
    · simp [parseArray]
  | succ fuel ih =>
    obtain ⟨ihValue, ihObject, ihArray⟩ := ih
    refine ⟨fun json => ?_, fun json map => ?_, fun json list => ?_⟩
    · have hnext : lookAhead json ≠ .none → (nextToken json).2.length < json.length :=
        (nextToken_length json).2
      have hobject := ihObject (nextToken json).2 []
      have harray := ihArray (nextToken json).2 []
      rw [parseValue]
      cases htoken : lookAhead json with
      | string =>
        have h := parseString_length qt (show lookAhead json ≠ .none by rw [htoken]; decide)
        exact ⟨Nat.le_of_lt h, fun _ => h⟩
      | number =>
        have h := parseNumber_length qt htoken
        exact ⟨Nat.le_of_lt h, fun _ => h⟩
      | curlyOpen =>
        have h := Nat.lt_of_le_of_lt hobject (hnext (by rw [htoken]; decide))
        exact ⟨Nat.le_of_lt h, fun _ => h⟩
      | squaredOpen =>
        have h := Nat.lt_of_le_of_lt harray (hnext (by rw [htoken]; decide))
        exact ⟨Nat.le_of_lt h, fun _ => h⟩
      | true | false | null =>
        have h := hnext (by rw [htoken]; decide)
        exact ⟨Nat.le_of_lt h, fun _ => h⟩
      | none | curlyClose | squaredClose | colon | comma =>
        exact ⟨Nat.le_refl _, fun h => Bool.noConfusion h⟩
    · have hnext := (nextToken_length json).1
      have hcomma := ihObject (nextToken json).2 map
      rw [parseObject]
      cases htoken : lookAhead json with
      | none => exact Nat.le_refl _
      | comma => exact Nat.le_trans hcomma hnext
      | curlyClose => exact hnext
      | curlyOpen | squaredOpen | squaredClose | colon | string | number | true | false
      | null =>
        have hname := parseString_length qt (show lookAhead json ≠ .none by rw [htoken]; decide)
        have hcolon := (nextToken_length (parseString qt json).rest).1
        have hvalue := (ihValue (nextToken (parseString qt json).rest).2).1
        have hrest := fun map =>
          ihObject (parseValue qt fuel (nextToken (parseString qt json).rest).2).rest map
        simp only
        split
        · exact Nat.le_of_lt hname
        · split
          · exact Nat.le_trans hcolon (Nat.le_of_lt hname)
          · split
            · simp only
              omega
            · exact Nat.le_trans (hrest _) (by omega)
    · have hnext := (nextToken_length json).1
      have hcomma := ihArray (nextToken json).2 list
      have hvalue := (ihValue json).1
      have hrest := fun list => ihArray (parseValue qt fuel json).rest list
      rw [parseArray]
      cases htoken : lookAhead json with
      | none => exact Nat.le_refl _
      | comma => exact Nat.le_trans hcomma hnext
      | squaredClose => exact hnext
      | curlyOpen | curlyClose | squaredOpen | colon | string | number | true | false
      | null =>
        simp only
        split
        · exact hvalue
        · exact Nat.le_trans (hrest _) hvalue

theorem parse_fuel_succ (fuel : Nat) :
    (∀ json, 2 * json.length ≤ fuel → 0 < fuel → parseValue qt (fuel + 1) json =
        parseValue qt fuel json) ∧
      (∀ json map, 2 * json.length < fuel → parseObject qt (fuel + 1) json map =
        parseObject qt fuel json map) ∧
      (∀ json list, 2 * json.length < fuel → parseArray qt (fuel + 1) json list =
        parseArray qt fuel json list) := by
  induction fuel with
  | zero =>
    refine ⟨fun json _ h => ?_, fun json map h => ?_, fun json list h => ?_⟩
    · omega
    · omega
    · omega
  | succ fuel ih =>
    obtain ⟨ihValue, ihObject, ihArray⟩ := ih
    have hnext : ∀ json, lookAhead json ≠ .none → (nextToken json).2.length <
        json.length := fun json => (nextToken_length json).2
    refine ⟨fun json hfuel _ => ?_, fun json map hfuel => ?_, fun json list hfuel => ?_⟩
    · conv_lhs => rw [parseValue]
      conv_rhs => rw [parseValue]
      cases htoken : lookAhead json with
      | curlyOpen =>
        have hlt := hnext json (by rw [htoken]; decide)
        exact ihObject _ _ (by omega)
      | squaredOpen =>
        have hlt := hnext json (by rw [htoken]; decide)
        exact ihArray _ _ (by omega)
      | none | curlyClose | squaredClose | colon | comma | string | number | true | false
      | null => rfl
    · conv_lhs => rw [parseObject]
      conv_rhs => rw [parseObject]
      cases htoken : lookAhead json with
      | none => rfl
      | curlyClose => rfl
      | comma =>
        have hlt := hnext json (by rw [htoken]; decide)
        exact ihObject _ _ (by omega)
      | curlyOpen | squaredOpen | squaredClose | colon | string | number | true | false
      | null =>
        have hname := parseString_length qt (show lookAhead json ≠ .none by rw [htoken]; decide)
        have hcolon := (nextToken_length (parseString qt json).rest).1
        have hvalue := ihValue (nextToken (parseString qt json).rest).2 (by omega) (by omega)
        have hrest := (parse_length qt fuel).1 (nextToken (parseString qt json).rest).2
        simp only
        rw [hvalue]
        split
        · rfl
        · split
          · rfl
          · split
            · rfl
            · exact ihObject _ _ (by omega)
    · conv_lhs => rw [parseArray]
      conv_rhs => rw [parseArray]
      cases htoken : lookAhead json with
      | none => rfl
      | squaredClose => rfl
      | comma =>
        have hlt := hnext json (by rw [htoken]; decide)
        exact ihArray _ _ (by omega)
      | curlyOpen | curlyClose | squaredOpen | colon | string | number | true | false
      | null =>
        have hlt := hnext json (by rw [htoken]; decide)
        have hvalue := ihValue json (by omega) (by omega)
        have hrest := (parse_length qt fuel).1 json
        simp only
        rw [hvalue]
        split
        · rfl
        · rename_i hsuccess
          have hshorter := hrest.2 (by simpa using hsuccess)
          exact ihArray _ _ (by omega)

end Json
end DeconzRest

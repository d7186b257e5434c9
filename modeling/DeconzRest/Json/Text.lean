import DeconzRest.Json.Strings
import DeconzRest.Json.Value
import DeconzRest.Qt.Number

/-!
# The text of a variant, and what the parser reads in it

`text f` is the serialization of a variant as a text of code units, where every string
and key has gone through `f`; `reread f` is the variant that a reader of that text gets:
texts have gone through `f`, integers are doubles, and of two keys that `f` makes equal
the second one wins.  The parser reads `reread f` in `text f`, in front of anything that
continues no number (`parseValue_text`).

What Qt writes for a number and reads in it is `Numbers`: the shortest text of a finite
number is read as that number.  The texts of the others are no JSON, and a list or map
with one of them is refused (`parseValue_refused`).
-/

namespace DeconzRest
namespace Json

open QString List

variable {D : Type}

/-! ## Numbers -/

/-- A number as `QByteArray::number` writes it: a digit or a sign, then digits and a
point. -/
def IsNumberText (t : String) : Prop :=
  ∃ c cs, t.toList = c :: cs ∧ c ∈ "0123456789-".toList ∧ ∀ x ∈ cs, x ∈ "0123456789.".toList

/-- The text of the number is read as the number. -/
def ReadBack (qt : Qt D) (d : D) : Prop :=
  ∃ t : String, qt.number d = ascii t ∧ IsNumberText t ∧ qt.toDouble (ofLatin1 t) = d

def Unreadable (qt : Qt D) (d : D) : Prop :=
  qt.number d = ascii "inf" ∨ qt.number d = ascii "-inf" ∨ qt.number d = ascii "nan"

/-- `QByteArray::number` and `QString::toDouble` as they are documented: of a finite number
the shortest text that is read back as that number, and no number for the others. -/
structure Numbers (qt : Qt D) (finite : D → Prop) : Prop where
  number_finite : ∀ d, finite d → ReadBack qt d
  number_other : ∀ d, ¬ finite d → Unreadable qt d

def numberText (qt : Qt D) (d : D) : QString := (qt.number d).map UInt8.toUInt16

theorem isNumberChar_of_mem {s : String} (hs : (s.toList.all fun c =>
    isNumberChar (unit c)) = true) {c : Char} (hc : c ∈ s.toList) :
    isNumberChar (unit c) = true := all_eq_true.mp hs c hc

variable {t : String}

theorem IsNumberText.units (h : IsNumberText t) :
    ∃ u us, ofLatin1 t = u :: us ∧ charToken u = some .number ∧ eatWhitespace [u] = [u] ∧
      (u :: us).all isNumberChar = true := by
  obtain ⟨c, cs, htext, hc, hcs⟩ := h
  have hfirst : ("0123456789-".toList.all fun c => decide (charToken (unit c) =
      some .number) && decide (eatWhitespace [unit c] = [unit c])) = true := by
    decide
  have hboth := all_eq_true.mp hfirst c hc
  rw [Bool.and_eq_true, decide_eq_true_eq, decide_eq_true_eq] at hboth
  refine ⟨unit c, cs.map unit, ?_, hboth.1, hboth.2, ?_⟩
  · unfold ofLatin1
    rw [htext, map_cons]
  · rw [all_cons, all_map, Bool.and_eq_true]
    refine ⟨isNumberChar_of_mem (by decide) hc, ?_⟩
    rw [all_eq_true]
    exact fun x hx => isNumberChar_of_mem (by decide) (hcs x hx)

theorem IsNumberText.all_ascii (h : IsNumberText t) :
    (t.toList.all fun c => c.toNat < 0x80) = true := by
  obtain ⟨c, cs, htext, hc, hcs⟩ := h
  have hall : ∀ s : String, (s.toList.all fun c => c.toNat < 0x80) = true → ∀ x ∈ s.toList,
      x.toNat < 0x80 := fun s hs x hx => of_decide_eq_true (all_eq_true.mp hs x hx)
  rw [htext, all_cons, Bool.and_eq_true, decide_eq_true_eq, all_eq_true]
  refine ⟨hall _ (by decide) c hc, ?_⟩
  intro x hx
  exact decide_eq_true (hall _ (by decide) x (hcs x hx))

theorem map_ascii (h : (t.toList.all fun c => c.toNat < 0x80) = true) :
    (ascii t).map UInt8.toUInt16 = ofLatin1 t := by
  unfold ascii ofLatin1
  rw [map_map]
  apply map_congr_left
  intro c hc
  have hlt : c.toNat < 0x80 := of_decide_eq_true (all_eq_true.mp h c hc)
  apply UInt16.toNat_inj.mp
  show (c.toNat.toUInt8.toUInt16).toNat = (UInt16.ofNat c.toNat).toNat
  rw [UInt8.toNat_toUInt16, UInt16.toNat_ofNat_of_lt' (by show _ < 65536; omega)]
  exact Nat.mod_eq_of_lt (by omega)

theorem mem_digits {x : Char} (h : x.isDigit = true) : x ∈ "0123456789".toList := by
  have hall : ∀ k < 10, Char.ofNat (48 + k) ∈ "0123456789".toList := by decide
  rw [Char.isDigit, Bool.and_eq_true, decide_eq_true_eq, decide_eq_true_eq] at h
  have hlow : 48 ≤ x.toNat := UInt32.le_iff_toNat_le.mp h.1
  have hhigh : x.toNat ≤ 57 := UInt32.le_iff_toNat_le.mp h.2
  have hmem := hall (x.toNat - 48) (by omega)
  rwa [Nat.add_sub_cancel' hlow, Char.ofNat_toNat] at hmem

theorem isNumberText_int (n : Int) : IsNumberText (toString n) := by
  have hdigit : ∀ (m : Nat) (s : String), "0123456789".toList ⊆ s.toList → ∀ x ∈ m.repr.toList, x ∈
      s.toList := by
    intro m s hs x hx
    rw [Nat.toList_repr] at hx
    exact hs (mem_digits (Nat.isDigit_of_mem_toDigits (by decide) (by decide) hx))
  cases n with
  | ofNat m =>
    cases hrepr : m.repr.toList with
    | nil =>
      rw [Nat.toList_repr] at hrepr
      exact absurd hrepr Nat.toDigits_ne_nil
    | cons c cs =>
      have hmem := hdigit m
      rw [hrepr] at hmem
      refine ⟨c, cs, hrepr, hmem _ (by decide) c mem_cons_self, ?_⟩
      exact fun x hx => hmem _ (by decide) x (mem_cons_of_mem c hx)
  | negSucc m =>
    refine ⟨'-', (m + 1).repr.toList, ?_, by decide, hdigit (m + 1) _ (by decide)⟩
    show ("-" ++ (m + 1).repr).toList = _
    rw [String.toList_append]
    rfl

/-- `Qt.whole` with signs: the `double` of a text is the whole number that it writes. -/
def wholeQt : Qt Int where
  toDouble := fun s =>
    match s with
    | [] => 0
    | c :: rest =>
      if c = unit '-' then -(Qt.digits? rest).getD 0 else (Qt.digits? (c :: rest)).getD 0
  toIntBase16 := Qt.whole.toIntBase16
  ofInt := Qt.whole.ofInt
  toInt := Qt.whole.toInt
  toBool := Qt.whole.toBool
  toText := Qt.whole.toText
  number := fun n => ascii (toString n)
  eqv := Qt.whole.eqv

theorem toDouble_wholeQt (n : Int) : wholeQt.toDouble (ofLatin1 (toString n)) = n := by
  cases n with
  | ofNat m =>
    have hdigits := Qt.digits?_repr m
    show wholeQt.toDouble (ofLatin1 m.repr) = _
    cases hunits : ofLatin1 m.repr with
    | nil =>
      rw [hunits] at hdigits
      cases hdigits
    | cons u us =>
      rw [hunits] at hdigits
      show (if u = unit '-' then -(Qt.digits? us).getD 0
        else (Qt.digits? (u :: us)).getD 0) = _
      by_cases hu : u = unit '-'
      · subst hu
        have hnone : Qt.digits? (unit '-' :: us) = none := by
          unfold Qt.digits?
          rw [if_neg]
          rintro ⟨-, hall⟩
          rw [all_cons, Bool.and_eq_true] at hall
          exact absurd hall.1 (by decide)
        rw [hnone] at hdigits
        cases hdigits
      · rw [if_neg hu, hdigits]
        rfl
  | negSucc m =>
    have hdigits := Qt.digits?_repr (m + 1)
    show wholeQt.toDouble (ofLatin1 ("-" ++ (m + 1).repr)) = _
    unfold ofLatin1 at hdigits ⊢
    rw [String.toList_append, map_append]
    show -(Qt.digits? ((m + 1).repr.toList.map unit)).getD 0 = _
    rw [hdigits]
    rfl

theorem numbers_wholeQt : Numbers wholeQt fun _ => True where
  number_finite := fun n _ => ⟨toString n, rfl, isNumberText_int n, toDouble_wholeQt n⟩
  number_other := fun _ h => absurd trivial h

mutual

/-- The serialization as a text, with every string and key behind `f`. -/
def text (f : QString → QString) (qt : Qt D) : QVariant D → QString
  | .invalid => ofLatin1 "null"
  | .bool b => ofLatin1 (if b then "true" else "false")
  | .int n => number n
  | .double d => numberText qt d
  | .string s => sanitizeString (f s)
  | .list [] => ofLatin1 "[]"
  | .list (v :: values) =>
    unit '[' :: (text f qt v ++ (textTail f qt values ++ [unit ']']))
  | .map [] => ofLatin1 "\x7b\x7d"
  | .map ((key, v) :: entries) =>
    unit '{' :: (sanitizeString (f key) ++ (unit ':' :: (text f qt v ++
      (textEntriesTail f qt entries ++ [unit '}']))))

/-- The values of a list that follow another value. -/
def textTail (f : QString → QString) (qt : Qt D) : List (QVariant D) → QString
  | [] => []
  | v :: values => unit ',' :: (text f qt v ++ textTail f qt values)

/-- The entries of a map that follow another entry. -/
def textEntriesTail (f : QString → QString) (qt : Qt D) : List (QString × QVariant D) → QString
  | [] => []
  | (key, v) :: entries =>
    unit ',' :: (sanitizeString (f key) ++ (unit ':' :: (text f qt v ++
      textEntriesTail f qt entries)))

end

mutual

def reread (f : QString → QString) (qt : Qt D) : QVariant D → QVariant D
  | .invalid => .invalid
  | .bool b => .bool b
  | .int n => .double (qt.toDouble (number n))
  | .double d => .double d
  | .string s => .string (f s)
  | .list values => .list (rereadList f qt values)
  | .map entries => .map (rereadEntries f qt entries [])

def rereadList (f : QString → QString) (qt : Qt D) : List (QVariant D) → List (QVariant D)
  | [] => []
  | v :: values => reread f qt v :: rereadList f qt values

/-- The entries go into a map one after the other. -/
def rereadEntries (f : QString → QString) (qt : Qt D) :
    List (QString × QVariant D) → List (QString × QVariant D) → List (QString × QVariant D)
  | [], map => map
  | (key, v) :: entries, map => rereadEntries f qt entries (insert (f key) (reread f qt v) map)

end

def EndsNumber (rest : QString) : Prop := rest.takeWhile isNumberChar = []

/-- The token is neither a comma nor the end of a list. -/
def OpensValue (token : Token) : Prop := token ≠ .comma ∧ token ≠ .squaredClose

section Step

variable (qt : Qt D) (fuel : Nat)

theorem parseValue_string (s rest : QString) :
    parseValue qt (fuel + 1) (sanitizeString s ++ rest) = ⟨.string s, rest, true⟩ := by
  rw [parseValue, lookAhead_sanitizeString]
  exact parseString_sanitizeString qt s rest

variable (rest : QString)

theorem parseValue_squaredOpen :
    parseValue qt (fuel + 1) (unit '[' :: rest) = parseArray qt fuel rest [] := by
  rw [parseValue]
  rfl

theorem parseValue_curlyOpen :
    parseValue qt (fuel + 1) (unit '{' :: rest) = parseObject qt fuel rest [] := by
  rw [parseValue]
  rfl

theorem parseArray_comma (list : List (QVariant D)) :
    parseArray qt (fuel + 1) (unit ',' :: rest) list = parseArray qt fuel rest list := by
  rw [parseArray]
  rfl

theorem parseArray_close (list : List (QVariant D)) :
    parseArray qt (fuel + 1) (unit ']' :: rest) list = ⟨.list list, rest, true⟩ := by
  rw [parseArray]
  rfl

variable {fuel}

theorem parseArray_value {json rest : QString} {v : QVariant D}
    (hopens : OpensValue (lookAhead json)) (hv : parseValue qt fuel json = ⟨v, rest, true⟩)
    (list : List (QVariant D)) :
    parseArray qt (fuel + 1) json list = parseArray qt fuel rest (list ++ [v]) := by
  rw [parseArray]
  cases htoken : lookAhead json with
  | comma => exact absurd htoken hopens.1
  | squaredClose => exact absurd htoken hopens.2
  | none =>
    -- no value starts here
    cases fuel with
    | zero =>
      rw [parseValue] at hv
      cases hv
    | succ fuel =>
      rw [parseValue, htoken] at hv
      cases hv
  | string | curlyOpen | curlyClose | squaredOpen | colon | number | true | false | null =>
    simp only
    rw [hv]
    rfl

variable (fuel)

theorem parseObject_comma (map : List (QString × QVariant D)) :
    parseObject qt (fuel + 1) (unit ',' :: rest) map = parseObject qt fuel rest map := by
  rw [parseObject]
  rfl

theorem parseObject_close (map : List (QString × QVariant D)) :
    parseObject qt (fuel + 1) (unit '}' :: rest) map = ⟨.map map, rest, true⟩ := by
  rw [parseObject]
  rfl

variable {fuel}

theorem parseObject_entry (key : QString) {json rest : QString} {v : QVariant D}
    (hv : parseValue qt fuel json = ⟨v, rest, true⟩) (map : List (QString × QVariant D)) :
    parseObject qt (fuel + 1) (sanitizeString key ++ unit ':' :: json) map =
      parseObject qt fuel rest (insert key v map) := by
  have hcolon : nextToken (unit ':' :: json) = (.colon, json) := rfl
  rw [parseObject, lookAhead_sanitizeString]
  simp only
  rw [parseString_sanitizeString, hcolon]
  simp only [hv]
  rfl

end Step

theorem eatWhitespace_cons {u : QChar} (h : eatWhitespace [u] = [u]) (rest : QString) :
    eatWhitespace (u :: rest) = u :: rest := by
  unfold eatWhitespace at h ⊢
  rw [dropWhile_cons] at h ⊢
  split at h
  · cases h
  · rename_i hu
    rw [if_neg hu]

theorem EndsNumber.dropWhile {rest : QString} (h : EndsNumber rest) :
    rest.dropWhile isNumberChar = rest := by
  have hboth := takeWhile_append_dropWhile (p := isNumberChar) (l := rest)
  rw [h] at hboth
  exact hboth

theorem lookAhead_number (h : IsNumberText t) (rest : QString) :
    lookAhead (ofLatin1 t ++ rest) = .number := by
  obtain ⟨u, us, htext, htoken, heat, -⟩ := h.units
  unfold lookAhead nextToken
  rw [htext, cons_append, eatWhitespace_cons heat]
  simp only [htoken]

theorem parseValue_number (qt : Qt D) (fuel : Nat) (h : IsNumberText t) {rest : QString}
    (hrest : EndsNumber rest) :
    parseValue qt (fuel + 1) (ofLatin1 t ++ rest) =
      ⟨.double (qt.toDouble (ofLatin1 t)), rest, true⟩ := by
  obtain ⟨u, us, htext, -, heat, hall⟩ := h.units
  have hchars : ∀ x ∈ u :: us, isNumberChar x = true := all_eq_true.mp hall
  rw [parseValue, lookAhead_number h]
  simp only
  rw [parseNumber, htext, cons_append, eatWhitespace_cons heat, ← cons_append,
    takeWhile_append_of_pos hchars, dropWhile_append_of_pos hchars, hrest.dropWhile]
  unfold EndsNumber at hrest
  rw [hrest, append_nil]

variable {qt : Qt D} {d : D}

theorem ReadBack.text_eq (hd : ReadBack qt d) :
    ∃ t : String, numberText qt d = ofLatin1 t ∧ IsNumberText t ∧ qt.toDouble (ofLatin1 t) = d := by
  obtain ⟨t, hnumber, ht, hback⟩ := hd
  refine ⟨t, ?_, ht, hback⟩
  rw [numberText, hnumber, map_ascii ht.all_ascii]

theorem Unreadable.text_eq (hd : Unreadable qt d) :
    numberText qt d = ofLatin1 "inf" ∨ numberText qt d = ofLatin1 "-inf" ∨ numberText qt d =
      ofLatin1 "nan" := by
  unfold numberText
  rcases hd with h | h | h
  · rw [h]
    exact .inl (by decide)
  · rw [h]
    exact .inr (.inl (by decide))
  · rw [h]
    exact .inr (.inr (by decide))

theorem Numbers.readBack_iff {finite : D → Prop} (hqt : Numbers qt finite) :
    ReadBack qt d ↔ finite d := by
  constructor
  · intro hd
    by_contra hnot
    obtain ⟨t, htext, ht, -⟩ := hd.text_eq
    obtain ⟨u, us, hunits, -, -, hall⟩ := ht.units
    rw [hunits] at htext
    rcases (hqt.number_other d hnot).text_eq with h | h | h
    · rw [← htext, h] at hall
      exact absurd hall (by decide)
    · rw [← htext, h] at hall
      exact absurd hall (by decide)
    · rw [← htext, h] at hall
      exact absurd hall (by decide)
  · exact hqt.number_finite d

theorem Numbers.cases {finite : D → Prop} (hqt : Numbers qt finite) (d : D) :
    ReadBack qt d ∨ Unreadable qt d := by
  by_cases hd : finite d
  · exact .inl (hqt.number_finite d hd)
  · exact .inr (hqt.number_other d hd)

/-! ## The parser reads the text -/

section Reading

variable {qt : Qt D} (f : QString → QString)

theorem opensValue_text (v : QVariant D)
    (hv : ∀ d, v = .double d → ReadBack qt d ∨ Unreadable qt d) (rest : QString) :
    OpensValue (lookAhead (text f qt v ++ rest)) := by
  unfold OpensValue
  cases v with
  | invalid =>
    rw [text]
    exact ⟨Token.noConfusion, Token.noConfusion⟩
  | bool b =>
    cases b
    · rw [text]
      exact ⟨Token.noConfusion, Token.noConfusion⟩
    · rw [text]
      exact ⟨Token.noConfusion, Token.noConfusion⟩
  | int n =>
    rw [text, number, lookAhead_number (isNumberText_int n)]
    exact ⟨Token.noConfusion, Token.noConfusion⟩
  | double d =>
    rw [text]
    rcases hv d rfl with hd | hd
    · obtain ⟨t, htext, ht, -⟩ := hd.text_eq
      rw [htext, lookAhead_number ht]
      exact ⟨Token.noConfusion, Token.noConfusion⟩
    · rcases hd.text_eq with h | h | h
      · rw [h]
        exact ⟨Token.noConfusion, Token.noConfusion⟩
      · rw [h]
        exact ⟨Token.noConfusion, Token.noConfusion⟩
      · rw [h]
        exact ⟨Token.noConfusion, Token.noConfusion⟩
  | string s =>
    rw [text, lookAhead_sanitizeString]
    exact ⟨Token.noConfusion, Token.noConfusion⟩
  | list values =>
    cases values with
    | nil =>
      rw [text]
      exact ⟨Token.noConfusion, Token.noConfusion⟩
    | cons v values =>
      rw [text]
      exact ⟨Token.noConfusion, Token.noConfusion⟩
  | map entries =>
    cases entries with
    | nil =>
      rw [text]
      exact ⟨Token.noConfusion, Token.noConfusion⟩
    | cons entry entries =>
      rw [text]
      exact ⟨Token.noConfusion, Token.noConfusion⟩

variable {v : QVariant D}

theorem opensValue_finite (hv : Every (Parts.doubles (ReadBack qt)) v) (rest : QString) :
    OpensValue (lookAhead (text f qt v ++ rest)) := by
  refine opensValue_text f v ?_ rest
  rintro d rfl
  exact .inl hv

theorem endsNumber_textTail (values : List (QVariant D)) (rest : QString) :
    EndsNumber (textTail f qt values ++ unit ']' :: rest) := by
  cases values with
  | nil =>
    rw [textTail]
    rfl
  | cons v values =>
    rw [textTail]
    rfl

theorem endsNumber_textEntriesTail (entries : List (QString × QVariant D)) (rest : QString) :
    EndsNumber (textEntriesTail f qt entries ++ unit '}' :: rest) := by
  cases entries with
  | nil =>
    rw [textEntriesTail]
    rfl
  | cons entry entries =>
    rw [textEntriesTail]
    rfl

mutual

/-- **The parser reads the text of a variant without infinities**, in front of anything
that continues no number. -/
theorem parseValue_text (v : QVariant D)
    (hv : Every (Parts.doubles (ReadBack qt)) v) (fuel : Nat)
    (hfuel : 2 * (text f qt v).length ≤ fuel) (rest : QString) (hrest : EndsNumber rest) :
    parseValue qt fuel (text f qt v ++ rest) = ⟨reread f qt v, rest, true⟩ := by
  match v with
  | .invalid =>
    rw [text] at hfuel ⊢
    obtain ⟨n, rfl⟩ : ∃ n, fuel = n + 1 := ⟨fuel - 1, by simp [ofLatin1] at hfuel; omega⟩
    rw [parseValue, reread]
    rfl
  | .bool b =>
    rw [text] at hfuel ⊢
    obtain ⟨n, rfl⟩ : ∃ n, fuel = n + 1 :=
      ⟨fuel - 1, by cases b <;> simp [ofLatin1] at hfuel <;> omega⟩
    rw [parseValue, reread]
    cases b <;> rfl
  | .int n =>
    obtain ⟨u, us, htext, -⟩ := (isNumberText_int n).units
    rw [text, number] at hfuel ⊢
    rw [htext, length_cons] at hfuel
    obtain ⟨m, rfl⟩ : ∃ m, fuel = m + 1 := ⟨fuel - 1, by omega⟩
    rw [reread]
    exact parseValue_number qt m (isNumberText_int n) hrest
  | .double d =>
    rw [Every] at hv
    obtain ⟨t, hnumber, ht, hback⟩ := ReadBack.text_eq hv
    obtain ⟨u, us, htext, -⟩ := ht.units
    rw [text, hnumber] at hfuel ⊢
    rw [htext, length_cons] at hfuel
    obtain ⟨m, rfl⟩ : ∃ m, fuel = m + 1 := ⟨fuel - 1, by omega⟩
    rw [reread, parseValue_number qt m ht hrest, hback]
  | .string s =>
    rw [text] at hfuel ⊢
    obtain ⟨n, rfl⟩ : ∃ n, fuel = n + 1 :=
      ⟨fuel - 1, by simp [sanitizeString_eq] at hfuel; omega⟩
    rw [reread]
    exact parseValue_string qt n (f s) rest
  | .list [] =>
    rw [text] at hfuel ⊢
    obtain ⟨n, rfl⟩ : ∃ n, fuel = n + 2 := ⟨fuel - 2, by simp [ofLatin1] at hfuel; omega⟩
    show parseValue qt (n + 1 + 1) (unit '[' :: unit ']' :: rest) = _
    rw [parseValue_squaredOpen, parseArray_close, reread, rereadList]
  | .list (v :: values) =>
    rw [Every, EveryValue] at hv
    obtain ⟨hv, hvalues⟩ := hv
    rw [text] at hfuel ⊢
    simp only [length_cons, List.length_append, length_nil] at hfuel
    obtain ⟨n, rfl⟩ : ∃ n, fuel = n + 2 := ⟨fuel - 2, by omega⟩
    have hvalue := parseValue_text v hv n (by omega)
      (textTail f qt values ++ unit ']' :: rest) (endsNumber_textTail f values rest)
    have hopens := opensValue_finite f hv (textTail f qt values ++ unit ']' :: rest)
    have htail := parseArray_textTail values hvalues n (by omega) rest ([] ++ [reread f qt v])
    rw [cons_append, append_assoc, append_assoc, parseValue_squaredOpen, reread, rereadList]
    exact (parseArray_value qt hopens hvalue []).trans htail
  | .map [] =>
    rw [text] at hfuel ⊢
    obtain ⟨n, rfl⟩ : ∃ n, fuel = n + 2 := ⟨fuel - 2, by simp [ofLatin1] at hfuel; omega⟩
    show parseValue qt (n + 1 + 1) (unit '{' :: unit '}' :: rest) = _
    rw [parseValue_curlyOpen, parseObject_close, reread, rereadEntries]
  | .map ((key, v) :: entries) =>
    rw [Every, EveryEntry] at hv
    obtain ⟨⟨-, hv, hentries⟩, -⟩ := hv
    rw [text] at hfuel ⊢
    simp only [length_cons, List.length_append, length_nil] at hfuel
    obtain ⟨n, rfl⟩ : ∃ n, fuel = n + 2 := ⟨fuel - 2, by omega⟩
    have hvalue := parseValue_text v hv n (by omega)
      (textEntriesTail f qt entries ++ unit '}' :: rest)
      (endsNumber_textEntriesTail f entries rest)
    have htail := parseObject_textEntriesTail entries hentries n (by omega) rest
      (insert (f key) (reread f qt v) [])
    simp only [cons_append, append_assoc]
    rw [parseValue_curlyOpen, reread, rereadEntries]
    exact (parseObject_entry qt (f key) hvalue []).trans htail
termination_by sizeOf v

theorem parseArray_textTail (values : List (QVariant D))
    (hvalues : EveryValue (Parts.doubles (ReadBack qt)) values) (fuel : Nat)
    (hfuel : 2 * ((textTail f qt values).length + 1) ≤ fuel) (rest : QString)
    (list : List (QVariant D)) :
    parseArray qt fuel (textTail f qt values ++ unit ']' :: rest) list =
      ⟨.list (list ++ rereadList f qt values), rest, true⟩ := by
  match values with
  | [] =>
    obtain ⟨n, rfl⟩ : ∃ n, fuel = n + 1 := ⟨fuel - 1, by omega⟩
    rw [textTail, nil_append, rereadList, append_nil]
    exact parseArray_close qt n rest list
  | v :: values =>
    rw [EveryValue] at hvalues
    obtain ⟨hv, hvalues⟩ := hvalues
    rw [textTail, length_cons, List.length_append] at hfuel
    obtain ⟨n, rfl⟩ : ∃ n, fuel = n + 2 := ⟨fuel - 2, by omega⟩
    have hvalue := parseValue_text v hv n (by omega)
      (textTail f qt values ++ unit ']' :: rest) (endsNumber_textTail f values rest)
    have hopens := opensValue_finite f hv (textTail f qt values ++ unit ']' :: rest)
    have htail := parseArray_textTail values hvalues n (by omega) rest
      (list ++ [reread f qt v])
    rw [textTail, cons_append, append_assoc, parseArray_comma, parseArray_value qt hopens hvalue,
      htail, append_assoc, rereadList]
    rfl
termination_by sizeOf values

theorem parseObject_textEntriesTail
    (entries : List (QString × QVariant D))
    (hentries : EveryEntry (Parts.doubles (ReadBack qt)) entries) (fuel : Nat)
    (hfuel : 2 * ((textEntriesTail f qt entries).length + 1) ≤ fuel) (rest : QString)
    (map : List (QString × QVariant D)) :
    parseObject qt fuel (textEntriesTail f qt entries ++ unit '}' :: rest) map =
      ⟨.map (rereadEntries f qt entries map), rest, true⟩ := by
  match entries with
  | [] =>
    obtain ⟨n, rfl⟩ : ∃ n, fuel = n + 1 := ⟨fuel - 1, by omega⟩
    rw [textEntriesTail, nil_append, rereadEntries]
    exact parseObject_close qt n rest map
  | (key, v) :: entries =>
    rw [EveryEntry] at hentries
    obtain ⟨-, hv, hentries⟩ := hentries
    rw [textEntriesTail] at hfuel ⊢
    simp only [length_cons, List.length_append] at hfuel
    obtain ⟨n, rfl⟩ : ∃ n, fuel = n + 2 := ⟨fuel - 2, by omega⟩
    have hvalue := parseValue_text v hv n (by omega)
      (textEntriesTail f qt entries ++ unit '}' :: rest)
      (endsNumber_textEntriesTail f entries rest)
    have htail := parseObject_textEntriesTail entries hentries n (by omega) rest
      (insert (f key) (reread f qt v) map)
    simp only [cons_append, append_assoc]
    rw [parseObject_comma, parseObject_entry qt (f key) hvalue, htail, rereadEntries]
termination_by sizeOf entries

end

theorem parse_text (hv : Every (Parts.doubles (ReadBack qt)) v) :
    parse qt (text f qt v) = (reread f qt v, true) := by
  have hparsed := parseValue_text f v hv (2 * (text f qt v).length + 2) (by omega) [] rfl
  rw [append_nil] at hparsed
  rw [parse, hparsed]

/-! ## A number that is not finite -/

/-- Nothing can be read behind the value. -/
def Refused (r : Parsed D) : Prop := r.success = false ∨ lookAhead r.rest = .none

theorem parseArray_refused {fuel : Nat} {json : QString} (hopens : OpensValue (lookAhead json))
    (h : Refused (parseValue qt fuel json)) (list : List (QVariant D)) :
    (parseArray qt (fuel + 1) json list).success = false := by
  have hnone : ∀ rest list, lookAhead rest = .none → (parseArray qt fuel rest list).success =
      false := by
    intro rest list hrest
    cases fuel with
    | zero => rw [parseArray]
    | succ fuel => rw [parseArray, hrest]
  rw [parseArray]
  cases htoken : lookAhead json with
  | comma => exact absurd htoken hopens.1
  | squaredClose => exact absurd htoken hopens.2
  | none => rfl
  | string | curlyOpen | curlyClose | squaredOpen | colon | number | true | false | null =>
    simp only
    split
    · rfl
    · rename_i hsuccess
      rcases h with h | h
      · exact absurd h hsuccess
      · exact hnone _ _ h

theorem parseObject_refused {fuel : Nat} (key : QString) {json : QString}
    (h : Refused (parseValue qt fuel json)) (map : List (QString × QVariant D)) :
    (parseObject qt (fuel + 1) (sanitizeString key ++ unit ':' :: json) map).success = false := by
  have hcolon : nextToken (unit ':' :: json) = (.colon, json) := rfl
  have hnone : ∀ rest map, lookAhead rest = .none → (parseObject qt fuel rest map).success =
      false := by
    intro rest map hrest
    cases fuel with
    | zero => rw [parseObject]
    | succ fuel => rw [parseObject, hrest]
  rw [parseObject, lookAhead_sanitizeString]
  simp only
  rw [parseString_sanitizeString, hcolon]
  simp only [Bool.true_eq_false, if_false, ne_eq, not_true]
  split
  · rfl
  · rename_i hsuccess
    rcases h with h | h
    · exact absurd h hsuccess
    · exact hnone _ _ h

theorem parseValue_unreadable {d : D} (hd : Unreadable qt d) (fuel : Nat) (rest : QString) :
    Refused (parseValue qt fuel (numberText qt d ++ rest)) := by
  cases fuel with
  | zero =>
    rw [parseValue]
    exact .inl rfl
  | succ fuel =>
    rw [parseValue]
    rcases hd.text_eq with h | h | h
    · rw [h]
      exact .inl rfl
    · rw [h]
      exact .inr rfl
    · rw [h]
      exact .inl rfl

mutual

/-- **A list or map with a number that is not finite is refused.** -/
theorem parseValue_refused (hqt : ∀ d, ReadBack qt d ∨ Unreadable qt d) (v : QVariant D)
    (hv : ¬ Every (Parts.doubles (ReadBack qt)) v) (fuel : Nat)
    (hfuel : 2 * (text f qt v).length ≤ fuel)
    (rest : QString) :
    Refused (parseValue qt fuel (text f qt v ++ rest)) ∧
      ((∀ d, v ≠ .double d) → (parseValue qt fuel (text f qt v ++ rest)).success = false) := by
  match v with
  | .invalid | .bool _ | .int _ | .string _ | .list [] | .map [] =>
    refine absurd ?_ hv
    simp [Every, EveryValue, EveryEntry, Parts.doubles]
  | .double d =>
    rw [Every] at hv
    rw [text]
    exact ⟨parseValue_unreadable ((hqt d).resolve_left hv) fuel rest, fun h => absurd rfl (h d)⟩
  | .list (v :: values) =>
    have hfailed : (parseValue qt fuel (text f qt (.list (v :: values)) ++ rest)).success =
        false := by
      rw [Every, EveryValue, not_and_or] at hv
      rw [text] at hfuel ⊢
      simp only [length_cons, List.length_append, length_nil] at hfuel
      obtain ⟨n, rfl⟩ : ∃ n, fuel = n + 2 := ⟨fuel - 2, by omega⟩
      have hopens := opensValue_text f v (fun d _ => hqt d)
        (textTail f qt values ++ unit ']' :: rest)
      rw [cons_append, append_assoc, append_assoc, parseValue_squaredOpen]
      by_cases hfinite : Every (Parts.doubles (ReadBack qt)) v
      · have hvalue := parseValue_text f v hfinite n (by omega)
          (textTail f qt values ++ unit ']' :: rest) (endsNumber_textTail f values rest)
        have htail := parseArray_refused_textTail hqt values
          (hv.resolve_left (not_not.mpr hfinite)) n (by omega) rest ([] ++ [reread f qt v])
        exact (congrArg Parsed.success (parseArray_value qt hopens hvalue [])).trans htail
      · exact parseArray_refused hopens (parseValue_refused hqt v hfinite n (by omega) _).1 []
    exact ⟨.inl hfailed, fun _ => hfailed⟩
  | .map ((key, v) :: entries) =>
    have hfailed : (parseValue qt fuel (text f qt (.map ((key, v) :: entries)) ++ rest)).success =
        false := by
      rw [Every, EveryEntry] at hv
      rw [text] at hfuel ⊢
      simp only [length_cons, List.length_append, length_nil] at hfuel
      obtain ⟨n, rfl⟩ : ∃ n, fuel = n + 2 := ⟨fuel - 2, by omega⟩
      simp only [cons_append, append_assoc]
      rw [parseValue_curlyOpen]
      by_cases hfinite : Every (Parts.doubles (ReadBack qt)) v
      · have hvalue := parseValue_text f v hfinite n (by omega)
          (textEntriesTail f qt entries ++ unit '}' :: rest)
          (endsNumber_textEntriesTail f entries rest)
        have hentries : ¬ EveryEntry (Parts.doubles (ReadBack qt)) entries :=
          fun h => hv ⟨⟨trivial, hfinite, h⟩, trivial⟩
        have htail := parseObject_refused_textEntriesTail hqt entries hentries n (by omega) rest
          (insert (f key) (reread f qt v) [])
        exact (congrArg Parsed.success (parseObject_entry qt (f key) hvalue [])).trans htail
      · exact parseObject_refused (f key) (parseValue_refused hqt v hfinite n (by omega) _).1 []
    exact ⟨.inl hfailed, fun _ => hfailed⟩
termination_by sizeOf v

theorem parseArray_refused_textTail (hqt : ∀ d, ReadBack qt d ∨ Unreadable qt d)
    (values : List (QVariant D))
    (hvalues : ¬ EveryValue (Parts.doubles (ReadBack qt)) values) (fuel : Nat)
    (hfuel : 2 * ((textTail f qt values).length + 1) ≤ fuel) (rest : QString)
    (list : List (QVariant D)) :
    (parseArray qt fuel (textTail f qt values ++ unit ']' :: rest) list).success = false := by
  match values with
  | [] => exact absurd trivial hvalues
  | v :: values =>
    rw [EveryValue, not_and_or] at hvalues
    rw [textTail, length_cons, List.length_append] at hfuel
    obtain ⟨n, rfl⟩ : ∃ n, fuel = n + 2 := ⟨fuel - 2, by omega⟩
    have hopens := opensValue_text f v (fun d _ => hqt d)
        (textTail f qt values ++ unit ']' :: rest)
    rw [textTail, cons_append, append_assoc, parseArray_comma]
    by_cases hfinite : Every (Parts.doubles (ReadBack qt)) v
    · have hvalue := parseValue_text f v hfinite n (by omega)
        (textTail f qt values ++ unit ']' :: rest) (endsNumber_textTail f values rest)
      rw [parseArray_value qt hopens hvalue]
      exact parseArray_refused_textTail hqt values (hvalues.resolve_left (not_not.mpr hfinite))
        n (by omega) rest _
    · exact parseArray_refused hopens (parseValue_refused hqt v hfinite n (by omega) _).1 list
termination_by sizeOf values

theorem parseObject_refused_textEntriesTail (hqt : ∀ d, ReadBack qt d ∨ Unreadable qt d)
    (entries : List (QString × QVariant D))
    (hentries : ¬ EveryEntry (Parts.doubles (ReadBack qt)) entries) (fuel : Nat)
    (hfuel : 2 * ((textEntriesTail f qt entries).length + 1) ≤ fuel) (rest : QString)
    (map : List (QString × QVariant D)) :
    (parseObject qt fuel (textEntriesTail f qt entries ++ unit '}' :: rest) map).success =
      false := by
  match entries with
  | [] => exact absurd trivial hentries
  | (key, v) :: entries =>
    rw [textEntriesTail] at hfuel ⊢
    simp only [length_cons, List.length_append] at hfuel
    obtain ⟨n, rfl⟩ : ∃ n, fuel = n + 2 := ⟨fuel - 2, by omega⟩
    simp only [cons_append, append_assoc]
    rw [parseObject_comma]
    by_cases hfinite : Every (Parts.doubles (ReadBack qt)) v
    · have hvalue := parseValue_text f v hfinite n (by omega)
        (textEntriesTail f qt entries ++ unit '}' :: rest)
        (endsNumber_textEntriesTail f entries rest)
      have htail : ¬ EveryEntry (Parts.doubles (ReadBack qt)) entries :=
        fun h => hentries ⟨trivial, hfinite, h⟩
      rw [parseObject_entry qt (f key) hvalue]
      exact parseObject_refused_textEntriesTail hqt entries htail n (by omega) rest _
    · exact parseObject_refused (f key) (parseValue_refused hqt v hfinite n (by omega) _).1 map
termination_by sizeOf entries

end

theorem parse_text_refused (hqt : ∀ d, ReadBack qt d ∨ Unreadable qt d)
    (hv : ¬ Every (Parts.doubles (ReadBack qt)) v) (hdouble : ∀ d, v ≠ .double d) :
    (parse qt (text f qt v)).2 = false := by
  have hfailed := (parseValue_refused f hqt v hv (2 * (text f qt v).length + 2) (by omega) []).2
    hdouble
  rw [append_nil] at hfailed
  exact hfailed

end Reading

end Json
end DeconzRest

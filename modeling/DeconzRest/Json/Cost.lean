import DeconzRest.Json.Text

/-!
# Escapes have to be paid for

`cost` counts the units of a text that escapes are made of: the backslash, the `u`, and the
control characters that have an escape of their own.  A string is `worth` its cost and one
more for every quote and backslash in it.  The parser returns nothing that is worth more than
what it takes (`worth_parse`), and the serializer writes everything for what it is worth
(`cost_text`).  So a text with a quote or a backslash, written as it is, is worth more than
it costs, and nothing else in the text can make up for it.
-/

namespace DeconzRest
namespace Json

open QString List

variable {D : Type}

/-- A unit that escapes are made of, or that has one as a control character. -/
def isCostly (c : QChar) : Bool :=
  decide (c ∈ [unit '\\', unit 'u', 0x08, 0x0C, 0x0A, 0x0D, 0x09])

/-- A unit that is escaped for the sake of the syntax. -/
def needsEscape (c : QChar) : Bool := decide (c = unit '"' ∨ c = QString.unit '\\')

def cost (s : QString) : Nat := s.countP isCostly

def worth (s : QString) : Nat := cost s + s.countP needsEscape

mutual

/-- What a variant is worth; `true` and `null` have a `u`. -/
def variantWorth : QVariant D → Nat
  | .invalid => 1
  | .bool b => if b then 1 else 0
  | .int _ => 0
  | .double _ => 0
  | .string s => worth s
  | .list values => valuesWorth values
  | .map entries => entriesWorth entries

def valuesWorth : List (QVariant D) → Nat
  | [] => 0
  | v :: values => variantWorth v + valuesWorth values

def entriesWorth : List (QString × QVariant D) → Nat
  | [] => 0
  | (key, v) :: entries => worth key + variantWorth v + entriesWorth entries

end

theorem cost_append (s t : QString) : cost (s ++ t) = cost s + cost t := countP_append

theorem cost_cons (c : QChar) (s : QString) : cost (c :: s) = cost [c] + cost s :=
  cost_append [c] s

theorem worth_append (s t : QString) : worth (s ++ t) = worth s + worth t := by
  unfold worth
  rw [cost_append, countP_append]
  omega

theorem cost_le_of_suffix {s t : QString} (h : t <:+ s) : cost t ≤ cost s :=
  h.sublist.countP_le

theorem cost_drop_le (n : Nat) (s : QString) : cost (s.drop n) ≤ cost s :=
  cost_le_of_suffix (drop_suffix n s)

theorem valuesWorth_append (values more : List (QVariant D)) :
    valuesWorth (values ++ more) = valuesWorth values + valuesWorth more := by
  induction values with
  | nil => rw [nil_append, valuesWorth, Nat.zero_add]
  | cons v values ih =>
    rw [cons_append, valuesWorth, valuesWorth, ih]
    omega

theorem entriesWorth_insert (key : QString) (value : QVariant D)
    (entries : List (QString × QVariant D)) :
    entriesWorth (insert key value entries) ≤ worth key + variantWorth value +
      entriesWorth entries := by
  induction entries with
  | nil => exact Nat.le_refl _
  | cons entry entries ih =>
    obtain ⟨k, v⟩ := entry
    rw [insert]
    split
    · exact Nat.le_refl _
    · split
      · rw [entriesWorth, entriesWorth]
        omega
      · rw [entriesWorth, entriesWorth]
        omega

/-- What the value of a key is worth. -/
def worthAt (key : QString) (entries : List (QString × QVariant D)) : Nat :=
  ((entries.lookup key).map variantWorth).getD 0

theorem worthAt_cons (key k : QString) (v : QVariant D) (entries : List (QString × QVariant D)) :
    worthAt key ((k, v) :: entries) = if key = k then variantWorth v else worthAt key entries := by
  unfold worthAt
  rw [lookup_cons]
  by_cases hkey : key = k
  · have hsame : (key == k) = true := by simpa using hkey
    rw [if_pos hkey, hsame]
    rfl
  · have hother : (key == k) = false := by simpa using hkey
    rw [if_neg hkey, hother]

theorem worthAt_add_le {key other : QString} (hne : key ≠ other)
    (entries : List (QString × QVariant D)) :
    worthAt key entries + worthAt other entries ≤ entriesWorth entries := by
  have hone : ∀ (key : QString) (entries : List (QString × QVariant D)), worthAt key entries ≤
      entriesWorth entries := by
    intro key entries
    induction entries with
    | nil => exact Nat.le_refl _
    | cons entry entries ih =>
      obtain ⟨k, v⟩ := entry
      rw [worthAt_cons, entriesWorth]
      split <;> omega
  induction entries with
  | nil => exact Nat.le_refl _
  | cons entry entries ih =>
    obtain ⟨k, v⟩ := entry
    have hkey := hone key entries
    have hother := hone other entries
    rw [worthAt_cons, worthAt_cons, entriesWorth]
    by_cases hk : key = k
    · have hk' : ¬ other = k := fun h => hne (hk.trans h.symm)
      rw [if_pos hk, if_neg hk']
      omega
    · rw [if_neg hk]
      split <;> omega

/-! ## The parser -/

theorem cost_eatWhitespace (json : QString) : cost (eatWhitespace json) ≤ cost json :=
  cost_le_of_suffix (dropWhile_suffix _)

theorem cost_keyword {keyword json : QString} (h : keyword.isPrefixOf json = true) :
    cost json = cost keyword + cost (json.drop keyword.length) := by
  obtain ⟨rest, rfl⟩ := isPrefixOf_iff_prefix.mp h
  rw [cost_append, drop_left]

def tokenWorth : Token → Nat
  | .true | .null => 1
  | _ => 0

theorem cost_nextToken (json : QString) :
    tokenWorth (nextToken json).1 + cost (nextToken json).2 ≤ cost json := by
  have heat := cost_eatWhitespace json
  unfold nextToken
  cases hjson : eatWhitespace json with
  | nil =>
    show 0 + 0 ≤ cost json
    omega
  | cons c rest =>
    rw [hjson] at heat
    have hcons := cost_cons c rest
    simp only
    cases htoken : charToken c with
    | some token =>
      have hzero : tokenWorth token = 0 := by
        unfold charToken at htoken
        split_ifs at htoken <;> cases htoken <;> rfl
      simp only
      omega
    | none =>
      simp only
      split
      · rename_i hkeyword
        have h := cost_keyword hkeyword
        have hone : cost (QString.ofLatin1 "true") = 1 := by decide
        show 1 + cost (rest.drop 3) ≤ _
        rw [hone] at h
        replace h : cost (c :: rest) = 1 + cost (rest.drop 3) := h
        omega
      · split
        · have h := cost_drop_le 4 rest
          show 0 + cost (rest.drop 4) ≤ _
          omega
        · split
          · rename_i hkeyword
            have h := cost_keyword hkeyword
            have hone : cost (QString.ofLatin1 "null") = 1 := by decide
            show 1 + cost (rest.drop 3) ≤ _
            rw [hone] at h
            replace h : cost (c :: rest) = 1 + cost (rest.drop 3) := h
            omega
          · show 0 + cost (c :: rest) ≤ _
            omega

theorem worth_unit_le (c : QChar) : worth [c] ≤ 2 := by
  have hcost : cost [c] ≤ 1 := countP_le_length
  have hescape : [c].countP needsEscape ≤ 1 := countP_le_length
  unfold worth
  omega

theorem worth_of_not_needsEscape {c : QChar} (hquote : c ≠ QString.unit '"')
    (hslash : c ≠ unit '\\') : worth [c] = cost [c] := by
  have hnot : needsEscape c = false := by
    unfold needsEscape
    rw [decide_eq_false_iff_not, not_or]
    exact ⟨hquote, hslash⟩
  unfold worth
  rw [countP_cons_of_neg (by rw [hnot]; decide), countP_nil, Nat.add_zero]

theorem worth_of_isSurrogate {u : QChar} (hu : isSurrogate u = true) : worth [u] = 0 := by
  have hne : ∀ x : QChar, isSurrogate x = false → u ≠ x := by
    rintro x hx rfl
    rw [hu] at hx
    cases hx
  have hcostly : isCostly u = false := by
    unfold isCostly
    rw [decide_eq_false_iff_not]
    simp only [mem_cons, not_mem_nil, or_false, not_or]
    exact ⟨hne _ (by decide), hne _ (by decide), hne _ (by decide), hne _ (by decide),
      hne _ (by decide), hne _ (by decide), hne _ (by decide)⟩
  rw [worth_of_not_needsEscape (hne _ (by decide)) (hne _ (by decide))]
  unfold cost
  rw [countP_cons_of_neg (by rw [hcostly]; decide), countP_nil]

theorem worth_unescape (e : QChar) : worth (unescape e) ≤ 1 + cost [e] := by
  unfold unescape
  split_ifs
  · subst_vars
    decide
  · subst_vars
    decide
  · subst_vars
    decide
  · subst_vars
    decide
  · subst_vars
    decide
  · subst_vars
    decide
  · subst_vars
    decide
  · subst_vars
    decide
  · exact Nat.zero_le _

theorem worth_stringLoop (qt : Qt D) (s json : QString) :
    worth (stringLoop qt s json).1 + cost (stringLoop qt s json).2.1 ≤ worth s + cost json := by
  have hslash : cost [unit '\\'] = 1 := by decide
  have hu : cost [unit 'u'] = 1 := by decide
  fun_induction stringLoop qt s json with
  | case1 s => exact Nat.le_refl _
  | case2 s rest =>
    rw [cost_cons]
    show worth s + cost rest ≤ _
    omega
  | case3 s _ =>
    show worth s + 0 ≤ _
    omega
  | case4 s a b c d rest _ ih =>
    -- the backslash and the `u` pay for any unit
    have hunit := worth_unit_le (charOfInt (qt.toIntBase16 [a, b, c, d]))
    have hrest := cost_append [unit '\\', unit 'u', a, b, c, d] rest
    have hfront := cost_append [unit '\\', unit 'u'] [a, b, c, d]
    have htwo : cost [unit '\\', unit 'u'] = 2 := by decide
    rw [worth_append] at ih
    simp only [cons_append, nil_append] at hrest hfront
    omega
  | case5 s rest _ _ =>
    have hrest := cost_append [unit '\\', unit 'u'] rest
    simp only [cons_append, nil_append] at hrest
    show worth s + cost rest ≤ _
    omega
  | case6 s e rest _ _ ih =>
    have hescape := worth_unescape e
    rw [worth_append] at ih
    rw [cost_cons, cost_cons e rest]
    omega
  | case7 s c rest hquote hnot ih =>
    have hunit := worth_of_not_needsEscape hquote hnot
    rw [worth_append] at ih
    rw [cost_cons]
    omega

theorem worth_parseString (qt : Qt D) (json : QString)
    (hsuccess : (parseString qt json).success = true) :
    ∃ s, (parseString qt json).value = .string s ∧ worth s + cost (parseString qt json).rest ≤
      cost json := by
  have heat := cost_eatWhitespace json
  have hdrop := cost_drop_le 1 (eatWhitespace json)
  have hloop := worth_stringLoop qt [] ((eatWhitespace json).drop 1)
  have hnil : worth [] = 0 := rfl
  unfold parseString at hsuccess ⊢
  split
  rename_i s rest complete hresult
  rw [hresult] at hloop hsuccess
  simp only at hloop hsuccess ⊢
  cases complete with
  | false => cases hsuccess
  | true =>
    refine ⟨s, rfl, ?_⟩
    show worth s + cost rest ≤ cost json
    omega

theorem cost_parseNumber (qt : Qt D) (json : QString) :
    variantWorth (parseNumber qt json).value + cost (parseNumber qt json).rest ≤ cost json := by
  have heat := cost_eatWhitespace json
  have hrest := cost_le_of_suffix (dropWhile_suffix isNumberChar (l := eatWhitespace json))
  unfold parseNumber
  show 0 + cost ((eatWhitespace json).dropWhile isNumberChar) ≤ _
  omega

theorem worth_parse_fuel (qt : Qt D) (fuel : Nat) :
    (∀ json, (parseValue qt fuel json).success = true →
        variantWorth (parseValue qt fuel json).value + cost (parseValue qt fuel json).rest ≤
          cost json) ∧
      (∀ json map, (parseObject qt fuel json map).success = true →
        variantWorth (parseObject qt fuel json map).value +
            cost (parseObject qt fuel json map).rest ≤ entriesWorth map + cost json) ∧
      (∀ json list, (parseArray qt fuel json list).success = true →
        variantWorth (parseArray qt fuel json list).value +
            cost (parseArray qt fuel json list).rest ≤ valuesWorth list + cost json) := by
  induction fuel with
  | zero =>
    refine ⟨fun json h => ?_, fun json map h => ?_, fun json list h => ?_⟩
    · rw [parseValue] at h
      cases h
    · rw [parseObject] at h
      cases h
    · rw [parseArray] at h
      cases h
  | succ fuel ih =>
    obtain ⟨ihValue, ihObject, ihArray⟩ := ih
    refine ⟨fun json h => ?_, fun json map h => ?_, fun json list h => ?_⟩
    · -- a value costs its first token, and what is in it is paid by the induction hypothesis
      have hnext := cost_nextToken json
      rw [parseValue] at h ⊢
      cases htoken : lookAhead json with
      | string =>
        simp only [htoken] at h ⊢
        obtain ⟨s, hvalue, hworth⟩ := worth_parseString qt json h
        rw [hvalue]
        exact hworth
      | number => exact cost_parseNumber qt json
      | curlyOpen =>
        simp only [htoken] at h ⊢
        have hobject := ihObject _ [] h
        rw [entriesWorth] at hobject
        omega
      | squaredOpen =>
        simp only [htoken] at h ⊢
        have harray := ihArray _ [] h
        rw [valuesWorth] at harray
        omega
      | true =>
        rw [show (nextToken json).1 = .true from htoken] at hnext
        exact hnext
      | false =>
        rw [show (nextToken json).1 = .false from htoken] at hnext
        exact hnext
      | null =>
        rw [show (nextToken json).1 = .null from htoken] at hnext
        exact hnext
      | none | curlyClose | squaredClose | colon | comma =>
        rw [htoken] at h
        cases h
    · -- of an entry, the name, the colon and the value are paid one after the other
      have hnext := cost_nextToken json
      rw [parseObject] at h ⊢
      cases htoken : lookAhead json with
      | none =>
        rw [htoken] at h
        cases h
      | comma =>
        simp only [htoken] at h ⊢
        have hrest := ihObject _ map h
        omega
      | curlyClose =>
        simp only
        rw [variantWorth]
        omega
      | curlyOpen | squaredOpen | squaredClose | colon | string | number | true | false
      | null =>
        simp only [htoken] at h ⊢
        split at h
        · cases h
        · rename_i hname
          rw [if_neg hname]
          split at h
          · cases h
          · rename_i hcolon
            rw [if_neg hcolon]
            split at h
            · cases h
            · rename_i hvalue
              rw [if_neg hvalue]
              rw [Bool.not_eq_false] at hname hvalue
              obtain ⟨s, hs, hworth⟩ := worth_parseString qt json hname
              have hnextColon := cost_nextToken (parseString qt json).rest
              have hparsed := ihValue _ hvalue
              have hrest := ihObject _ _ h
              have hinsert := entriesWorth_insert s
                (parseValue qt fuel (nextToken (parseString qt json).rest).2).value map
              have hkey : (parseString qt json).value.toString qt = s := by rw [hs]; rfl
              rw [hkey] at hrest ⊢
              omega
    · have hnext := cost_nextToken json
      rw [parseArray] at h ⊢
      cases htoken : lookAhead json with
      | none =>
        rw [htoken] at h
        cases h
      | comma =>
        simp only [htoken] at h ⊢
        have hrest := ihArray _ list h
        omega
      | squaredClose =>
        simp only
        rw [variantWorth]
        omega
      | curlyOpen | curlyClose | squaredOpen | colon | string | number | true | false
      | null =>
        simp only [htoken] at h ⊢
        split at h
        · cases h
        · rename_i hvalue
          rw [if_neg hvalue]
          rw [Bool.not_eq_false] at hvalue
          have hparsed := ihValue _ hvalue
          have hrest := ihArray _ _ h
          rw [valuesWorth_append, valuesWorth, valuesWorth] at hrest
          omega

/-- **Nothing that is read is worth more than the text.** -/
theorem worth_parse (qt : Qt D) {json : QString} (h : (parse qt json).2 = true) :
    variantWorth (parse qt json).1 ≤ cost json := by
  have hall := (worth_parse_fuel qt (2 * json.length + 2)).1 json h
  show variantWorth (parseValue qt (2 * json.length + 2) json).value ≤ _
  omega

/-! ## The serializer -/

theorem cost_escape (c : QChar) : cost (escape c) = worth [c] := by
  unfold escape
  split_ifs
  · subst_vars
    decide
  · subst_vars
    decide
  · subst_vars
    decide
  · subst_vars
    decide
  · subst_vars
    decide
  · subst_vars
    decide
  · subst_vars
    decide
  · rename_i hslash hquote _ _ _ _ _
    exact (worth_of_not_needsEscape hquote hslash).symm

theorem cost_sanitizeString (s : QString) : cost (sanitizeString s) = worth s := by
  have hquote : cost [unit '"'] = 0 := by decide
  have hescape : cost (s.flatMap escape) = worth s := by
    induction s with
    | nil => rfl
    | cons c s ih =>
      have hcons := worth_append [c] s
      rw [flatMap_cons, cost_append, ih, cost_escape]
      exact hcons.symm
  rw [sanitizeString_eq, cost_cons, cost_append, hquote, hescape]
  omega

theorem cost_number {t : String} (h : IsNumberText t) : cost (QString.ofLatin1 t) = 0 := by
  have hcostly : (QString.ofLatin1 "0123456789+-.eE").all (fun c => !isCostly c) = true := by
    decide
  obtain ⟨u, us, htext, -, -, hall⟩ := h.units
  unfold cost
  rw [htext, countP_eq_zero]
  intro c hc
  have hchar := of_decide_eq_true (all_eq_true.mp hall c hc)
  have hnot := all_eq_true.mp hcostly c hchar
  rwa [Bool.not_eq_true', ← Bool.not_eq_true] at hnot

/-- **Everything is written for what it is worth**, where `f` keeps the worth of texts. -/
theorem cost_text {qt : Qt D} {f : QString → QString} (hf : ∀ s, worth (f s) = worth s)
    {v : QVariant D} (hv : Every (Parts.doubles (ReadBack qt)) v) :
    cost (text f qt v) = variantWorth v := by
  have hopen : cost [unit '['] = 0 ∧ cost [unit '{'] = 0 := by decide
  have hclose : cost [unit ']'] = 0 ∧ cost [unit '}'] = 0 := by decide
  have hcomma : cost [unit ','] = 0 ∧ cost [unit ':'] = 0 := by decide
  induction v using variant_induction with
  | invalid =>
    rw [text, variantWorth]
    decide
  | bool b =>
    rw [text, variantWorth]
    cases b
    · decide
    · decide
  | int n =>
    rw [text]
    exact cost_number (isNumberText_int n)
  | double d =>
    obtain ⟨t, htext, ht, -⟩ := ReadBack.text_eq hv
    rw [text, htext]
    exact cost_number ht
  | string s =>
    rw [text, cost_sanitizeString, hf]
    rfl
  | list values ih =>
    rw [Every, everyValue_iff] at hv
    have hall := fun v hmem => ih v hmem (hv v hmem)
    have htail : ∀ values : List (QVariant D), (∀ v ∈ values, cost (text f qt v) = variantWorth v) →
        cost (textTail f qt values) = valuesWorth values := by
      intro values
      induction values with
      | nil =>
        intro _
        rfl
      | cons v values ihTail =>
        intro h
        rw [forall_mem_cons] at h
        rw [textTail, cost_cons, cost_append, h.1, ihTail h.2, valuesWorth]
        omega
    cases values with
    | nil =>
      rw [text, variantWorth, valuesWorth]
      decide
    | cons v values =>
      rw [forall_mem_cons] at hall
      rw [text, cost_cons, cost_append, cost_append, hall.1, htail values hall.2, variantWorth,
        valuesWorth]
      omega
  | map entries ih =>
    rw [Every, everyEntry_iff] at hv
    have hall := fun e hmem => ih e hmem (hv.1 e hmem).2
    have htail : ∀ entries : List (QString × QVariant D),
        (∀ e ∈ entries, cost (text f qt e.2) = variantWorth e.2) →
        cost (textEntriesTail f qt entries) = entriesWorth entries := by
      intro entries
      induction entries with
      | nil =>
        intro _
        rfl
      | cons e entries ihTail =>
        intro h
        obtain ⟨key, v⟩ := e
        rw [forall_mem_cons] at h
        have hvalue : cost (text f qt v) = variantWorth v := h.1
        rw [textEntriesTail, cost_cons, cost_append, cost_cons (unit ':'), cost_append,
          cost_sanitizeString, hf, hvalue, ihTail h.2, entriesWorth]
        omega
    cases entries with
    | nil =>
      rw [text, variantWorth, entriesWorth]
      decide
    | cons e entries =>
      obtain ⟨key, v⟩ := e
      rw [forall_mem_cons] at hall
      have hvalue : cost (text f qt v) = variantWorth v := hall.1
      rw [text, cost_cons, cost_append, cost_cons (unit ':'), cost_append, cost_append,
        cost_sanitizeString, hf, hvalue, htail entries hall.2, variantWorth, entriesWorth]
      omega

end Json
end DeconzRest

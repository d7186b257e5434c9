import DeconzRest.Json.Parse
import DeconzRest.Json.Serialize
import DeconzRest.Qt.Repair

/-!
# Strings between `Json::serialize` and `Json::parse`

The seven replacements of `sanitizeString` amount to one escape for each unit
(`sanitizeString_eq`), which the character loop of the parser undoes one by one
(`stringLoop_escape`).  In UTF-8 a sanitized text is the same as the sanitized form of
what UTF-8 makes of the text (`toUtf8_sanitizeString_repair`).
-/

namespace DeconzRest
namespace Json

open QString List

variable {D : Type}

def escape (c : QChar) : QString :=
  if c = unit '\\' then ofLatin1 "\\\\"
  else if c = unit '"' then QString.ofLatin1 "\\\""
  else if c = 0x08 then ofLatin1 "\\b"
  else if c = 0x0C then ofLatin1 "\\f"
  else if c = 0x0A then ofLatin1 "\\n"
  else if c = 0x0D then ofLatin1 "\\r"
  else if c = 0x09 then ofLatin1 "\\t"
  else [c]

variable (s : QString)

theorem sanitizeString_eq :
    sanitizeString s = unit '"' :: (s.flatMap escape ++ [QString.unit '"']) := by
  have hunit : ∀ c : QChar,
      replace '\t' "\\t" (replace '\r' "\\r" (replace '\n' "\\n"
        (replace (Char.ofNat 0x0C) "\\f" (replace (Char.ofNat 0x08) "\\b"
          (replace '"' "\\\"" (replace '\\' "\\\\" [c])))))) = escape c := by
    intro c
    unfold escape
    split
    · subst_vars
      decide
    split
    · subst_vars
      decide
    split
    · subst_vars
      decide
    split
    · subst_vars
      decide
    split
    · subst_vars
      decide
    split
    · subst_vars
      decide
    split
    · subst_vars
      decide
    · rename_i h1 h2 h3 h4 h5 h6 h7
      have hb : c ≠ unit (Char.ofNat 0x08) := h3
      have hf : c ≠ unit (Char.ofNat 0x0C) := h4
      have hn : c ≠ unit '\n' := h5
      have hr : c ≠ unit '\r' := h6
      have ht : c ≠ unit '\t' := h7
      simp [replace, h1, h2, hb, hf, hn, hr, ht]
  have happend : ∀ (before : Char) (after : String) (s t : QString), replace before after (s ++ t) =
      replace before after s ++ replace before after t := by
    intro before after s t
    exact flatMap_append
  unfold sanitizeString
  simp only [cons_append, List.cons.injEq, true_and]
  congr 1
  induction s with
  | nil => rfl
  | cons c s ih =>
    rw [← singleton_append, happend, happend, happend, happend, happend, happend, happend, ih,
      hunit, flatMap_append, flatMap_singleton]

theorem escape_cases (c : QChar) :
    (∃ e, escape c = [unit '\\', e] ∧ e ≠ unit 'u' ∧ unescape e = [c]) ∨
      (escape c = [c] ∧ c ≠ unit '"' ∧ c ≠ QString.unit '\\') := by
  unfold escape
  split
  · subst_vars
    exact .inl ⟨QString.unit '\\', by decide, by decide, by decide⟩
  split
  · subst_vars
    exact .inl ⟨QString.unit '"', by decide, by decide, by decide⟩
  split
  · subst_vars
    exact .inl ⟨unit 'b', by decide, by decide, by decide⟩
  split
  · subst_vars
    exact .inl ⟨unit 'f', by decide, by decide, by decide⟩
  split
  · subst_vars
    exact .inl ⟨unit 'n', by decide, by decide, by decide⟩
  split
  · subst_vars
    exact .inl ⟨unit 'r', by decide, by decide, by decide⟩
  split
  · subst_vars
    exact .inl ⟨unit 't', by decide, by decide, by decide⟩
  · exact .inr ⟨rfl, by assumption, by assumption⟩

variable (qt : Qt D)

theorem stringLoop_quote (acc rest : QString) :
    stringLoop qt acc (unit '"' :: rest) = (acc, rest, true) := by
  rw [stringLoop.eq_def]
  simp

variable {c : QChar}

theorem stringLoop_unit (acc rest : QString) (hquote : c ≠ QString.unit '"')
    (hslash : c ≠ unit '\\') :
    stringLoop qt acc (c :: rest) = stringLoop qt (acc ++ [c]) rest := by
  rw [stringLoop.eq_def]
  simp only [hquote, hslash, if_false]

theorem stringLoop_slash (acc rest : QString) {e : QChar} (hu : e ≠ unit 'u') :
    stringLoop qt acc (unit '\\' :: e :: rest) = stringLoop qt (acc ++ unescape e) rest := by
  have hquote : ¬ unit '\\' = unit '"' := by decide
  rw [stringLoop.eq_def]
  simp only [hquote, hu, if_false, if_true]

theorem stringLoop_escape (acc s rest : QString) :
    stringLoop qt acc (s.flatMap escape ++ QString.unit '"' :: rest) = (acc ++ s, rest, true) := by
  induction s generalizing acc with
  | nil =>
    rw [flatMap_nil, nil_append, append_nil]
    exact stringLoop_quote qt acc rest
  | cons c s ih =>
    have hassoc : acc ++ c :: s = (acc ++ [c]) ++ s := by simp
    rw [flatMap_cons, append_assoc, hassoc]
    rcases escape_cases c with ⟨e, hescape, hu, hback⟩ | ⟨hescape, hquote, hslash⟩
    · rw [hescape, ← ih, ← hback]
      exact stringLoop_slash qt acc _ hu
    · rw [hescape, ← ih]
      exact stringLoop_unit qt acc _ hquote hslash

theorem parseString_sanitizeString (s rest : QString) :
    parseString qt (sanitizeString s ++ rest) = ⟨.string s, rest, true⟩ := by
  have hstart : eatWhitespace (sanitizeString s ++ rest) = sanitizeString s ++ rest := by
    rw [sanitizeString_eq]
    rfl
  have hloop := stringLoop_escape qt [] s rest
  unfold parseString
  rw [hstart, sanitizeString_eq, cons_append, append_assoc, drop_one, tail_cons]
  simp only [singleton_append, hloop]
  rfl

theorem wellFormed_replace {before : Char} {after : String} (hbefore : before.toNat < 0xD800)
    (hafter : (after.toList.all fun c => c.toNat < 0x10000) = true) {s : QString}
    (hs : QString.WellFormed s) : QString.WellFormed (replace before after s) := by
  obtain ⟨cs, rfl⟩ := hs
  have hb : (unit before).toNat = before.toNat :=
    UInt16.toNat_ofNat_of_lt' (Nat.lt_trans hbefore (by decide))
  induction cs with
  | nil => exact wellFormed_nil
  | cons c cs ih =>
    have happend : replace before after (utf16 c ++ ofChars cs) = replace before after (utf16 c) ++
        replace before after (ofChars cs) :=
      flatMap_append
    rw [ofChars_cons, happend]
    refine QString.WellFormed.append ?_ ih
    by_cases hsame : utf16 c = [unit before]
    · rw [hsame]
      have hreplaced : replace before after [unit before] = ofLatin1 after := by
        simp [replace]
      rw [hreplaced]
      exact wellFormed_ofLatin1 hafter
    · -- no unit of `c` is the replaced one
      have hkept : replace before after (utf16 c) = utf16 c := by
        have hunits : ∀ u ∈ utf16 c, u ≠ unit before := by
          intro u hu hub
          subst hub
          unfold utf16 at hu hsame
          have hvalid := toNat_valid c
          split at hu
          · rename_i hbmp
            rw [if_pos hbmp] at hsame
            rw [mem_singleton] at hu
            exact hsame (by rw [hu])
          · rcases mem_pair.mp hu with h | h
            · have hnat := congrArg UInt16.toNat h
              rw [hb, UInt16.toNat_ofNat_of_lt' (by show _ < 65536; omega)] at hnat
              omega
            · have hnat := congrArg UInt16.toNat h
              rw [hb, UInt16.toNat_ofNat_of_lt' (by show _ < 65536; omega)] at hnat
              omega
        have hmap : replace before after (utf16 c) = (utf16 c).flatMap fun u => [u] := by
          refine flatMap_congr ?_
          intro u hu
          rw [if_neg (hunits u hu)]
        rw [hmap, flatMap_singleton']
      rw [hkept]
      exact ⟨[c], by simp [ofChars]⟩

theorem sanitizeString_wellFormed {s : QString} (hs : QString.WellFormed s) :
    ∃ rest, sanitizeString s = unit '"' :: rest ∧ QString.WellFormed rest := by
  refine ⟨_, rfl, QString.WellFormed.append ?_ ⟨['"'], rfl⟩⟩
  iterate 7 refine wellFormed_replace (by decide) (by decide) ?_
  exact hs

theorem stringLoop_plain (acc s rest : QString)
    (hs : ∀ c ∈ s, c ≠ unit '"' ∧ c ≠ QString.unit '\\') :
    stringLoop qt acc (s ++ QString.unit '"' :: rest) = (acc ++ s, rest, true) := by
  induction s generalizing acc with
  | nil =>
    rw [nil_append, append_nil]
    exact stringLoop_quote qt acc rest
  | cons c s ih =>
    have hc := hs c mem_cons_self
    have hassoc : acc ++ c :: s = (acc ++ [c]) ++ s := by simp
    rw [cons_append, stringLoop_unit qt acc _ hc.1 hc.2, hassoc]
    exact ih (acc ++ [c]) fun d hd => hs d (mem_cons_of_mem c hd)

theorem lookAhead_sanitizeString (s rest : QString) :
    lookAhead (sanitizeString s ++ rest) = .string := by
  rw [sanitizeString_eq]
  rfl

/-! ## UTF-8 of a sanitized text -/

theorem mem_escape {c u : QChar} (hu : u ∈ escape c) : u = c ∨ isSurrogate u = false := by
  have hascii : ∀ s : String, ((ofLatin1 s).all fun u => !isSurrogate u) = true → u ∈ ofLatin1 s →
      isSurrogate u = false := by
    intro s hall hmem
    have hnot := all_eq_true.mp hall u hmem
    rwa [Bool.not_eq_true'] at hnot
  unfold escape at hu
  split_ifs at hu
  · exact .inr (hascii _ (by decide) hu)
  · exact .inr (hascii _ (by decide) hu)
  · exact .inr (hascii _ (by decide) hu)
  · exact .inr (hascii _ (by decide) hu)
  · exact .inr (hascii _ (by decide) hu)
  · exact .inr (hascii _ (by decide) hu)
  · exact .inr (hascii _ (by decide) hu)
  · exact .inl (mem_singleton.mp hu)

theorem escape_of_isSurrogate (hc : isSurrogate c = true) : escape c = [c] := by
  have hne : ∀ x : QChar, isSurrogate x = false → c ≠ x := by
    rintro x hx rfl
    rw [hc] at hx
    cases hx
  unfold escape
  rw [if_neg (hne _ (by decide)), if_neg (hne _ (by decide)), if_neg (hne _ (by decide)),
    if_neg (hne _ (by decide)), if_neg (hne _ (by decide)), if_neg (hne _ (by decide)),
    if_neg (hne _ (by decide))]

theorem head?_escape {c v : QChar} (rest : QString) (hv : isSurrogate v = true)
    (h : (escape c ++ rest).head? = some v) : c = v := by
  rcases escape_cases c with ⟨e, hescape, -, -⟩ | ⟨hescape, -, -⟩
  · rw [hescape] at h
    cases h
    exact absurd hv (by decide)
  · rw [hescape] at h
    exact Option.some.inj h

theorem toChars_append_of_plain {s : QString} (hs : ∀ u ∈ s, isSurrogate u = false)
    (rest : QString) :
    toChars (s ++ rest) = s.map loneChar ++ toChars rest := by
  induction s with
  | nil => rfl
  | cons u s ih =>
    have hpair : ¬ QString.Pairs u (s ++ rest) := by
      rintro ⟨hhigh, -⟩
      have hnot := hs u mem_cons_self
      rw [isSurrogate_of_high hhigh] at hnot
      cases hnot
    rw [cons_append, toChars_of_not_pairs hpair, ih fun v hv => hs v (mem_cons_of_mem u hv)]
    rfl

theorem toChars_cons_of_plain {u : QChar} (hu : isSurrogate u = false) (rest : QString) :
    toChars (u :: rest) = loneChar u :: toChars rest :=
  toChars_append_of_plain (forall_mem_singleton.mpr hu) rest

/-- **Escaping and repairing**: the characters of an escaped text are those of the escaped
repaired text. -/
theorem toChars_escape_repair (hc : isSurrogate c = false) (rest : QString) :
    toChars (s.flatMap escape ++ c :: rest) = toChars ((repair s).flatMap escape ++ c :: rest) := by
  induction s using unit_induction with
  | nil => rfl
  | pair u v s hu hv ih =>
    have hu' := escape_of_isSurrogate (isSurrogate_of_high hu)
    have hv' := escape_of_isSurrogate (isSurrogate_of_low hv)
    have hboth : (isHighSurrogate u && isLowSurrogate v) = true := by
      rw [hu, hv]
      rfl
    rw [repair_pair hu hv]
    simp only [flatMap_cons, hu', hv', cons_append, nil_append]
    rw [toChars, if_pos hboth, ih, toChars, if_pos hboth]
  | lone u s h ih =>
    rw [repair_of_not_pairs h, flatMap_cons, flatMap_cons, append_assoc, append_assoc]
    by_cases hu : isSurrogate u = true
    · -- what follows the unit starts as the text behind it does, or with an escape
      have hpair : ¬ QString.Pairs u (s.flatMap escape ++ c :: rest) := by
        rintro ⟨hhigh, v, hv, hlow⟩
        have hsurrogate := isSurrogate_of_low hlow
        cases s with
        | nil =>
          cases hv
          rw [hsurrogate] at hc
          cases hc
        | cons w s =>
          rw [flatMap_cons, append_assoc] at hv
          have hw := head?_escape _ hsurrogate hv
          exact h ⟨hhigh, w, rfl, by rwa [hw]⟩
      have hlone : loneChar u = '?' := if_pos hu
      have hunit : repairUnit u = unit '?' := if_pos hu
      have hmark : escape (unit '?') = [unit '?'] := by decide
      have hplain : isSurrogate (unit '?') = false := by decide
      rw [escape_of_isSurrogate hu, hunit, hmark, singleton_append, singleton_append,
        toChars_of_not_pairs hpair, toChars_cons_of_plain hplain, ih, hlone]
      rfl
    · have hunit : repairUnit u = u := if_neg hu
      have hescape : ∀ v ∈ escape u, isSurrogate v = false := by
        intro v hv
        rcases mem_escape hv with rfl | hv
        · simpa using hu
        · exact hv
      rw [hunit, toChars_append_of_plain hescape, ih, toChars_append_of_plain hescape]

theorem toUtf8_sanitizeString_repair :
    toUtf8 (sanitizeString s) = toUtf8 (sanitizeString (repair s)) := by
  have hquote : isSurrogate (unit '"') = false := by decide
  have hchars : ∀ t : QString, QString.toChars (QString.unit '"' :: t) =
      '"' :: toChars t := fun t => toChars_cons_of_plain hquote t
  unfold toUtf8
  rw [sanitizeString_eq, sanitizeString_eq, hchars, hchars, toChars_escape_repair s (by decide) []]

end Json
end DeconzRest

import DeconzRest.Cj.Defects
import DeconzRest.Cj.Loop
import DeconzRest.Cj.Utf8

/-!
# What the parser accepts

A text is accepted when it is valid UTF-8, its tokens fit into the token array, and
either its tokens are a lenient sequence or it is nothing but the beginning of a
literal or a number.  The JSON texts are among the accepted ones, and the others are
those with a `Defect` or with a primitive that breaks off.
-/

namespace DeconzRest
namespace Cj

open Rfc8259 List

variable {n : Nat}

variable {json : List UInt8}

theorem parseInit_ok (hne : json ≠ []) (hn : 8 ≤ n) : (parseInit json n).status = .ok := by
  have hlength : json.length ≠ 0 := mt length_eq_zero_iff.mp hne
  have hinit : ¬ (json.length = 0 ∨ n < 8) := by omega
  unfold parseInit
  rw [if_neg hinit]

theorem parse_of_not_utf8 (hne : json ≠ []) (hn : 8 ≤ n) (hutf8 : ¬ ValidUtf8 json) :
    ∃ ctx, parse (parseInit json n) = some ctx ∧ ctx.status ≠ .ok ∧ ctx.tokens = [] := by
  obtain ⟨status, hstatus, hiff⟩ := isValidUtf8_spec hne
  have hbad : status ≠ .ok := mt hiff.mp hutf8
  have hvalid : isValidUtf8 (parseInit json n).buf (parseInit json n).size = some status := hstatus
  refine ⟨{ parseInit json n with status := status }, ?_, hbad, rfl⟩
  unfold parse
  rw [if_neg (not_not_intro (parseInit_ok hne hn)), hvalid]
  simp only [Option.bind_eq_bind, Option.bind_some, if_pos hbad]

theorem parse_of_utf8 {json text : List UInt8} (hne : json ≠ []) (hn : 8 ≤ n)
    (hutf8 : ValidUtf8 json)
    (htrim : trimTrailingWhitespace json json.length = some text.length) {s : Locals}
    {status : Status} (hloop : parseLoop json text.length n (n + 1) {} = some (s, status))
    (result : Status) (hresult : if status = .ok then finalStatus s = some result
      else result = status) :
    parse (parseInit json n) = some { parseInit json n with
      size := text.length, pos := s.pos, tokens := s.tokens, status := result } := by
  obtain ⟨valid, hvalid, hiff⟩ := isValidUtf8_spec hne
  have hok : valid = .ok := hiff.mpr hutf8
  subst hok
  have hvalid' : isValidUtf8 (parseInit json n).buf (parseInit json n).size = some .ok := hvalid
  have htrim' : trimTrailingWhitespace (parseInit json n).buf (parseInit json n).size =
      some text.length := htrim
  have hloop' : parseLoop (parseInit json n).buf text.length (parseInit json n).tokensSize
      ((parseInit json n).tokensSize + 1) {} = some (s, status) := hloop
  unfold parse
  rw [if_neg (not_not_intro (parseInit_ok hne hn)), hvalid']
  simp only [Option.bind_eq_bind, Option.bind_some, ne_eq, not_true_eq_false, if_false, htrim',
    hloop']
  by_cases hstatus : status = .ok
  · rw [if_pos hstatus] at hresult ⊢
    rw [hresult]
    rfl
  · rw [if_neg hstatus] at hresult ⊢
    rw [hresult]

theorem exists_trimmed (json : List UInt8) :
    ∃ text trailing, json = text ++ trailing ∧ (∀ b ∈ trailing, isWhiteSpace b = true) ∧
      (text = [] ∨ Trimmed text) ∧
      trimTrailingWhitespace json json.length = some text.length := by
  have h := trimTrailingWhitespace_eq json []
  rw [append_nil] at h
  exact h

theorem view_text (text trailing : List UInt8) : View (text ++ trailing) text.length 0 text :=
  ⟨(Nat.zero_add _).symm, [], trailing, rfl, rfl⟩

theorem parseLoop_blank (hne : json ≠ []) (hn : 0 < n) :
    ∃ s, parseLoop json 0 n (n + 1) {} = some (s, .invalidToken) ∧ s.tokens.length = 1 := by
  cases json with
  | nil => exact absurd rfl hne
  | cons c rest =>
    obtain ⟨tok, hnext, htype⟩ := nextToken_empty c rest
    obtain ⟨s', hturn, hlength⟩ := @turn_invalid _ _ n {} _ _ hnext htype hn
    refine ⟨s', ?_, hlength⟩
    unfold parseLoop
    rw [hturn]
    rfl

/-! ## Accepted texts are lenient -/

theorem lenient_primitive {ks : List Kind} (h : Lenient (ks ++ [.primitive])) : ks = [] := by
  obtain ⟨hks, hprimitive⟩ := (admissible_concat ks .primitive).mp h.admissible
  obtain ⟨harray, hobject, hlength⟩ := length_openStack hks
  have hnone : .beginArray ∉ ks ++ [.primitive] ∧ .beginObject ∉ ks ++ [.primitive] := by
    rw [← not_or]
    intro hmem
    obtain ⟨k, hk, hclose⟩ := h.last hmem
    rw [List.getLast?_concat] at hk
    rw [← Option.some.inj hk] at hclose
    exact absurd hclose (by decide)
  have harrays : ks.count .beginArray = 0 :=
    count_eq_zero.mpr fun hmem => hnone.1 (mem_append_left _ hmem)
  have hobjects : ks.count .beginObject = 0 :=
    count_eq_zero.mpr fun hmem => hnone.2 (mem_append_left _ hmem)
  rcases eq_nil_or_concat ks with rfl | ⟨front, a, rfl⟩
  · rfl
  · exfalso
    rw [concat_eq_append] at *
    obtain ⟨hfront, ha⟩ := (admissible_concat front a).mp hks
    have hadjacent := hprimitive.adjacent a List.getLast?_concat
    obtain ⟨-, -, hfrontLength⟩ := length_openStack hfront
    rw [count_append] at harrays hobjects
    have hopen : openStack front = [] := by
      rw [← length_eq_zero_iff]
      omega
    cases a with
    | nameSeparator =>
      have hcolon := ha.colon rfl
      rw [hopen] at hcolon
      exact absurd hcolon (by decide)
    | valueSeparator => exact ha.comma rfl hopen
    | beginArray => exact hnone.1 (by simp)
    | beginObject => exact hnone.2 (by simp)
    | endArray =>
      have hlt := ha.endsArray rfl
      omega
    | endObject =>
      have hlt := ha.endsObject rfl
      omega
    | _ => exact absurd hadjacent (by decide)

/-- What an accepted text is: a lenient layout whose tokens fit into the array, or the
beginning of a primitive, and white space behind it. -/
def Accepted (n : Nat) (json text : List UInt8) : Prop :=
  ValidUtf8 json ∧ Trimmed text ∧
    (∃ trailing, json = text ++ trailing ∧ ∀ b ∈ trailing, isWhiteSpace b = true) ∧
    ((∃ pieces, text = layoutText pieces ∧ pieces.length ≤ n ∧ Lenient (layoutKinds pieces)) ∨
      (∃ gap tail, text = gap ++ tail ∧ (∀ b ∈ gap, isWhiteSpace b = true) ∧ Truncated tail))

/-- The parser always ends, with tokens that fit into the array, and what it reports
no error for is an accepted text. -/
theorem parse_sound (hne : json ≠ []) (hn : 8 ≤ n) :
    ∃ ctx, parse (parseInit json n) = some ctx ∧ ctx.tokens.length ≤ n ∧
      (ctx.status = .ok → ∃ text, ctx.size = text.length ∧ Accepted n json text) := by
  by_cases hutf8 : ValidUtf8 json
  · obtain ⟨text, trailing, hjson, hws, htext, htrim⟩ := exists_trimmed json
    rcases htext with rfl | htext
    · obtain ⟨s, hloop, hlength⟩ := @parseLoop_blank n json hne (by omega)
      have hparse := parse_of_utf8 hne hn hutf8 htrim hloop .invalidToken rfl
      refine ⟨_, hparse, ?_, fun habsurd => absurd habsurd (by simp)⟩
      show s.tokens.length ≤ n
      omega
    · have hview : View json text.length 0 text := by
        rw [hjson]
        exact view_text text trailing
      obtain ⟨s, status, hloop, hlength, hsound⟩ :=
        @parseLoop_sound _ _ n _ hview htext (n + 1) (by omega)
      by_cases hstatus : status = .ok
      · subst hstatus
        rcases hsound rfl with ⟨pieces, hpieces, hprogress⟩ |
          ⟨pieces, gap, tail, hpieces, hgap, htail, hadmissible, htracks⟩
        · have hne' : layoutKinds pieces ≠ [] := by
            intro hnil
            rw [layoutKinds, map_eq_nil_iff] at hnil
            rw [hnil] at hpieces
            exact htext.ne_nil hpieces
          obtain ⟨result, hfinal, hiff⟩ :=
            finalStatus_spec hprogress.tracks hprogress.admissible hne'
          have hparse := parse_of_utf8 hne hn hutf8 htrim hloop result hfinal
          refine ⟨_, hparse, hlength, fun hok => ⟨text, rfl, hutf8, htext, ⟨trailing, hjson, hws⟩,
            .inl ⟨pieces, hpieces, ?_, hiff.mp hok⟩⟩⟩
          rw [← hprogress.length_eq]
          exact hlength
        · obtain ⟨result, hfinal, hiff⟩ := finalStatus_spec htracks hadmissible (by simp)
          have hparse := parse_of_utf8 hne hn hutf8 htrim hloop result hfinal
          refine ⟨_, hparse, hlength, fun hok => ⟨text, rfl, hutf8, htext, ⟨trailing, hjson, hws⟩,
            .inr ⟨gap, tail, ?_, hgap, htail⟩⟩⟩
          have hnil := lenient_primitive (hiff.mp hok)
          rw [layoutKinds, map_eq_nil_iff] at hnil
          rw [hpieces, hnil]
          rfl
      · have hresult : if status = .ok then finalStatus s = some status else status = status := by
          rw [if_neg hstatus]
        have hparse := parse_of_utf8 hne hn hutf8 htrim hloop status hresult
        exact ⟨_, hparse, hlength, fun hok => absurd hok hstatus⟩
  · obtain ⟨ctx, hctx, hstatus, htokens⟩ := parse_of_not_utf8 hne hn hutf8
    refine ⟨ctx, hctx, ?_, fun hok => absurd hok hstatus⟩
    rw [htokens]
    exact Nat.zero_le n

/-! ## Lenient texts are accepted -/

theorem trimmed_unique {text text' trailing trailing' : List UInt8}
    (heq : text ++ trailing = text' ++ trailing') (htext : Trimmed text)
    (htext' : Trimmed text') (hws : ∀ b ∈ trailing, isWhiteSpace b = true)
    (hws' : ∀ b ∈ trailing', isWhiteSpace b = true) : text = text' := by
  obtain ⟨front, c, rfl, hc⟩ := htext
  obtain ⟨front', c', rfl, hc'⟩ := htext'
  have hreverse := congrArg List.reverse heq
  simp only [reverse_append, reverse_singleton, singleton_append] at hreverse
  obtain ⟨-, hrest⟩ := gap_unique hreverse (fun b hb => hws b (mem_reverse.mp hb))
    (fun b hb => hws' b (mem_reverse.mp hb)) hc hc'
  have hback := congrArg List.reverse hrest
  simpa using hback

theorem trim_eq {text trailing : List UInt8} (htext : Trimmed text)
    (hws : ∀ b ∈ trailing, isWhiteSpace b = true) :
    trimTrailingWhitespace (text ++ trailing) (text ++ trailing).length = some text.length := by
  obtain ⟨text', trailing', heq, hws', htext', htrim⟩ := exists_trimmed (text ++ trailing)
  rcases htext' with rfl | htext'
  · obtain ⟨front, c, rfl, hc⟩ := htext
    rw [nil_append] at heq
    have hspace := hws' c (by rw [← heq]; simp)
    rw [hspace] at hc
    exact absurd hc (by decide)
  · rw [htrim, trimmed_unique heq htext htext' hws hws']

theorem parse_layout {pieces : List Placed} (hutf8 : ValidUtf8 json) (hreads : ReadsAs pieces json)
    (hlenient : Lenient (layoutKinds pieces)) (hn : 8 ≤ n) (hfits : pieces.length ≤ n) :
    ∃ ctx, parse (parseInit json n) = some ctx ∧ ctx.status = .ok ∧ ctx.size =
      (layoutText pieces).length ∧ spans ctx.tokens = layoutSpans 0 pieces := by
  obtain ⟨trailing, hws, rfl⟩ := hreads
  have hpieces : pieces ≠ [] := by
    rintro rfl
    exact hlenient.nonempty rfl
  have hws' : ∀ b ∈ trailing, isWhiteSpace b = true := by
    intro b hb
    rw [isWhiteSpace_eq]
    exact hws b hb
  have htext := layout_trimmed hpieces
  have hne : layoutText pieces ++ trailing ≠ [] := append_ne_nil_of_left_ne_nil htext.ne_nil _
  have hstart := progress_start (view_text (layoutText pieces) trailing)
  obtain ⟨s, hloop, hprogress⟩ := @parseLoop_complete _ _ n _ _ _ (n + 1) hstart hpieces
    hlenient.admissible (by simpa using hfits) (by omega)
  obtain ⟨result, hfinal, hiff⟩ :=
    finalStatus_spec hprogress.tracks hprogress.admissible hlenient.nonempty
  have hok : result = .ok := hiff.mpr hlenient
  subst hok
  have hparse := parse_of_utf8 hne hn hutf8 (trim_eq htext hws') hloop .ok hfinal
  exact ⟨_, hparse, rfl, rfl, hprogress.spans⟩

theorem truncated_trimmed {tail : List UInt8} (h : Truncated tail) : Trimmed tail := by
  obtain ⟨hne, -, more, hmore⟩ := h
  have hprim : Rest .init (tail ++ more) := hmore
  refine ⟨tail.dropLast, tail.getLast hne, (dropLast_append_getLast hne).symm, ?_⟩
  exact rest_no_space hprim _ (mem_append_left more (getLast_mem hne))

theorem follows_primitive : Follows [] .primitive :=
  ⟨by simp, by simp, by simp, by simp, by simp, by simp⟩

theorem parseLoop_truncated {buf gap tail : List UInt8} {size fuel : Nat}
    (hview : View buf size 0 (gap ++ tail)) (hgap : ∀ b ∈ gap, isWhiteSpace b = true)
    (htail : Truncated tail) (hn : 0 < n) :
    ∃ s, parseLoop buf size n (fuel + 1) {} = some (s, .ok) ∧ Tracks s [.primitive] := by
  obtain ⟨s, status, hturn, -, hiff, hnew⟩ :=
    @turn_of_truncated _ _ n _ _ _ _ (progress_start hview) hgap htail hn
  have hok : status = .ok := hiff.mpr follows_primitive
  subst hok
  obtain ⟨htracks, hpos⟩ := hnew rfl
  refine ⟨s, ?_, htracks⟩
  unfold parseLoop
  rw [hturn]
  simp [hpos]

theorem parse_truncated {gap tail trailing : List UInt8}
    (hutf8 : ValidUtf8 (gap ++ tail ++ trailing)) (hgap : ∀ b ∈ gap, isWhiteSpace b = true)
    (hws : ∀ b ∈ trailing, isWhiteSpace b = true) (htail : Truncated tail) (hn : 8 ≤ n) :
    ∃ ctx, parse (parseInit (gap ++ tail ++ trailing) n) = some ctx ∧ ctx.status = .ok ∧ ctx.size =
      (gap ++ tail).length := by
  have htext : Trimmed (gap ++ tail) := (truncated_trimmed htail).append
  have hne : gap ++ tail ++ trailing ≠ [] := append_ne_nil_of_left_ne_nil htext.ne_nil _
  obtain ⟨s, hloop, htracks⟩ := @parseLoop_truncated n _ _ _ _ n
    (view_text (gap ++ tail) trailing) hgap htail (by omega)
  have hadmissible : Admissible [.primitive] :=
    (admissible_concat [] .primitive).mpr ⟨admissible_nil, follows_primitive⟩
  obtain ⟨result, hfinal, hresult⟩ := finalStatus_spec htracks hadmissible (by simp)
  have hlenient : Lenient [.primitive] :=
    ⟨by simp, hadmissible, rfl, rfl, by simp, .inl rfl⟩
  have hresultOk : result = .ok := hresult.mpr hlenient
  subst hresultOk
  have hparse := parse_of_utf8 hne hn hutf8 (trim_eq htext hws) hloop .ok hfinal
  exact ⟨_, hparse, rfl, rfl⟩

/-- The parser ends for every text and every token array, whatever it reads is in the
text and in the tokens that are allocated, and these fit into the array.  At a closing
bracket that passes the depth check the current parent is one of them. -/
theorem parse_in_bounds {json : List UInt8} (hne : json ≠ []) (hn : 8 ≤ n) :
    (∃ ctx, parse (parseInit json n) = some ctx ∧ ctx.tokens.length ≤ n) ∧
      ∀ size, trimTrailingWhitespace json json.length = some size → ∀ s, Reached json size n s →
        ∀ pos tok, nextToken json size s.pos {} = some (pos, tok) →
          (tok.type = .objectEnd ∧ 0 < s.objDepth ∨ tok.type = .arrayEnd ∧ 0 < s.arrDepth) →
          ∃ i, s.tokParent = some i ∧ i < s.tokens.length := by
  constructor
  · obtain ⟨ctx, hctx, hlength, -⟩ := parse_sound hne hn
    exact ⟨ctx, hctx, hlength⟩
  · intro size hsize s hreached pos tok _ hdepth
    obtain ⟨text, trailing, hjson, -, htext, htrim⟩ := exists_trimmed json
    rw [hsize] at htrim
    obtain rfl := Option.some.inj htrim
    rcases htext with rfl | htext
    · cases hreached with
      | start => exact absurd hdepth (by simp)
      | turn _ _ hpos => exact absurd hpos (Nat.not_lt_zero _)
    · have hview : View json text.length 0 text := by
        rw [hjson]
        exact view_text text trailing
      obtain ⟨pieces, rest, -, -, hprogress, -⟩ := reached_progress hview htext hreached
      have htracks := hprogress.tracks
      obtain ⟨harray, hobject, hlength⟩ := length_openStack hprogress.admissible
      have harrays := htracks.arrays
      have hobjects := htracks.objects
      have hopen : 0 < (openStack (layoutKinds pieces)).length := by
        rcases hdepth with ⟨-, hdepth⟩ | ⟨-, hdepth⟩ <;> omega
      obtain ⟨frame, stack, hstack⟩ := exists_cons_of_length_pos hopen
      have hparents := htracks.parents
      rw [hstack] at hparents
      obtain ⟨i, t, hparent, ht, -⟩ := hparents
      exact ⟨i, hparent, (List.getElem?_eq_some_iff.mp ht).1⟩

/-- The text `[{]}`. -/
def crossedBrackets : List UInt8 := [0x5B, 0x7B, 0x5D, 0x7D]

/-- The local variables behind its two opening brackets. -/
def crossedBracketsOpen : Locals where
  tokens := [{ type := .arrayBeg, pos := 0, len := 1 },
    { type := .objectBeg, pos := 1, len := 1, parent := some 0 }]
  pos := 2
  objDepth := 1
  arrDepth := 1
  nstructures := 2
  tokParent := some 1

theorem crossedBracketsOpen_reached : Reached crossedBrackets 4 8 crossedBracketsOpen := by
  have hfirst : Reached crossedBrackets 4 8
      { tokens := [{ type := .arrayBeg, pos := 0, len := 1 }], pos := 1, arrDepth := 1,
        nstructures := 1, tokParent := some 0 } :=
    .turn .start (by decide) (by decide)
  exact .turn hfirst (by decide) (by decide)

theorem parse_in_bounds_crossedBrackets :
    (∃ ctx, parse (parseInit crossedBrackets 8) = some ctx ∧ ctx.tokens.length ≤ 8) ∧
      ∃ i, crossedBracketsOpen.tokParent = some i ∧ i < crossedBracketsOpen.tokens.length := by
  obtain ⟨hends, hparent⟩ := @parse_in_bounds 8 crossedBrackets (by decide) (by decide)
  refine ⟨hends, ?_⟩
  exact hparent 4 (by decide) _ crossedBracketsOpen_reached 3
    { type := .arrayEnd, pos := 2, len := 1 } (by decide) (.inr (by decide))

def valueText (lex : Lexeme) : List UInt8 :=
  match lex.kind with
  | .string => lex.text.tail.dropLast
  | _ => lex.text

def tokenText (json : List UInt8) (tok : Token) : List UInt8 :=
  (json.drop tok.pos).take tok.len

theorem valueText_eq (lex : Lexeme) (before after : List UInt8) :
    ((before ++ (lex.text ++ after)).drop (before.length + (valueSpan lex).1)).take
      (valueSpan lex).2 = valueText lex := by
  obtain ⟨kind, text, hlex⟩ := lex
  cases kind with
  | string =>
    obtain ⟨body, rfl, -⟩ := hlex
    have hdrop : (before ++ (0x22 :: (body ++ [0x22]) ++ after)).drop (before.length + 1) = body ++
        ([0x22] ++ after) := by
      rw [List.drop_append, drop_eq_nil_of_le (by omega)]
      simp
    simp only [valueSpan, valueText]
    rw [hdrop]
    simp
  | _ =>
    simp [valueSpan, valueText]

theorem layoutSpans_text (pieces : List Placed) (before after : List UInt8) :
    (layoutSpans before.length pieces).map
      (fun span => ((before ++ (layoutText pieces ++ after)).drop span.2.1).take span.2.2) =
        pieces.map fun p => valueText p.lexeme := by
  induction pieces generalizing before with
  | nil => rfl
  | cons p pieces ih =>
    have htail := ih (before ++ (p.gap ++ p.lexeme.text))
    have hhead := valueText_eq p.lexeme (before ++ p.gap) (layoutText pieces ++ after)
    rw [layoutSpans, map_cons, map_cons]
    simp only [append_assoc, List.length_append, layoutText_cons] at htail hhead ⊢
    rw [hhead, htail]

/-- A JSON text whose tokens fit into the array is accepted, and its tokens are those
of the text, in order, each with the place of its value. -/
theorem parse_complete {pieces : List Placed} {json : List UInt8} (hutf8 : ValidUtf8 json)
    (hreads : ReadsAs pieces json) (hvalue : Derives .value (layoutKinds pieces)) (hn : 8 ≤ n)
    (hfits : pieces.length ≤ n) :
    ∃ ctx, parse (parseInit json n) = some ctx ∧ ctx.status = .ok ∧ spans ctx.tokens =
      layoutSpans 0 pieces ∧
      ctx.tokens.map (tokenText json) = pieces.map fun p => valueText p.lexeme := by
  obtain ⟨ctx, hctx, hok, -, hspans⟩ :=
    parse_layout hutf8 hreads (lenient_of_derives hvalue) hn hfits
  refine ⟨ctx, hctx, hok, hspans, ?_⟩
  obtain ⟨trailing, -, rfl⟩ := hreads
  have htexts := layoutSpans_text pieces [] trailing
  rw [length_nil, ← hspans, nil_append, spans, map_map] at htexts
  exact htexts

/-- The tokens of the text ` {"a": [0]}`. -/
def nestedSample : List Placed :=
  [⟨[0x20], by simp [isWs], .beginObject⟩,
    .ofLexeme ⟨.string, [0x22, 0x61, 0x22], [0x61], rfl,
      .unescaped (by decide) (by decide) (by decide) .nil⟩,
    .ofLexeme .nameSeparator,
    ⟨[0x20], by simp [isWs], .beginArray⟩,
    .ofLexeme ⟨.primitive, [0x30],
      .inr (.inr (.inr ⟨[], [0x30], [], [], rfl, .inl rfl, .inl rfl, .inl rfl, .inl rfl⟩))⟩,
    .ofLexeme .endArray,
    .ofLexeme .endObject]

theorem parse_complete_nestedSample :
    ∃ ctx, parse (parseInit (layoutText nestedSample ++ [0x0A]) 8) = some ctx ∧ ctx.status = .ok ∧
      spans ctx.tokens = [(.objectBeg, 1, 1), (.string, 3, 1), (.nameSep, 5, 1), (.arrayBeg, 7, 1),
        (.primitive, 8, 1), (.arrayEnd, 9, 1), (.objectEnd, 10, 1)] ∧
      ctx.tokens.map (tokenText (layoutText nestedSample ++ [0x0A])) =
        [[0x7B], [0x61], [0x3A], [0x5B], [0x30], [0x5D], [0x7D]] := by
  refine parse_complete ?_ ⟨[0x0A], by simp [isWs], rfl⟩
    (.object (.member (.array (.element .primitive)))) (by decide) (by decide)
  exact ⟨[' ', '\x7b', '"', 'a', '"', ':', ' ', '[', '0', ']', '\x7d', '\n'], by decide⟩

end Cj
end DeconzRest

import DeconzRest.Cj.Checks

/-!
# The token loop

`Progress` says how far the loop of `cj_parse` is: the tokens allocated so far are
those of a layout, its octets have been passed, and the rest of the text is in
front.  One turn takes one more token of the text or leaves the loop
(`turn_of_progress`), and a token that is there and follows is taken
(`turn_of_piece`).

The text has no white space at its end, so a turn always has an octet to look at
behind the white space it skips.
-/

namespace DeconzRest
namespace Cj

open Rfc8259 List Option

variable {buf : List UInt8} {size n : Nat}

/-! ## Texts without trailing white space -/

/-- The text has a last octet, which is no white space. -/
def Trimmed (text : List UInt8) : Prop :=
  ∃ front c, text = front ++ [c] ∧ isWhiteSpace c = false

theorem Trimmed.ne_nil {text : List UInt8} (h : Trimmed text) : text ≠ [] := by
  obtain ⟨front, c, rfl, -⟩ := h
  simp

theorem Trimmed.of_append {front text : List UInt8} (h : Trimmed (front ++ text))
    (hne : text ≠ []) : Trimmed text := by
  obtain ⟨outer, c, heq, hc⟩ := h
  rcases eq_nil_or_concat text with rfl | ⟨inner, d, rfl⟩
  · exact absurd rfl hne
  · rw [concat_eq_append] at heq ⊢
    rw [← append_assoc] at heq
    obtain ⟨-, hd⟩ := append_inj' heq rfl
    rw [singleton_inj.mp hd]
    exact ⟨inner, c, rfl, hc⟩

theorem exists_gap {text : List UInt8} (h : Trimmed text) :
    ∃ gap c rest, text = gap ++ c :: rest ∧ (∀ b ∈ gap, isWhiteSpace b = true) ∧ isWhiteSpace c =
      false := by
  induction text with
  | nil => exact absurd rfl h.ne_nil
  | cons b text ih =>
    cases hb : isWhiteSpace b with
    | false => exact ⟨[], b, text, rfl, by simp, hb⟩
    | true =>
      have hne : text ≠ [] := by
        rintro rfl
        obtain ⟨front, c, heq, hc⟩ := h
        have hlast : [b].getLast? = (front ++ [c]).getLast? := congrArg List.getLast? heq
        rw [List.getLast?_concat, List.getLast?_singleton] at hlast
        rw [← some.inj hlast, hb] at hc
        exact absurd hc (by decide)
      have htrimmed : Trimmed text := @Trimmed.of_append [b] text h hne
      obtain ⟨gap, c, rest, rfl, hgap, hc⟩ := ih htrimmed
      refine ⟨b :: gap, c, rest, rfl, ?_, hc⟩
      intro x hx
      rcases mem_cons.mp hx with rfl | hx
      · exact hb
      · exact hgap x hx

theorem gap_unique {gap gap' rest rest' : List UInt8} {c c' : UInt8}
    (heq : gap ++ c :: rest = gap' ++ c' :: rest') (hgap : ∀ b ∈ gap, isWhiteSpace b = true)
    (hgap' : ∀ b ∈ gap', isWhiteSpace b = true) (hc : isWhiteSpace c = false)
    (hc' : isWhiteSpace c' = false) : gap = gap' ∧ c :: rest = c' :: rest' := by
  induction gap generalizing gap' with
  | nil =>
    cases gap' with
    | nil => exact ⟨rfl, heq⟩
    | cons b gap' =>
      obtain ⟨rfl, -⟩ := List.cons.inj heq
      rw [hgap' c mem_cons_self] at hc
      exact absurd hc (by decide)
  | cons b gap ih =>
    cases gap' with
    | nil =>
      obtain ⟨rfl, -⟩ := List.cons.inj heq
      rw [hgap b mem_cons_self] at hc'
      exact absurd hc' (by decide)
    | cons b' gap' =>
      obtain ⟨rfl, htail⟩ := List.cons.inj heq
      obtain ⟨rfl, hrest⟩ := ih htail (fun x hx => hgap x (mem_cons_of_mem b hx))
        (fun x hx => hgap' x (mem_cons_of_mem b hx))
      exact ⟨rfl, hrest⟩

theorem trimTrailingWhitespace_eq (front more : List UInt8) :
    ∃ text trailing, front = text ++ trailing ∧ (∀ b ∈ trailing, isWhiteSpace b = true) ∧
      (text = [] ∨ Trimmed text) ∧
      trimTrailingWhitespace (front ++ more) front.length = some text.length := by
  induction front using List.reverseRecOn generalizing more with
  | nil => exact ⟨[], [], rfl, by simp, .inl rfl, rfl⟩
  | append_singleton front c ih =>
    have hread : (front ++ [c] ++ more)[front.length]? = some c := by
      rw [append_assoc, List.getElem?_append_right (Nat.le_refl _), Nat.sub_self]
      rfl
    have hstep : trimTrailingWhitespace (front ++ [c] ++ more) (front ++ [c]).length =
        if isWhiteSpace c then trimTrailingWhitespace (front ++ [c] ++ more) front.length
        else some (front.length + 1) := by
      rw [List.length_append, length_singleton]
      conv_lhs => unfold trimTrailingWhitespace
      rw [hread]
      rfl
    rw [hstep]
    cases hc : isWhiteSpace c with
    | true =>
      obtain ⟨text, trailing, htext, hws, htrimmed, htrim⟩ := ih ([c] ++ more)
      refine ⟨text, trailing ++ [c], by rw [htext, append_assoc], ?_, htrimmed, ?_⟩
      · intro b hb
        rcases mem_append.mp hb with hb | hb
        · exact hws b hb
        · rw [mem_singleton.mp hb]
          exact hc
      · rw [if_pos rfl, append_assoc]
        exact htrim
    | false =>
      refine ⟨front ++ [c], [], by simp, by simp, .inr ⟨front, c, rfl, hc⟩, ?_⟩
      rw [if_neg (by decide), List.length_append, length_singleton]

theorem primNext_space {ch : UInt8} (h : isWhiteSpace ch = true) (prim : PrimState) :
    primNext prim ch = .init := by
  simp only [isWhiteSpace, Bool.or_eq_true, decide_eq_true_eq] at h
  rcases h with ((rfl | rfl) | rfl) | rfl <;> cases prim <;> decide

theorem rest_no_space {prim : PrimState} {l : List UInt8} (h : Rest prim l) :
    ∀ b ∈ l, isWhiteSpace b = false := by
  induction l generalizing prim with
  | nil => exact fun b hb => absurd hb not_mem_nil
  | cons ch l ih =>
    obtain ⟨hinit, hrest⟩ := (rest_cons prim ch l).mp h
    intro b hb
    rcases mem_cons.mp hb with rfl | hb
    · cases hspace : isWhiteSpace b with
      | false => rfl
      | true => exact absurd (primNext_space hspace prim) hinit
    · exact ih hrest b hb

theorem lexeme_dark (lex : Lexeme) :
    (∃ c rest, lex.text = c :: rest ∧ isWhiteSpace c = false) ∧ Trimmed lex.text := by
  obtain ⟨kind, text, hlex⟩ := lex
  cases kind with
  | string =>
    obtain ⟨body, rfl, -⟩ := hlex
    exact ⟨⟨_, _, rfl, by decide⟩, 0x22 :: body, 0x22, rfl, by decide⟩
  | primitive =>
    have hprim : Rest .init text := hlex
    have hdark := rest_no_space hprim
    cases text with
    | nil => exact absurd ((rest_nil .init).mp hprim) (by decide)
    | cons c rest =>
      refine ⟨⟨c, rest, rfl, hdark c mem_cons_self⟩, ?_⟩
      have hne : c :: rest ≠ [] := cons_ne_nil c rest
      refine ⟨(c :: rest).dropLast, (c :: rest).getLast hne, ?_, ?_⟩
      · exact (dropLast_append_getLast hne).symm
      · exact hdark _ (getLast_mem hne)
  | _ =>
    have htext : text = _ := hlex
    subst htext
    exact ⟨⟨_, _, rfl, by decide⟩, [], _, rfl, by decide⟩

theorem Trimmed.append {front text : List UInt8} (h : Trimmed text) : Trimmed (front ++ text) := by
  obtain ⟨inner, c, rfl, hc⟩ := h
  exact ⟨front ++ inner, c, by rw [append_assoc], hc⟩

theorem layout_trimmed {pieces : List Placed} (h : pieces ≠ []) : Trimmed (layoutText pieces) := by
  induction pieces with
  | nil => exact absurd rfl h
  | cons p pieces ih =>
    rw [layoutText_cons]
    cases pieces with
    | nil =>
      rw [layoutText_nil, append_nil]
      exact (lexeme_dark p.lexeme).2.append
    | cons q pieces => exact (ih (cons_ne_nil q pieces)).append.append

theorem layoutText_append (xs ys : List Placed) :
    layoutText (xs ++ ys) = layoutText xs ++ layoutText ys := by
  simp [layoutText]

theorem layoutKinds_append (xs ys : List Placed) :
    layoutKinds (xs ++ ys) = layoutKinds xs ++ layoutKinds ys := by
  simp [layoutKinds]

def spans (tokens : List Token) : List (TokenType × Nat × Nat) :=
  tokens.map fun tok => (tok.type, tok.pos, tok.len)

/-- Type, position and length of the values of a layout that starts at `pos`. -/
def layoutSpans : Nat → List Placed → List (TokenType × Nat × Nat)
  | _, [] => []
  | pos, p :: pieces =>
    (kindType p.lexeme.kind, pos + p.gap.length + (valueSpan p.lexeme).1, (valueSpan p.lexeme).2) ::
      layoutSpans (pos + (p.gap.length + p.lexeme.text.length)) pieces

theorem layoutSpans_concat (pos : Nat) (pieces : List Placed) (p : Placed) :
    layoutSpans pos (pieces ++ [p]) = layoutSpans pos pieces ++
      [(kindType p.lexeme.kind, pos + (layoutText pieces).length + p.gap.length +
        (valueSpan p.lexeme).1, (valueSpan p.lexeme).2)] := by
  induction pieces generalizing pos with
  | nil => simp [layoutSpans]
  | cons q pieces ih =>
    rw [cons_append, layoutSpans, layoutSpans, ih, cons_append, layoutText_cons, List.length_append,
      List.length_append]
    simp only [Nat.add_assoc]

theorem Kept.spans_eq {s : Locals} {tok : Token} {ks : List Kind} {k : Kind} {t : Turn}
    (h : Kept s tok ks k t) :
    spans (t.s.tokens ++ [t.tok]) = spans s.tokens ++ [(tok.type, tok.pos, tok.len)] := by
  have htype : t.tok.type = tok.type := by rw [h.token]
  have hpos : t.tok.pos = tok.pos := by rw [h.token]
  have hlen : t.tok.len = tok.len := by rw [h.token]
  rw [h.tokens]
  simp only [spans, map_append, map_cons, map_nil, htype, hpos, hlen]

theorem turn_invalid {s : Locals} {p : Nat} {tok : Token}
    (hnext : nextToken buf size s.pos {} = some (p, tok)) (htype : tok.type = .invalid)
    (hn : s.tokens.length < n) :
    ∃ s', parseTurn buf size n s = some (s', .invalidToken) ∧ s'.tokens.length = s.tokens.length +
      1 := by
  unfold parseTurn
  rw [if_neg (by omega), hnext]
  simp only [bind_eq_bind, bind_some, if_pos htype]
  exact ⟨_, rfl, by simp⟩

theorem turn_token {s : Locals} {ks : List Kind} {k : Kind} {p : Nat} {tok : Token}
    (h : Tracks s ks) (hadmissible : Admissible ks)
    (hnext : nextToken buf size s.pos {} = some (p, tok)) (htype : tok.type = kindType k)
    (hn : s.tokens.length < n) :
    ∃ s' status, parseTurn buf size n s = some (s', status) ∧ s'.tokens.length = s.tokens.length +
      1 ∧ (status = .ok ↔ Follows ks k) ∧
      (status = .ok → Tracks s' (ks ++ [k]) ∧ s'.pos = p ∧ spans s'.tokens = spans s.tokens ++
        [(tok.type, tok.pos, tok.len)]) := by
  have hvalid : tok.type ≠ .invalid := by
    rw [htype]
    exact kindType_ne_invalid k
  have htracks : Tracks { s with pos := p } ks :=
    ⟨h.types, h.objects, h.arrays, h.colons, h.commas, h.structures, h.parents⟩
  have hcheck := @check_spec _ { tok with parent := s.tokParent } _ _ htracks hadmissible htype rfl
  obtain ⟨t, ht, hresult⟩ := hcheck
  have hturn : parseTurn buf size n s =
      some ({ t.s with tokens := t.s.tokens ++ [t.tok] }, t.status) := by
    unfold parseTurn
    rw [if_neg (by omega), hnext]
    simp only [bind_eq_bind, bind_some, if_neg hvalid, ht]
  refine ⟨_, _, hturn, ?_⟩
  rcases hresult with ⟨hfollows, hkept⟩ | ⟨hfollows, hstatus, htokens⟩
  · refine ⟨?_, ⟨fun _ => hfollows, fun _ => hkept.ok⟩, fun _ => ⟨hkept.tracks, hkept.pos, ?_⟩⟩
    · show (t.s.tokens ++ [t.tok]).length = _
      rw [hkept.tokens, List.length_append, length_singleton]
    · exact hkept.spans_eq
  · refine ⟨?_, ⟨fun hok => absurd hok hstatus, fun habsurd => absurd habsurd hfollows⟩,
      fun hok => absurd hok hstatus⟩
    show (t.s.tokens ++ [t.tok]).length = _
    rw [htokens, List.length_append, length_singleton]

/-! ## Progress -/

/-- The loop has read the tokens of `pieces`, and `rest` is in front of it. -/
structure Progress (buf : List UInt8) (size : Nat) (s : Locals) (pieces : List Placed)
    (rest : List UInt8) : Prop where
  tracks : Tracks s (layoutKinds pieces)
  admissible : Admissible (layoutKinds pieces)
  view : View buf size s.pos rest
  pos : s.pos = (layoutText pieces).length
  spans : spans s.tokens = layoutSpans 0 pieces

theorem progress_start {text : List UInt8} (h : View buf size 0 text) :
    Progress buf size {} [] text :=
  ⟨tracks_start, admissible_nil, h, rfl, rfl⟩

theorem Progress.length_eq {s : Locals} {pieces : List Placed} {rest : List UInt8}
    (h : Progress buf size s pieces rest) : s.tokens.length = pieces.length := by
  have hlength := congrArg List.length h.tracks.types
  rw [length_map, length_map, length_layoutKinds] at hlength
  exact hlength

theorem gap_isWhiteSpace (p : Placed) : ∀ b ∈ p.gap, isWhiteSpace b = true := by
  intro b hb
  rw [isWhiteSpace_eq]
  exact p.gap_ws b hb

theorem turn_of_piece {s : Locals} {pieces : List Placed} {p : Placed} {after : List UInt8}
    (h : Progress buf size s pieces (p.gap ++ (p.lexeme.text ++ after)))
    (hscan : scanToken (p.lexeme.text ++ after) = some (scannedLexeme p.lexeme))
    (hn : s.tokens.length < n) :
    ∃ s' status, parseTurn buf size n s = some (s', status) ∧ s'.tokens.length = s.tokens.length +
      1 ∧
      (status = .ok ↔ Follows (layoutKinds pieces) p.lexeme.kind) ∧
      (status = .ok → Progress buf size s' (pieces ++ [p]) after) := by
  obtain ⟨⟨c, rest, htext, hc⟩, -⟩ := lexeme_dark p.lexeme
  have hview : View buf size s.pos (p.gap ++ c :: (rest ++ after)) := by
    rw [← cons_append, ← htext]
    exact h.view
  obtain ⟨q, tok, hnext, hresult⟩ := nextToken_eq hview (gap_isWhiteSpace p) hc
  rw [← cons_append, ← htext, hscan] at hresult
  obtain ⟨hq, htok⟩ := hresult
  have htype : tok.type = kindType p.lexeme.kind := by rw [htok]; rfl
  obtain ⟨s', status, hturn, hlength, hiff, hnew⟩ :=
    turn_token h.tracks h.admissible hnext htype hn
  refine ⟨s', status, hturn, hlength, hiff, fun hok => ?_⟩
  obtain ⟨htracks, hpos, hspans⟩ := hnew hok
  have hq' : s'.pos = s.pos + p.gap.length + p.lexeme.text.length := hpos.trans hq
  refine ⟨?_, ?_, ?_, ?_, ?_⟩
  · rw [layoutKinds_append]
    exact htracks
  · rw [layoutKinds_append]
    exact (admissible_concat _ _).mpr ⟨h.admissible, hiff.mp hok⟩
  · rw [hq']
    exact h.view.advance.advance
  · rw [hq', h.pos, layoutText_append, List.length_append]
    simp only [layoutText_cons, layoutText_nil, append_nil, List.length_append]
    omega
  · rw [hspans, h.spans, layoutSpans_concat, htok, h.pos, Nat.zero_add]
    rfl

theorem turn_of_truncated {s : Locals} {pieces : List Placed} {gap tail : List UInt8}
    (h : Progress buf size s pieces (gap ++ tail)) (hgap : ∀ b ∈ gap, isWhiteSpace b = true)
    (htail : Truncated tail) (hn : s.tokens.length < n) :
    ∃ s' status, parseTurn buf size n s = some (s', status) ∧ s'.tokens.length = s.tokens.length +
      1 ∧
      (status = .ok ↔ Follows (layoutKinds pieces) .primitive) ∧
      (status = .ok → Tracks s' (layoutKinds pieces ++ [.primitive]) ∧ s'.pos = size) := by
  have hscan := scanToken_truncated htail
  obtain ⟨hne, -, more, hmore⟩ := htail
  cases tail with
  | nil => exact absurd rfl hne
  | cons c rest =>
    have hc := (structuralType_of_not_mem (primitive_head hmore)).2.2
    obtain ⟨q, tok, hnext, hresult⟩ := nextToken_eq h.view hgap hc
    rw [hscan] at hresult
    obtain ⟨hq, htok⟩ := hresult
    have htype : tok.type = kindType .primitive := by rw [htok]; rfl
    obtain ⟨s', status, hturn, hlength, hiff, hnew⟩ :=
      turn_token h.tracks h.admissible hnext htype hn
    refine ⟨s', status, hturn, hlength, hiff, fun hok => ?_⟩
    obtain ⟨htracks, hpos, -⟩ := hnew hok
    refine ⟨htracks, ?_⟩
    have hstop := h.view.stop_eq
    rw [List.length_append] at hstop
    rw [hpos, hq, hstop]
    show _ + (c :: rest).length = _
    omega

theorem turn_of_progress {s : Locals} {pieces : List Placed} {rest : List UInt8}
    (h : Progress buf size s pieces rest) (hrest : Trimmed rest) (hn : s.tokens.length < n) :
    ∃ s' status, parseTurn buf size n s = some (s', status) ∧ s'.tokens.length = s.tokens.length +
      1 ∧
      (status = .ok →
        (∃ p after, rest = p.gap ++ (p.lexeme.text ++ after) ∧
          Progress buf size s' (pieces ++ [p]) after) ∨
        (∃ gap tail, rest = gap ++ tail ∧ (∀ b ∈ gap, isWhiteSpace b = true) ∧ Truncated tail ∧
          Follows (layoutKinds pieces) .primitive ∧
          Tracks s' (layoutKinds pieces ++ [.primitive]) ∧ s'.pos = size)) := by
  obtain ⟨gap, c, tail, rfl, hgap, hc⟩ := exists_gap hrest
  cases hscan : scanToken (c :: tail) with
  | none =>
    obtain ⟨q, tok, hnext, hresult⟩ := nextToken_eq h.view hgap hc
    rw [hscan] at hresult
    obtain ⟨s', hturn, hlength⟩ := turn_invalid hnext hresult hn
    exact ⟨s', _, hturn, hlength, fun habsurd => absurd habsurd (by decide)⟩
  | some r =>
    rcases scanToken_sound hscan with ⟨lex, after, htext, rfl⟩ | ⟨htruncated, -⟩
    · have hgap' : ∀ b ∈ gap, isWs b = true := by
        intro b hb
        rw [← isWhiteSpace_eq]
        exact hgap b hb
      rw [htext] at h hscan ⊢
      obtain ⟨s', status, hturn, hlength, -, hnew⟩ :=
        @turn_of_piece _ _ _ _ _ ⟨gap, hgap', lex⟩ after h hscan hn
      exact ⟨s', status, hturn, hlength, fun hok => .inl ⟨⟨gap, hgap', lex⟩, after, rfl, hnew hok⟩⟩
    · obtain ⟨s', status, hturn, hlength, hiff, hnew⟩ := turn_of_truncated h hgap htruncated hn
      exact ⟨s', status, hturn, hlength,
        fun hok => .inr ⟨gap, c :: tail, rfl, hgap, htruncated, hiff.mp hok, hnew hok⟩⟩

/-! ## Runs of the loop -/

/-- The local variables that the loop comes to at the begin of a turn. -/
inductive Reached (buf : List UInt8) (size n : Nat) : Locals → Prop where
  | start : Reached buf size n {}
  | turn {s s' : Locals} (h : Reached buf size n s)
      (hturn : parseTurn buf size n s = some (s', .ok)) (hpos : s'.pos < size) :
      Reached buf size n s'

theorem turn_exhausted {s : Locals} (h : n ≤ s.tokens.length) :
    parseTurn buf size n s = some (s, .tokensExhausted) := by
  unfold parseTurn
  rw [if_pos h]

theorem rest_of_pos {pos : Nat} {rest : List UInt8} (h : View buf size pos rest) :
    pos < size ↔ rest ≠ [] := by
  have hstop := h.stop_eq
  rw [← length_pos_iff]
  omega

theorem reached_progress {text : List UInt8} (hview : View buf size 0 text)
    (htext : Trimmed text) {s : Locals} (h : Reached buf size n s) :
    ∃ pieces rest, text = layoutText pieces ++ rest ∧ Trimmed rest ∧
      Progress buf size s pieces rest ∧ s.tokens.length ≤ n := by
  induction h with
  | start => exact ⟨[], text, rfl, htext, progress_start hview, Nat.zero_le n⟩
  | @turn s s' _ hturn hpos ih =>
    obtain ⟨pieces, rest, rfl, hrest, hprogress, hle⟩ := ih
    by_cases hn : n ≤ s.tokens.length
    · rw [turn_exhausted hn] at hturn
      exact absurd hturn (by simp)
    · obtain ⟨s₁, status, hturn', hlength, hnew⟩ :=
        @turn_of_progress _ _ n _ _ _ hprogress hrest (by omega)
      rw [hturn] at hturn'
      obtain ⟨rfl, rfl⟩ := Prod.mk.inj (some.inj hturn')
      rcases hnew rfl with ⟨p, after, rfl, hprogress'⟩ | ⟨-, -, -, -, -, -, -, hend⟩
      · have hne : after ≠ [] := (rest_of_pos hprogress'.view).mp hpos
        refine ⟨pieces ++ [p], after, ?_, ?_, hprogress', by omega⟩
        · rw [layoutText_append, layoutText_cons, layoutText_nil, append_nil]
          simp only [append_assoc]
        · rw [← append_assoc] at hrest
          exact hrest.of_append hne
      · omega

theorem parseLoop_ends {text : List UInt8} (hview : View buf size 0 text) (htext : Trimmed text)
    {s : Locals} (h : Reached buf size n s) {fuel : Nat} (hfuel : n < fuel + s.tokens.length) :
    ∃ s₀ s' status, parseLoop buf size n fuel s = some (s', status) ∧ Reached buf size n s₀ ∧
      parseTurn buf size n s₀ = some (s', status) ∧ (status = .ok → ¬ s'.pos < size) := by
  obtain ⟨pieces, rest, -, hrest, hprogress, hle⟩ := reached_progress hview htext h
  induction fuel generalizing s pieces rest with
  | zero => omega
  | succ fuel ih =>
    by_cases hn : n ≤ s.tokens.length
    · refine ⟨s, s, .tokensExhausted, ?_, h, turn_exhausted hn, ?_⟩
      · unfold parseLoop
        rw [turn_exhausted hn]
        rfl
      · exact fun habsurd => absurd habsurd (by decide)
    · obtain ⟨s', status, hturn, hlength, -⟩ :=
        @turn_of_progress _ _ n _ _ _ hprogress hrest (by omega)
      have hloop : parseLoop buf size n (fuel + 1) s = if status = .ok ∧ s'.pos <
          size then parseLoop buf size n fuel s'
          else some (s', status) := by
        conv_lhs => unfold parseLoop
        rw [hturn]
        rfl
      rw [hloop]
      by_cases hgoOn : status = .ok ∧ s'.pos < size
      · obtain ⟨rfl, hpos⟩ := hgoOn
        have hreached : Reached buf size n s' := .turn h hturn hpos
        obtain ⟨pieces', rest', -, hrest', hprogress', hle'⟩ :=
          reached_progress hview htext hreached
        rw [if_pos ⟨rfl, hpos⟩]
        exact ih hreached (by omega) pieces' rest' hrest' hprogress' hle'
      · rw [if_neg hgoOn]
        exact ⟨s, s', status, rfl, h, hturn, fun hok hpos => hgoOn ⟨hok, hpos⟩⟩

/-- What a loop without an error has read: a layout, or a layout and the beginning of
a primitive. -/
theorem parseLoop_sound {text : List UInt8} (hview : View buf size 0 text)
    (htext : Trimmed text) {fuel : Nat} (hfuel : n < fuel) :
    ∃ s' status, parseLoop buf size n fuel {} = some (s', status) ∧ s'.tokens.length ≤ n ∧
      (status = .ok → (∃ pieces, text = layoutText pieces ∧ Progress buf size s' pieces []) ∨
        (∃ pieces gap tail, text = layoutText pieces ++ (gap ++ tail) ∧
          (∀ b ∈ gap, isWhiteSpace b = true) ∧ Truncated tail ∧
          Admissible (layoutKinds pieces ++ [.primitive]) ∧
          Tracks s' (layoutKinds pieces ++ [.primitive]))) := by
  obtain ⟨s₀, s', status, hloop, hreached, hturn, hend⟩ :=
    @parseLoop_ends _ _ n _ hview htext _ .start fuel hfuel
  obtain ⟨pieces, rest, rfl, hrest, hprogress, hle⟩ := reached_progress hview htext hreached
  refine ⟨s', status, hloop, ?_⟩
  by_cases hn : n ≤ s₀.tokens.length
  · rw [turn_exhausted hn] at hturn
    obtain ⟨rfl, rfl⟩ := Prod.mk.inj (some.inj hturn)
    exact ⟨hle, fun habsurd => absurd habsurd (by decide)⟩
  · obtain ⟨s₁, status₁, hturn', hlength, hnew⟩ :=
      @turn_of_progress _ _ n _ _ _ hprogress hrest (by omega)
    rw [hturn] at hturn'
    obtain ⟨rfl, rfl⟩ := Prod.mk.inj (some.inj hturn')
    refine ⟨by omega, fun hok => ?_⟩
    rcases hnew hok with ⟨p, after, rfl, hprogress'⟩ |
      ⟨gap, tail, rfl, hgap, htail, hfollows, htracks, -⟩
    · have hnil : after = [] := by
        by_contra hne
        exact hend hok ((rest_of_pos hprogress'.view).mpr hne)
      subst hnil
      refine .inl ⟨pieces ++ [p], ?_, hprogress'⟩
      rw [layoutText_append, layoutText_cons, layoutText_nil]
    · exact .inr ⟨pieces, gap, tail, rfl, hgap, htail,
        (admissible_concat _ _).mpr ⟨hprogress.admissible, hfollows⟩, htracks⟩

theorem endsPrimitive_of_follows (q : Placed) (rest : List UInt8)
    (h : mayFollow .primitive q.lexeme.kind = true) :
    EndsPrimitive (q.gap ++ (q.lexeme.text ++ rest)) := by
  obtain ⟨gap, hgap, kind, text, hlex⟩ := q
  cases gap with
  | cons b gap =>
    refine endsPrimitive_of_delimiter (mem_delimiters (.inr (.inr ?_)))
    rw [isWhiteSpace_eq]
    exact hgap b mem_cons_self
  | nil =>
    cases kind with
    | endArray | endObject | valueSeparator =>
      have htext : text = _ := hlex
      subst htext
      exact endsPrimitive_of_delimiter (by decide)
    | _ => exact absurd h Bool.false_ne_true

theorem scan_of_admissible {pieces more : List Placed} {p : Placed}
    (h : Admissible (layoutKinds (pieces ++ p :: more))) :
    scanToken (p.lexeme.text ++ layoutText more) = some (scannedLexeme p.lexeme) := by
  refine scanToken_complete p.lexeme fun hprimitive => ?_
  cases more with
  | nil =>
    intro ch rest habsurd
    exact absurd habsurd (by simp)
  | cons q more =>
    rw [layoutText_cons]
    refine endsPrimitive_of_follows q _ ?_
    have hsplit : layoutKinds (pieces ++ p :: q :: more) =
        (layoutKinds pieces ++ [p.lexeme.kind]) ++ q.lexeme.kind :: layoutKinds more := by
      simp [layoutKinds_append]
    have hfollows := h _ _ _ hsplit
    have hadjacent := hfollows.adjacent _ List.getLast?_concat
    rw [hprimitive] at hadjacent
    exact hadjacent

/-- The loop reads a layout whose tokens are admissible up to its end. -/
theorem parseLoop_complete {more pieces : List Placed} {s : Locals} {fuel : Nat}
    (h : Progress buf size s pieces (layoutText more)) (hne : more ≠ [])
    (hadmissible : Admissible (layoutKinds (pieces ++ more)))
    (hn : pieces.length + more.length ≤ n) (hfuel : more.length ≤ fuel) :
    ∃ s', parseLoop buf size n fuel s = some (s', .ok) ∧
      Progress buf size s' (pieces ++ more) [] := by
  induction more generalizing pieces s fuel with
  | nil => exact absurd rfl hne
  | cons p more ih =>
    rw [length_cons] at hn hfuel
    cases fuel with
    | zero => omega
    | succ fuel =>
      have hlength := h.length_eq
      rw [layoutText_cons] at h
      obtain ⟨s', status, hturn, -, hiff, hnew⟩ :=
        @turn_of_piece _ _ n _ _ _ _ h (scan_of_admissible hadmissible) (by omega)
      have hfollows : Follows (layoutKinds pieces) p.lexeme.kind := by
        refine hadmissible _ _ (layoutKinds more) ?_
        rw [layoutKinds_append, layoutKinds_cons]
      have hok : status = .ok := hiff.mpr hfollows
      subst hok
      have hprogress := hnew rfl
      have hloop : parseLoop buf size n (fuel + 1) s = if s'.pos <
          size then parseLoop buf size n fuel s' else some (s', .ok) := by
        conv_lhs => unfold parseLoop
        rw [hturn]
        simp
      rw [hloop]
      cases more with
      | nil =>
        rw [if_neg (fun hpos => (rest_of_pos hprogress.view).mp hpos rfl)]
        exact ⟨s', rfl, hprogress⟩
      | cons q more =>
        have hne' : layoutText (q :: more) ≠ [] :=
          (layout_trimmed (cons_ne_nil q more)).ne_nil
        rw [if_pos ((rest_of_pos hprogress.view).mpr hne')]
        have hsame : pieces ++ p :: q :: more = pieces ++ [p] ++ q :: more := by simp
        rw [hsame] at hadmissible ⊢
        refine ih hprogress (cons_ne_nil q more) hadmissible ?_ (by omega)
        rw [List.length_append, length_singleton]
        omega

end Cj
end DeconzRest

import DeconzRest.Cj.Accept
import DeconzRest.Cj.Access
import DeconzRest.Lib.JsonNesting

/-!
# Members of the objects of a text

`cj_value_ref` goes through all tokens behind an object and takes the first colon whose name has the
object as its parent.  The parser keeps the parents right although closing brackets follow them
back: behind every turn (`Nested`) the current parent is the innermost open bracket, and it was the
parent of every token but the closing brackets.
-/

namespace DeconzRest
namespace Cj

open Rfc8259 List
open Option (bind_eq_some_iff map_some toList_some)

variable {buf json : List UInt8} {size n fuel : Nat} {s s' : Locals} {ks : List Kind}

/-! ## Parents -/

/-- The tokens are of the kinds `ks`, with the innermost open brackets as their parents. -/
structure Nested (s : Locals) (ks : List Kind) : Prop where
  types : s.tokens.map Token.type = ks.map kindType
  parents : ∀ i tok, s.tokens[i]? = some tok → tok.type ≠ .arrayEnd → tok.type ≠ .objectEnd →
    tok.parent = (openIndices (ks.take i)).head?
  tokParent : s.tokParent = (openIndices ks).head?

theorem nested_start : Nested {} [] :=
  ⟨rfl, fun _ _ h => absurd (mem_of_getElem? h) not_mem_nil, rfl⟩

theorem Nested.length_eq (h : Nested s ks) : s.tokens.length = ks.length := by
  have hlength := congrArg List.length h.types
  rw [length_map, length_map] at hlength
  exact hlength

theorem kindType_of_valid {type : TokenType} (h : type ≠ .invalid) : ∃ k, type = kindType k := by
  cases type with
  | invalid => exact absurd rfl h
  | string => exact ⟨.string, rfl⟩
  | primitive => exact ⟨.primitive, rfl⟩
  | objectBeg => exact ⟨.beginObject, rfl⟩
  | objectEnd => exact ⟨.endObject, rfl⟩
  | arrayBeg => exact ⟨.beginArray, rfl⟩
  | arrayEnd => exact ⟨.endArray, rfl⟩
  | itemSep => exact ⟨.valueSeparator, rfl⟩
  | nameSep => exact ⟨.nameSeparator, rfl⟩

section Turns

variable {t t' : Turn}

theorem Turn.andThen_ok {f : Turn → Option Turn} (h : t.andThen f = some t')
    (hok : t'.status = .ok) : t.status = .ok := by
  unfold Turn.andThen at h
  split at h
  · assumption
  · rw [Option.some.inj h]
    exact hok

theorem Turn.openBracket_ok (h : (t.openBracket s).status = .ok) :
    (t.openBracket s).s.tokParent = some t.index ∧ (t.openBracket s).tok = t.tok := by
  unfold Turn.openBracket at h ⊢
  split
  · rename_i hstop
    rw [if_pos hstop] at h
    exact absurd h Status.noConfusion
  · exact ⟨rfl, rfl⟩

theorem Turn.closeBracket_ok {depth : Int} (h : t.closeBracket s depth = some t')
    (hok : t'.status = .ok) :
    ∃ parent, t.tokenRef t.tok.parent = some parent ∧ t'.s.tokParent = parent.parent ∧ t'.tok.type =
      t.tok.type := by
  unfold Turn.closeBracket at h
  split at h
  · rw [← Option.some.inj h] at hok
    exact absurd hok Status.noConfusion
  · obtain ⟨parent, hparent, h⟩ := bind_eq_some_iff.mp h
    refine ⟨parent, hparent, ?_⟩
    rw [← Option.some.inj h]
    exact ⟨rfl, rfl⟩

/-- What a turn without an error makes of the current parent -/
inductive Reparented (t t' : Turn) : Kind → Prop where
  | opens {k : Kind} (hk : k = .beginArray ∨ k = .beginObject)
      (hparent : t'.s.tokParent = some t.index) (htok : t'.tok = t.tok) : Reparented t t' k
  | closes {k : Kind} {parent : Token} (hk : k = .endArray ∨ k = .endObject)
      (href : t.tokenRef t.tok.parent = some parent) (hparent : t'.s.tokParent = parent.parent)
      (htype : t'.tok.type = t.tok.type) : Reparented t t' k
  | stays {k : Kind} (hk : ∀ i stack, openAfter i stack k = stack)
      (hparent : t'.s.tokParent = t.s.tokParent) (htok : t'.tok = t.tok) : Reparented t t' k

theorem Turn.brackets_reparented {k : Kind} (htype : t.tok.type = kindType k)
    (h : t.brackets = some t') (hok : t'.status = .ok) : Reparented t t' k := by
  unfold Turn.brackets at h
  rw [htype] at h
  cases k with
  | beginObject | beginArray =>
    have hopen := Option.some.inj h
    rw [← hopen] at hok ⊢
    obtain ⟨hparent, htok⟩ := Turn.openBracket_ok hok
    exact .opens (by simp) hparent htok
  | endObject | endArray =>
    obtain ⟨parent, href, hparent, htok⟩ := Turn.closeBracket_ok h hok
    exact .closes (by simp) href hparent htok
  | _ =>
    rw [← Option.some.inj h]
    exact .stays (fun _ _ => rfl) rfl rfl

theorem Turn.check_reparented {k : Kind} (htype : t.tok.type = kindType k)
    (h : t.check = some t') (hok : t'.status = .ok) : Reparented t t' k := by
  obtain ⟨t₁, hbrackets, hsame⟩ := Turn.check_same h
  have hok₁ : t₁.status = .ok := by
    obtain ⟨t₁', hbrackets', h⟩ := bind_eq_some_iff.mp h
    obtain ⟨t₂, hname, h⟩ := bind_eq_some_iff.mp h
    obtain ⟨t₃, hitem, h⟩ := bind_eq_some_iff.mp h
    rw [Option.some.inj (hbrackets.symm.trans hbrackets')]
    exact Turn.andThen_ok hname (Turn.andThen_ok hitem (Turn.andThen_ok h hok))
  cases Turn.brackets_reparented htype hbrackets hok₁ with
  | opens hk hparent htok => exact .opens hk (hsame.tokParent.trans hparent) (hsame.tok.trans htok)
  | closes hk href hparent htok =>
    exact .closes hk href (hsame.tokParent.trans hparent) ((congrArg _ hsame.tok).trans htok)
  | stays hk hparent htok => exact .stays hk (hsame.tokParent.trans hparent) (hsame.tok.trans htok)

end Turns

theorem Nested.outer {i : Nat} {stack : List Nat} {tok : Token} (h : Nested s ks)
    (hopen : openIndices ks = i :: stack) (htok : s.tokens[i]? = some tok) :
    tok.parent = stack.head? := by
  have hkind := openIndices_opens (hopen ▸ mem_cons_self : i ∈ openIndices ks)
  have htype : (s.tokens.map Token.type)[i]? = (ks.map kindType)[i]? := by rw [h.types]
  rw [List.getElem?_map, List.getElem?_map, htok, map_some] at htype
  rw [← openIndices_take hopen]
  rcases hkind with hkind | hkind <;>
    rw [hkind, map_some, Option.some.injEq] at htype <;>
    exact h.parents i tok htok (by rw [htype]; decide) (by rw [htype]; decide)

theorem Nested.tokParent_turn {t t' : Turn} {k : Kind} (h : Nested s ks)
    (htokens : t.s.tokens = s.tokens) (hstart : t.s.tokParent = s.tokParent)
    (hparent : t.tok.parent = s.tokParent) (hcases : Reparented t t' k) :
    t'.s.tokParent = (openIndices (ks ++ [k])).head? := by
  have hlength := h.length_eq
  rw [openIndices_concat]
  cases hcases with
  | opens hk hnew _ =>
    rw [hnew, Turn.index, htokens, hlength]
    rcases hk with rfl | rfl <;> rfl
  | @closes parent hk href hnew _ =>
    have hafter : openAfter ks.length (openIndices ks) k = (openIndices ks).tail := by
      rcases hk with rfl | rfl <;> rfl
    rw [hnew, hafter]
    rw [hparent, h.tokParent] at href
    -- the bracket that is closed is the current parent
    cases hopen : openIndices ks with
    | nil =>
      rw [hopen] at href
      exact absurd href (by simp [Turn.tokenRef])
    | cons i stack =>
      rw [hopen] at href
      have hi : i < s.tokens.length := hlength ▸ openIndices_lt (hopen ▸ mem_cons_self)
      have href' : (t.s.tokens ++ [t.tok])[i]? = some parent := href
      rw [htokens, List.getElem?_append_left hi] at href'
      exact h.outer hopen href'
  | stays hk hnew _ => rw [hnew, hk, hstart, h.tokParent]

theorem Nested.turn (h : Nested s ks) (hturn : parseTurn buf size n s = some (s', .ok)) :
    ∃ k, Nested s' (ks ++ [k]) := by
  unfold parseTurn at hturn
  split at hturn
  · exact absurd (congrArg Prod.snd (Option.some.inj hturn)) Status.noConfusion
  obtain ⟨⟨pos, tok⟩, -, hturn⟩ := bind_eq_some_iff.mp hturn
  simp only at hturn
  split at hturn
  · exact absurd (congrArg Prod.snd (Option.some.inj hturn)) Status.noConfusion
  rename_i hvalid
  obtain ⟨t, hcheck, hturn⟩ := bind_eq_some_iff.mp hturn
  obtain ⟨hs', hok⟩ := Prod.mk.inj (Option.some.inj hturn)
  obtain ⟨k, htype⟩ := kindType_of_valid hvalid
  have htokens : t.s.tokens = s.tokens := Turn.check_tokens hcheck
  have hlength := h.length_eq
  have hcases := Turn.check_reparented (k := k) htype hcheck hok
  have hnew : t.tok.type = kindType k := by
    cases hcases with
    | opens _ _ htok | stays _ _ htok =>
      rw [htok]
      exact htype
    | closes _ _ _ htok => exact htok.trans htype
  refine ⟨k, ?_, ?_, ?_⟩
  · rw [← hs', map_append, map_append, htokens, h.types]
    exact congrArg (ks.map kindType ++ [·]) hnew
  · intro i tok' htok' harray hobject
    rw [← hs'] at htok'
    simp only [htokens] at htok'
    rcases Nat.lt_or_ge i s.tokens.length with hlt | hge
    · rw [List.getElem?_append_left hlt] at htok'
      rw [take_append_of_le_length (by omega)]
      exact h.parents i tok' htok' harray hobject
    · rw [List.getElem?_append_right hge] at htok'
      have hi : i = ks.length := by
        have hlt := (List.getElem?_eq_some_iff.mp htok').1
        rw [length_singleton] at hlt
        omega
      have htok : t.tok = tok' := mem_singleton.mp (mem_of_getElem? htok') |>.symm
      rw [hi, take_left, ← h.tokParent]
      cases hcases with
      | opens _ _ hsame | stays _ _ hsame => rw [← htok, hsame]
      | closes hk _ _ _ =>
        rw [← htok, hnew] at harray hobject
        rcases hk with rfl | rfl
        · exact absurd rfl harray
        · exact absurd rfl hobject
  · rw [← hs']
    exact h.tokParent_turn rfl rfl rfl hcases

theorem Nested.loop (h : Nested s ks) (hloop : parseLoop buf size n fuel s = some (s', .ok)) :
    ∃ more, Nested s' (ks ++ more) := by
  induction fuel generalizing s ks with
  | zero => exact absurd hloop (by simp [parseLoop])
  | succ fuel ih =>
    obtain ⟨t, hturn, hrest⟩ := parseLoop_succ_ok hloop
    obtain ⟨k, hnext⟩ := h.turn hturn
    split at hrest
    · obtain ⟨more, hlast⟩ := ih hnext hrest
      exact ⟨k :: more, by rw [append_cons]; exact hlast⟩
    · exact ⟨[k], hrest ▸ hnext⟩

/-- The octets that the token with the index `i` delimits are those of the key. -/
def hasText (ctx : Ctx) (key : List UInt8) (i : Nat) : Bool :=
  decide ((ctx.tokens.map (slice ctx))[i]? = some key)

/-- In front of every colon stands a name. -/
def NamedColons (ks : List Kind) : Prop :=
  ∀ i, ks[i + 1]? = some .nameSeparator → ks[i]? = some .string

theorem openIndices_take_colon {i : Nat} (h : ks[i]? = some .string) :
    openIndices (ks.take (i + 1)) = openIndices (ks.take i) := by
  rw [take_add_one, h, toList_some, openIndices_concat]
  rfl

theorem valueRefLoop_eq {ctx : Ctx} (h : Nested s ks) (htokens : ctx.tokens = s.tokens)
    (hnames : NamedColons ks) (hlens : ∀ tok ∈ ctx.tokens, (slice ctx tok).length = tok.len)
    (obj : Nat) (key : List UInt8) (tokens : List Token) {i : Nat} {before : Token}
    (hbefore : ctx.tokens[i]? = some before) (hdrop : ctx.tokens.drop (i + 1) = tokens) :
    valueRefLoop ctx obj key (i + 1) before tokens =
      ((colonsIn obj (i + 1) (openIndices (ks.take (i + 1))) (ks.drop (i + 1))).find?
        fun j => hasText ctx key (j - 1)).map (· + 1) := by
  have hlength : ctx.tokens.length = ks.length := by rw [htokens, h.length_eq]
  have hkind : ∀ {j : Nat} {tok : Token} {k : Kind}, ctx.tokens[j]? = some tok → ks[j]? = some k →
      tok.type = kindType k := by
    intro j tok k htok hk
    have htype := congrArg (·[j]?) h.types
    simp only [List.getElem?_map, ← htokens, htok, hk, map_some, Option.some.injEq] at htype
    exact htype
  induction tokens generalizing i before with
  | nil =>
    have hend : ks.drop (i + 1) = [] := by
      rw [drop_eq_nil_iff] at hdrop ⊢
      omega
    rw [hend]
    rfl
  | cons tok tokens ih =>
    have htok : ctx.tokens[i + 1]? = some tok := by
      rw [← List.head?_drop, hdrop, List.head?_cons]
    have hi : i + 1 < ks.length := hlength ▸ (List.getElem?_eq_some_iff.mp htok).1
    have hmore : ctx.tokens.drop (i + 1 + 1) = tokens := by
      rw [← tail_drop, hdrop, tail_cons]
    have hrest := ih htok hmore
    rw [valueRefLoop, drop_eq_getElem_cons hi, colonsIn]
    rw [take_succ_eq_append_getElem hi, openIndices_concat, length_take,
      Nat.min_eq_left (Nat.le_of_lt hi)] at hrest
    have htype := hkind htok (List.getElem?_eq_getElem hi)
    by_cases hcolon : ks[i + 1] = .nameSeparator
    · -- the parent of the name is the bracket that the colon stands in
      have hname : ks[i]? = some .string :=
        hnames i (by rw [List.getElem?_eq_getElem hi, hcolon])
      have hbeforeType := hkind hbefore hname
      have hparent : before.parent = (openIndices (ks.take (i + 1))).head? := by
        rw [openIndices_take_colon hname]
        exact h.parents i before (htokens ▸ hbefore) (by rw [hbeforeType]; decide)
          (by rw [hbeforeType]; decide)
      have hkey : isKey ctx obj key before =
          (decide ((openIndices (ks.take (i + 1))).head? = some obj) && hasText ctx key i) := by
        have hlen := hlens before (mem_of_getElem? hbefore)
        rw [isKey, hasText, ← hparent, ← Bool.decide_and, List.getElem?_map, hbefore,
          map_some]
        refine decide_eq_decide.mpr (and_congr_right fun _ => ?_)
        rw [Option.some.injEq]
        refine ⟨And.right, fun hslice => ⟨?_, hslice⟩⟩
        rw [← hlen, hslice]
      rw [hkey, htype, hcolon]
      by_cases hobj : (openIndices (ks.take (i + 1))).head? = some obj
      · rw [if_pos (⟨rfl, hobj⟩ : Kind.nameSeparator = .nameSeparator ∧ _), List.find?_cons,
          Nat.add_sub_cancel]
        cases htext : hasText ctx key i with
        | true => simp [kindType, hobj]
        | false =>
          rw [if_neg (by simp), hrest, hcolon]
      · rw [if_neg (by simp [hobj]), if_neg (fun hboth => hobj hboth.2), hrest, hcolon]
    · have hother : ¬ (tok.type = .nameSep ∧ isKey ctx obj key before = true) := by
        rintro ⟨hnameSep, -⟩
        rw [htype, kindType_eq_nameSep_iff] at hnameSep
        exact hcolon hnameSep
      rw [if_neg hother, if_neg (fun hboth => hcolon hboth.1), hrest]

/-! ## The members of an object -/

theorem mayFollow_colon {a : Kind} (h : mayFollow a .nameSeparator = true) : a = .string := by
  cases a <;> first | rfl | exact absurd h (by decide)

theorem namedColons_of_admissible (h : Admissible ks) : NamedColons ks := by
  intro i hcolon
  obtain ⟨hi, hkind⟩ := List.getElem?_eq_some_iff.mp hcolon
  have hsplit : ks = ks.take (i + 1) ++ .nameSeparator :: ks.drop (i + 1 + 1) := by
    rw [← hkind, ← drop_eq_getElem_cons hi, take_append_drop]
  have hbefore : ks[i]? = some ks[i] := List.getElem?_eq_getElem (Nat.lt_of_succ_lt hi)
  have hlast : (ks.take (i + 1)).getLast? = some ks[i] := by
    rw [take_add_one, hbefore, toList_some, List.getLast?_concat]
  rw [hbefore, mayFollow_colon ((h _ _ _ hsplit).adjacent _ hlast)]

theorem length_valueText (lex : Lexeme) : (valueText lex).length = (valueSpan lex).2 := by
  obtain ⟨kind, text, hlex⟩ := lex
  cases kind with
  | string => simp [valueText, valueSpan, Nat.sub_sub]
  | _ => rfl

theorem layoutSpans_lengths (pos : Nat) (pieces : List Placed) :
    (layoutSpans pos pieces).map (fun span => span.2.2) =
      pieces.map fun p => (valueText p.lexeme).length := by
  induction pieces generalizing pos with
  | nil => rfl
  | cons p pieces ih => rw [layoutSpans, map_cons, map_cons, ih, length_valueText]

theorem Parsed.tokens_of_json {ctx : Ctx} {pieces : List Placed} (h : Parsed json n ctx)
    (hutf8 : ValidUtf8 json) (hreads : ReadsAs pieces json)
    (hvalue : Derives .value (layoutKinds pieces)) :
    spans ctx.tokens = layoutSpans 0 pieces ∧ ctx.tokens.map (slice ctx) =
      pieces.map fun p => valueText p.lexeme := by
  have hroom := h.length_le
  obtain ⟨ctx', hparse, hok, hspans, htexts⟩ :=
    parse_complete hutf8 hreads hvalue (n := max n pieces.length) (by omega) (by omega)
  have hsame := h.unique ⟨hparse, hok⟩
  obtain ⟨_, _, hsteps⟩ := h.steps
  have hbuf : ctx.buf = json := by rw [hsteps.ctx_eq]
  rw [hsame] at hspans htexts
  refine ⟨hspans, ?_⟩
  rw [← htexts, ← hbuf]
  rfl

/-- **Member lookup**: in a JSON text `cj_value_ref` returns the token of the value of the first
member of the object whose name has the text of the key, and the invalid index when the object has
no such member.  The value of a member stands behind its name and a colon. -/
theorem value_ref_first_member {ctx : Ctx} {pieces : List Placed} (h : Parsed json n ctx)
    (hutf8 : ValidUtf8 json) (hreads : ReadsAs pieces json)
    (hvalue : Derives .value (layoutKinds pieces)) {obj : Nat} {tok : Token}
    (htok : ctx.tokens[obj]? = some tok) (htype : tok.type = .objectBeg) :
    (∃ names, ObjectAt (layoutKinds pieces) obj names) ∧
      ∀ names, ObjectAt (layoutKinds pieces) obj names → ∀ key,
        valueRef ctx obj key =
          (names.find? fun name =>
            decide ((pieces.map fun p => valueText p.lexeme)[name]? = some key)).map (· + 2) := by
  obtain ⟨hspans, htexts⟩ := h.tokens_of_json hutf8 hreads hvalue
  obtain ⟨stop, s, hsteps⟩ := h.steps
  have htokens : ctx.tokens = s.tokens := by rw [hsteps.ctx_eq]
  obtain ⟨kinds, hnested⟩ := nested_start.loop hsteps.loop
  rw [nil_append] at hnested
  have htypes : ctx.tokens.map Token.type = (layoutKinds pieces).map kindType := by
    have hfirst := congrArg (List.map Prod.fst) hspans
    rw [spans, map_map] at hfirst
    refine hfirst.trans ?_
    clear * -
    generalize 0 = pos
    induction pieces generalizing pos with
    | nil => rfl
    | cons p pieces ih => rw [layoutSpans, map_cons, layoutKinds_cons, map_cons, ih]
  have hkinds : kinds = layoutKinds pieces := by
    refine map_injective_iff.mpr kindType_injective ?_
    rw [← htypes, ← hnested.types, htokens]
  subst hkinds
  constructor
  · have hbrace := congrArg (·[obj]?) htypes
    simp only [List.getElem?_map, htok, map_some, htype] at hbrace
    obtain ⟨k, hk, hkind⟩ := Option.map_eq_some_iff.mp hbrace.symm
    refine exists_objectAt hvalue ?_
    rw [hk, kindType_injective (hkind.trans (rfl : _ = kindType .beginObject))]
  · intro names hnames key
    have hlens : ∀ tok ∈ ctx.tokens, (slice ctx tok).length = tok.len := by
      have hlengths := congrArg (List.map fun span => span.2.2) hspans
      rw [layoutSpans_lengths, spans, map_map] at hlengths
      have htextLengths := congrArg (List.map List.length) htexts
      rw [map_map, map_map] at htextLengths
      exact map_inj_left.mp (htextLengths.trans hlengths.symm)
    have hdrop : ctx.tokens.drop obj = tok :: ctx.tokens.drop (obj + 1) := by
      obtain ⟨hlt, hget⟩ := List.getElem?_eq_some_iff.mp htok
      rw [drop_eq_getElem_cons hlt, hget]
    rw [valueRef, if_neg (not_not.mpr h.2), hdrop]
    simp only
    rw [valueRefLoop_eq hnested htokens
      (namedColons_of_admissible (lenient_of_derives hvalue).admissible) hlens obj key _ htok rfl,
      colonsIn_object hnames, List.find?_map, Option.map_map]
    refine congrArg₂ _ rfl (congrArg (List.find? · names) ?_)
    funext name
    simp only [Function.comp_apply, Nat.add_sub_cancel, hasText, htexts]

def letterPiece (c : UInt8) (h : 0x20 ≤ c ∧ c ≠ 0x22 ∧ c ≠ 0x5C) : Placed :=
  .ofLexeme ⟨.string, [0x22, c, 0x22], [c], rfl, .unescaped h.1 h.2.1 h.2.2 .nil⟩

def digitPiece (d : UInt8) (h : Rfc8259.isDigit d = true ∧ d ≠ 0x30) : Placed :=
  .ofLexeme ⟨.primitive, [d], .inr (.inr (.inr ⟨[], [d], [], [], rfl, .inl rfl,
    .inr ⟨d, [], rfl, h.1, h.2, forall_mem_nil _⟩, .inl rfl, .inl rfl⟩))⟩

/-- The tokens of the text `{"b":{"a":1},"a":2}` -/
def memberSample : List Placed :=
  [.ofLexeme .beginObject, letterPiece 0x62 (by decide), .ofLexeme .nameSeparator,
    .ofLexeme .beginObject, letterPiece 0x61 (by decide), .ofLexeme .nameSeparator,
    digitPiece 0x31 (by decide), .ofLexeme .endObject, .ofLexeme .valueSeparator,
    letterPiece 0x61 (by decide), .ofLexeme .nameSeparator, digitPiece 0x32 (by decide),
    .ofLexeme .endObject]

def memberCtx : Ctx where
  buf := layoutText memberSample
  pos := 19
  size := 19
  tokens :=
    [⟨.objectBeg, 0, 1, none⟩, ⟨.string, 2, 1, some 0⟩, ⟨.nameSep, 4, 1, some 0⟩,
      ⟨.objectBeg, 5, 1, some 0⟩, ⟨.string, 7, 1, some 3⟩, ⟨.nameSep, 9, 1, some 3⟩,
      ⟨.primitive, 10, 1, some 3⟩, ⟨.objectEnd, 11, 1, some 0⟩, ⟨.itemSep, 12, 1, some 0⟩,
      ⟨.string, 14, 1, some 0⟩, ⟨.nameSep, 16, 1, some 0⟩, ⟨.primitive, 17, 1, some 0⟩,
      ⟨.objectEnd, 18, 1, none⟩]
  tokensSize := 16
  status := .ok

/-- The member of the inner object is passed over. -/
theorem value_ref_first_member_sample : valueRef memberCtx 0 [0x61] = some 11 := by
  have hparsed : Parsed (layoutText memberSample) 16 memberCtx := by decide
  have hutf8 : ValidUtf8 (layoutText memberSample) :=
    ⟨['\x7b', '"', 'b', '"', ':', '\x7b', '"', 'a', '"', ':', '1', '\x7d', ',', '"', 'a', '"', ':',
      '2', '\x7d'], by decide⟩
  have hinner : Derives .value [.beginObject, .string, .nameSeparator, .primitive, .endObject] :=
    .object (.member .primitive)
  have hvalue : Derives .value (layoutKinds memberSample) :=
    .object (.members (.member hinner) .primitive)
  have hnames : ObjectAt (layoutKinds memberSample) 0 [1, 9] :=
    ⟨[], _, [], rfl, rfl, .inr (.members (.member hinner) .primitive)⟩
  have htok : memberCtx.tokens[0]? = some ⟨.objectBeg, 0, 1, none⟩ := rfl
  have hfirst := (value_ref_first_member hparsed hutf8 ⟨[], gap_nil, by simp⟩ hvalue htok rfl).2 _
    hnames [0x61]
  exact hfirst.trans (by decide)

end Cj
end DeconzRest

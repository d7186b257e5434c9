import DeconzRest.Ddf.Descriptors
import DeconzRest.Json.Builder

/-!
# The text of a descriptor

What `WriteBundleDescriptorToResponse` writes of a bundle are the tokens of its `DESC` chunk
without the white space between them, and a member more.
-/

namespace DeconzRest
namespace Ddf

open List

open Json (ascii)
open Rfc8259
open Cj (spans layoutSpans valueText valueSpan kindType)

/-! ## Tokens of a layout -/

/-- The token is copied: it is not empty and fits into `ibuf`. -/
def Copied (lex : Lexeme) : Prop :=
  valueText lex ≠ [] ∧ (valueText lex).length < if lex.kind = .string then 510 else 512

theorem take_lexeme (lex : Lexeme) (before after : List UInt8) :
    ((before ++ (lex.text ++ after)).drop before.length).take lex.text.length = lex.text := by
  rw [drop_left, take_left]

variable {lex : Lexeme}

theorem string_text_length (h : lex.kind = .string) :
    lex.text.length = (valueText lex).length + 2 := by
  obtain ⟨kind, text, hlex⟩ := lex
  subst h
  obtain ⟨body, rfl, -⟩ := hlex
  simp [valueText]

theorem valueText_of_ne_string (h : lex.kind ≠ .string) : valueText lex = lex.text := by
  obtain ⟨kind, text, hlex⟩ := lex
  cases kind <;> first | rfl | exact absurd rfl h

theorem kindType_eq_string_iff (k : Kind) : kindType k = .string ↔ k = .string := by
  cases k <;> decide

theorem tokenCopy_eq (h : Copied lex) {desc before after : List UInt8}
    (hdesc : desc = before ++ (lex.text ++ after)) {tok : Cj.Token}
    (htype : tok.type = kindType lex.kind) (hpos : tok.pos = before.length + (valueSpan lex).1)
    (hlen : tok.len = (valueSpan lex).2) : tokenCopy desc tok = some lex.text := by
  obtain ⟨hne, hlt⟩ := h
  have hlong : 0 < (valueText lex).length := length_pos_of_ne_nil hne
  have htake := take_lexeme lex before after
  rw [← hdesc] at htake
  unfold tokenCopy
  by_cases hstring : lex.kind = .string
  · rw [if_pos hstring] at hlt
    have hlength := string_text_length hstring
    have hspan : valueSpan lex = (1, lex.text.length - 2) := by rw [valueSpan, hstring]
    rw [hspan] at hpos hlen
    simp only at hpos hlen
    rw [if_neg (by omega), if_neg (by omega),
      if_pos (htype.trans ((kindType_eq_string_iff _).mpr hstring)), if_neg (by omega),
      if_neg (by omega), hpos, hlen, hlength, Nat.add_sub_cancel, Nat.add_sub_cancel, ← hlength,
      htake]
  · rw [if_neg hstring, valueText_of_ne_string hstring] at hlt
    rw [valueText_of_ne_string hstring] at hlong
    have hspan : valueSpan lex = (0, lex.text.length) := by
      rw [valueSpan]
      cases hkind : lex.kind <;> first | rfl | exact absurd hkind hstring
    rw [hspan] at hpos hlen
    simp only [Nat.add_zero] at hpos hlen
    rw [if_neg (by omega), if_neg (by omega),
      if_neg (fun hs => hstring ((kindType_eq_string_iff _).mp (htype.symm.trans hs))), hpos, hlen,
      htake]

variable {desc : List UInt8}

theorem map_tokenCopy (after : List UInt8) : ∀ (pieces : List Placed)
    (before : List UInt8) (tokens : List Cj.Token),
    desc = before ++ (layoutText pieces ++ after) →
    spans tokens = layoutSpans before.length pieces → (∀ p ∈ pieces, Copied p.lexeme) →
    tokens.map (tokenCopy desc) = pieces.map fun p => some p.lexeme.text
  | [], _, tokens, _, hspans, _ => by
    rw [map_eq_nil_iff.mp hspans]
    rfl
  | p :: pieces, before, tokens, hdesc, hspans, hcopied => by
    cases tokens with
    | nil => exact absurd hspans.symm (cons_ne_nil _ _)
    | cons tok tokens =>
      rw [spans, map_cons, layoutSpans] at hspans
      obtain ⟨hhead, htail⟩ := List.cons.inj hspans
      obtain ⟨htype, hplace⟩ := Prod.mk.inj hhead
      obtain ⟨hpos, hlen⟩ := Prod.mk.inj hplace
      have hsplit : desc = (before ++ p.gap) ++ (p.lexeme.text ++
          (layoutText pieces ++ after)) := by
        rw [hdesc, layoutText_cons]
        simp only [append_assoc]
      have hcopy : tokenCopy desc tok = some p.lexeme.text := by
        refine tokenCopy_eq (hcopied p mem_cons_self) hsplit htype ?_ hlen
        rw [hpos, List.length_append]
      have hrest : tokens.map (tokenCopy desc) = pieces.map fun p => some p.lexeme.text := by
        refine map_tokenCopy after pieces (before ++ (p.gap ++ p.lexeme.text)) tokens ?_ ?_
          fun q hq => hcopied q (mem_cons_of_mem p hq)
        · rw [hsplit]
          simp only [append_assoc]
        · rw [List.length_append, List.length_append]
          exact htail
      rw [map_cons, map_cons, hcopy, hrest]

/-! ## UTF-8 without the white space -/

variable {b : UInt8}

theorem encode_eq_of_mem {c : Char} (hmem : b ∈ String.utf8EncodeChar c) (hb : b.toNat < 0x80) :
    String.utf8EncodeChar c = [b] := by
  have hhigh (n : Nat) (hn : 0x80 ≤ n) (hlt : n < 256) : b ≠ UInt8.ofNat n := by
    intro heq
    rw [heq, Cj.toNat_octet hlt] at hb
    omega
  rw [Cj.encode_eq] at hmem ⊢
  split_ifs at hmem ⊢ <;> simp only [mem_cons, not_mem_nil, or_false] at hmem
  · rw [hmem]
  · rcases hmem with h | h <;> exact absurd h (hhigh _ (by omega) (by omega))
  · rcases hmem with h | h | h <;> exact absurd h (hhigh _ (by omega) (by omega))
  · rcases hmem with h | h | h | h <;> exact absurd h (hhigh _ (by omega) (by omega))

theorem validUtf8_split (hb : b.toNat < 0x80) {ys : List UInt8} :
    ∀ xs : List UInt8, ValidUtf8 (xs ++ b :: ys) → ValidUtf8 xs ∧ ValidUtf8 ys := by
  suffices h : ∀ (cs : List Char) (xs : List UInt8), xs ++ b :: ys =
      cs.flatMap String.utf8EncodeChar → ValidUtf8 xs ∧ ValidUtf8 ys by
    rintro xs ⟨cs, hcs⟩
    exact h cs xs hcs
  intro cs
  induction cs with
  | nil =>
    intro xs heq
    exact absurd heq (by simp)
  | cons c cs ih =>
    intro xs heq
    rw [flatMap_cons] at heq
    rcases append_eq_append_iff.mp heq with ⟨more, hc, hrest⟩ | ⟨more, rfl, hrest⟩
    · cases more with
      | nil =>
        -- the octet is the first one behind the character
        rw [append_nil] at hc
        obtain ⟨-, hys⟩ := ih [] hrest
        exact ⟨⟨[c], by simp [hc]⟩, hys⟩
      | cons d more =>
        obtain ⟨rfl, hmore⟩ := List.cons.inj hrest
        have hmem : b ∈ String.utf8EncodeChar c := by simp [hc]
        rw [encode_eq_of_mem hmem hb] at hc
        have hlength := congrArg List.length hc
        simp only [List.length_append, length_cons, length_nil] at hlength
        have hxs : xs = [] := eq_nil_of_length_eq_zero (by omega)
        have hmore' : more = [] := eq_nil_of_length_eq_zero (by omega)
        refine ⟨⟨[], by simp [hxs]⟩, ⟨cs, ?_⟩⟩
        rw [hmore, hmore']
        rfl
    · obtain ⟨⟨ds, hds⟩, hys⟩ := ih more hrest.symm
      exact ⟨⟨c :: ds, by rw [flatMap_cons, hds]⟩, hys⟩

theorem validUtf8_behind {front back : List UInt8} (hfront : ∀ b ∈ front, b.toNat < 0x80)
    (h : ValidUtf8 (front ++ back)) : ValidUtf8 back := by
  induction front with
  | nil => exact h
  | cons b front ih =>
    obtain ⟨hb, hrest⟩ := forall_mem_cons.mp hfront
    exact ih hrest (validUtf8_split hb [] h).2

theorem isWs_ascii (h : isWs b = true) : b.toNat < 0x80 := by
  simp only [isWs, Bool.or_eq_true, decide_eq_true_eq] at h
  rcases h with ((rfl | rfl) | rfl) | rfl <;> decide

theorem lexeme_ascii (h : lex.kind ≠ .string) : ∀ b ∈ lex.text, b.toNat < 0x80 := by
  obtain ⟨kind, text, hlex⟩ := lex
  cases kind with
  | string => exact absurd rfl h
  | primitive =>
    rcases hlex with rfl | rfl | rfl | hnumber
    · decide +kernel
    · decide +kernel
    · decide +kernel
    · exact JsonBuilder.number_ascii hnumber
  | _ =>
    have htext : text = _ := hlex
    subst htext
    intro b hb
    rw [mem_singleton.mp hb]
    decide

variable (pieces : List Placed)

theorem lexemes_validUtf8 {after : List UInt8} (h : ValidUtf8 (layoutText pieces ++ after)) :
    ∀ p ∈ pieces, ValidUtf8 p.lexeme.text := by
  induction pieces with
  | nil => exact forall_mem_nil _
  | cons p pieces ih =>
    rw [layoutText_cons, append_assoc, append_assoc] at h
    have hlexeme : ValidUtf8 (p.lexeme.text ++ (layoutText pieces ++ after)) :=
      validUtf8_behind (fun b hb => isWs_ascii (p.gap_ws b hb)) h
    by_cases hkind : p.lexeme.kind = .string
    · obtain ⟨body, hbody, -⟩ : Lexical .string p.lexeme.text := hkind ▸ p.lexeme.lexical
      rw [hbody, cons_append, append_assoc] at hlexeme
      have hinner := (validUtf8_split (by decide) [] hlexeme).2
      obtain ⟨hinside, hrest⟩ := validUtf8_split (by decide) body hinner
      refine forall_mem_cons.mpr ⟨?_, ih hrest⟩
      rw [hbody]
      exact JsonBuilder.quoted_utf8 hinside
    · have hascii := lexeme_ascii hkind
      exact forall_mem_cons.mpr ⟨JsonBuilder.validUtf8_of_ascii hascii,
        ih (validUtf8_behind hascii hlexeme)⟩

/-! ## Chunks that can be described -/

/-- **A `DESC` chunk that is described**: it is more than 32 bytes long, and it is a JSON object with
a member, of at most 2048 tokens that are all copied. -/
structure Describable (desc : List UInt8) : Prop where
  long : 32 < desc.length
  utf8 : ValidUtf8 desc
  object : ∃ pieces ms, ReadsAs pieces desc ∧ Derives .members ms ∧ layoutKinds pieces =
    .beginObject :: (ms ++ [.endObject]) ∧ pieces.length ≤ 2048 ∧ ∀ p ∈ pieces, Copied p.lexeme

def copiedText (desc : List UInt8) : List UInt8 :=
  ((descTokens desc).getD []).dropLast.flatMap fun tok => (tokenCopy desc tok).getD []

def bare (pieces : List Placed) : List Placed := pieces.map fun p => Placed.ofLexeme p.lexeme

@[simp] theorem layoutKinds_bare : layoutKinds (bare pieces) = layoutKinds pieces := by
  unfold layoutKinds bare
  rw [map_map]
  rfl

theorem layoutText_bare : layoutText (bare pieces) = pieces.flatMap fun p => p.lexeme.text := by
  unfold layoutText bare
  rw [flatMap_map]
  rfl

theorem length_layoutText_bare :
    (layoutText (bare pieces)).length ≤ (layoutText pieces).length := by
  induction pieces with
  | nil => rfl
  | cons p pieces ih =>
    have hcons : layoutText (bare (p :: pieces)) = p.lexeme.text ++ layoutText (bare pieces) := rfl
    rw [hcons, layoutText_cons]
    simp only [List.length_append]
    omega

/-- What there is to say about a chunk that is described. -/
structure CopiedAs (desc : List UInt8) (tokens : List Cj.Token) (texts : List (List UInt8))
    (pieces : List Placed) (ms : List Kind) : Prop where
  found : descTokens desc = some tokens
  copies : tokens.dropLast.map (tokenCopy desc) = texts.map some
  text : texts.flatten = layoutText pieces
  members : Derives .members ms
  kinds : layoutKinds pieces = .beginObject :: ms
  utf8 : ValidUtf8 (layoutText pieces)
  short : (layoutText pieces).length ≤ desc.length

theorem flatMap_getD {α β : Type*} {f : α → Option (List β)} : ∀ {l : List α} {texts : List (List β)},
    l.map f = texts.map some → (l.flatMap fun a => (f a).getD []) = texts.flatten
  | [], texts, h => by
    rw [map_eq_nil_iff.mp h.symm]
    rfl
  | a :: l, [], h => absurd h (cons_ne_nil _ _)
  | a :: l, text :: texts, h => by
    rw [map_cons, map_cons] at h
    obtain ⟨ha, hl⟩ := List.cons.inj h
    rw [flatMap_cons, ha, flatten_cons, flatMap_getD hl]
    rfl

theorem CopiedAs.copiedText_eq {tokens : List Cj.Token} {texts : List (List UInt8)}
    {pieces : List Placed} {ms : List Kind} (h : CopiedAs desc tokens texts pieces ms) :
    copiedText desc = layoutText pieces := by
  unfold copiedText
  rw [h.found, Option.getD_some, flatMap_getD h.copies, h.text]

theorem layoutSpans_types : ∀ (pos : Nat) (pieces : List Placed),
    (layoutSpans pos pieces).map Prod.fst = (layoutKinds pieces).map kindType
  | _, [] => rfl
  | pos, p :: pieces => by
    rw [layoutSpans, map_cons, layoutSpans_types]
    rfl

theorem validUtf8_flatMap {α : Type*} {f : α → List UInt8} {l : List α}
    (h : ∀ a ∈ l, ValidUtf8 (f a)) : ValidUtf8 (l.flatMap f) := by
  induction l with
  | nil => exact ⟨[], rfl⟩
  | cons a l ih =>
    obtain ⟨ha, hl⟩ := forall_mem_cons.mp h
    rw [flatMap_cons]
    exact JsonBuilder.validUtf8_append ha (ih hl)

theorem Describable.copiedAs (h : Describable desc) :
    ∃ tokens texts pieces ms, CopiedAs desc tokens texts pieces ms := by
  obtain ⟨pieces, ms, hreads, hmembers, hkinds, hfits, hcopied⟩ := h.object
  have hvalue : Derives .value (layoutKinds pieces) := by
    rw [hkinds]
    exact .object hmembers
  obtain ⟨ctx, hctx, hok, hspans, -⟩ := Cj.parse_complete h.utf8 hreads hvalue (by omega) hfits
  obtain ⟨trailing, -, hdesc⟩ := hreads
  have hmap : ctx.tokens.map (tokenCopy desc) = pieces.map fun p => some p.lexeme.text :=
    map_tokenCopy trailing pieces [] ctx.tokens hdesc hspans hcopied
  have htypes : ctx.tokens.map Cj.Token.type = (layoutKinds pieces).map kindType := by
    have hfirst := congrArg (List.map Prod.fst) hspans
    rw [spans, map_map] at hfirst
    rw [show ctx.tokens.map Cj.Token.type = ctx.tokens.map (Prod.fst ∘ fun tok =>
      (tok.type, tok.pos, tok.len)) from rfl, hfirst]
    exact layoutSpans_types 0 pieces
  rw [hkinds] at htypes
  have hhead : ctx.tokens.head?.map Cj.Token.type = some .objectBeg := by
    rw [← List.head?_map, htypes]
    rfl
  have hlast : ctx.tokens.getLast?.map Cj.Token.type = some .objectEnd := by
    rw [← List.getLast?_map, htypes, ← cons_append, map_append, map_singleton, List.getLast?_concat]
    rfl
  have htokens : descTokens desc = some ctx.tokens := by
    unfold descTokens
    rw [if_pos h.long, hctx]
    simp only
    rw [if_pos ⟨hok, hhead, hlast⟩]
  have hvalid : ∀ p ∈ pieces, ValidUtf8 p.lexeme.text := by
    have hutf8 := h.utf8
    rw [hdesc] at hutf8
    exact lexemes_validUtf8 pieces hutf8
  refine ⟨ctx.tokens, pieces.dropLast.map fun p => p.lexeme.text, bare pieces.dropLast, ms, htokens,
    ?_, ?_, hmembers, ?_, ?_, ?_⟩
  · rw [map_dropLast, hmap, ← map_dropLast, map_map]
    rfl
  · rw [layoutText_bare, flatMap_def]
  · have hdrop : layoutKinds pieces.dropLast = (layoutKinds pieces).dropLast :=
      map_dropLast
    rw [layoutKinds_bare, hdrop, hkinds, ← cons_append, dropLast_concat]
  · rw [layoutText_bare]
    exact validUtf8_flatMap fun p hp => hvalid p (dropLast_subset _ hp)
  · have hprefix := length_layoutText_bare pieces.dropLast
    have hwhole : (layoutText pieces.dropLast).length ≤ (layoutText pieces).length :=
      ((List.dropLast_prefix pieces).flatMap _).length_le
    rw [hdesc, List.length_append]
    omega

/-! ## What is written -/

section Written

variable (sha256 : List UInt8 → List UInt8)

/-- A bundle that `IsValidDDFBundle` accepts -/
structure Bundle where
  hash : List UInt8
  desc : List UInt8
deriving DecidableEq, Repr

def bundleOf (file : List UInt8) : Option Bundle :=
  match ddfbContent file with
  | none => none
  | some bsDDFB => (descContent file bsDDFB).map fun desc => ⟨ddfbHash sha256 file bsDDFB, desc⟩

/-- The member of a bundle in a response: its descriptor, with the hash of the file, under the
bundle hash. -/
def recordText (file : List UInt8) (b : Bundle) : List UInt8 :=
  ascii "\"" ++ binToHexAscii b.hash ++ ascii "\":" ++ copiedText b.desc ++
    ascii ", \"file_hash\": \"" ++ binToHexAscii (sha256 file) ++ ascii "\"\x7d"

def commaText (nRecords : Nat) : List UInt8 := if 0 < nRecords then ascii "," else []

theorem length_binToHexAscii (bytes : List UInt8) :
    (binToHexAscii bytes).length = 2 * bytes.length := by
  unfold binToHexAscii
  rw [length_flatMap]
  simp [Nat.mul_comm]

variable {ss : ResponseStream} {file desc str : List UInt8} {nRecords : Nat}

theorem put_eq (hok : ss.ok = true) (hroom : ss.text.length + str.length < maxResponseSize) :
    ss.put str = ⟨ss.text ++ str, true⟩ := by
  unfold ResponseStream.put
  rw [if_pos (by rw [hok, Bool.true_and]; exact decide_eq_true hroom), hok]

theorem put_mk {text : List UInt8} (hroom : text.length + str.length < maxResponseSize) :
    ResponseStream.put ⟨text, true⟩ str = ⟨text ++ str, true⟩ :=
  put_eq rfl hroom

theorem copyTokens_eq : ∀ {tokens : List Cj.Token} {texts : List (List UInt8)}
    {ss : ResponseStream}, tokens.map (tokenCopy desc) = texts.map some → ss.ok = true →
    ss.text.length + texts.flatten.length < maxResponseSize →
    copyTokens desc tokens ss = some ⟨ss.text ++ texts.flatten, true⟩
  | [], texts, ss, hcopies, hok, _ => by
    rw [map_eq_nil_iff.mp hcopies.symm, flatten_nil, append_nil, ← hok]
    rfl
  | tok :: tokens, [], _, hcopies, _, _ => absurd hcopies (cons_ne_nil _ _)
  | tok :: tokens, text :: texts, ss, hcopies, hok, hroom => by
    rw [map_cons, map_cons] at hcopies
    obtain ⟨htok, hrest⟩ := List.cons.inj hcopies
    rw [flatten_cons, List.length_append] at hroom
    have hput := put_eq hok (show ss.text.length + text.length < maxResponseSize by omega)
    have hchecked : ss.putChecked text = some ⟨ss.text ++ text, true⟩ := by
      unfold ResponseStream.putChecked
      rw [hput, if_pos rfl]
    have hmore : (ss.text ++ text).length + texts.flatten.length < maxResponseSize := by
      rw [List.length_append]
      omega
    rw [copyTokens, htok]
    simp only
    rw [hchecked]
    simp only
    rw [copyTokens_eq hrest rfl hmore, flatten_cons, append_assoc]

theorem putHash_eq {hash : List UInt8} (hok : ss.ok = true)
    (hroom : ss.text.length + 2 * hash.length + 4 < maxResponseSize) :
    putHash nRecords hash ss = ⟨ss.text ++ (commaText nRecords ++ (ascii "\"" ++
      binToHexAscii hash ++ ascii "\":")), true⟩ := by
  have hlength := length_binToHexAscii hash
  have hcomma : (if 0 < nRecords then ss.put (ascii ",") else ss) =
      ⟨ss.text ++ commaText nRecords, true⟩ := by
    unfold commaText
    split
    · exact put_eq hok (show ss.text.length + 1 < maxResponseSize by omega)
    · rw [append_nil, ← hok]
  have hshort : (commaText nRecords).length ≤ 1 := by
    unfold commaText
    split <;> decide
  unfold putHash
  simp only
  rw [hcomma, put_mk, put_mk, put_mk]
  · simp only [append_assoc]
  all_goals
    simp only [List.length_append, hlength, show (ascii "\"").length = 1 from rfl,
      show (ascii "\":").length = 2 from rfl]
    omega

theorem putFileHash_eq {hash : List UInt8} (hok : ss.ok = true)
    (hroom : ss.text.length + 2 * hash.length + 18 < maxResponseSize) :
    putFileHash hash ss = ⟨ss.text ++ (ascii ", \"file_hash\": \"" ++ binToHexAscii hash ++
      ascii "\"\x7d"), true⟩ := by
  have hlength := length_binToHexAscii hash
  unfold putFileHash
  rw [put_eq hok, put_mk, put_mk]
  · simp only [append_assoc]
  all_goals
    simp only [List.length_append, hlength, show (ascii ", \"file_hash\": \"").length = 16 from rfl,
      show (ascii "\"\x7d").length = 2 from rfl]
    omega

theorem writeBundleDescriptor_of_none (h : bundleOf sha256 file = none) :
    writeBundleDescriptor sha256 file ss nRecords = some (false, ss) := by
  unfold bundleOf at h
  unfold writeBundleDescriptor
  cases hddfb : ddfbContent file with
  | none => rfl
  | some bsDDFB =>
    rw [hddfb] at h
    simp only at h ⊢
    rw [Option.map_eq_none_iff.mp h]

/-- **The descriptor of a bundle is written** where there is room for it. -/
theorem writeBundleDescriptor_of_describable (hsha : ∀ m, (sha256 m).length = 32) {b : Bundle}
    (hb : bundleOf sha256 file = some b) (hdesc : Describable b.desc) (hok : ss.ok = true)
    (hroom : ss.text.length + b.desc.length + 352 < maxResponseSize) :
    writeBundleDescriptor sha256 file ss nRecords =
      some (true, ⟨ss.text ++ (commaText nRecords ++ recordText sha256 file b), true⟩) := by
  unfold bundleOf at hb
  cases hddfb : ddfbContent file with
  | none =>
    rw [hddfb] at hb
    cases hb
  | some bsDDFB =>
    rw [hddfb] at hb
    obtain ⟨desc, hcontent, rfl⟩ := Option.map_eq_some_iff.mp hb
    simp only at hdesc hroom
    obtain ⟨tokens, texts, pieces, ms, hcopied⟩ := hdesc.copiedAs
    have hcomma : (commaText nRecords).length ≤ 1 := by
      unfold commaText
      split <;> decide
    have hhash : (ddfbHash sha256 file bsDDFB).length = 32 := hsha _
    have htext : (texts.flatten).length ≤ desc.length := by
      rw [hcopied.text]
      exact hcopied.short
    have hcopy : texts.flatten = copiedText desc := by
      rw [hcopied.copiedText_eq, hcopied.text]
    have hfirst := length_binToHexAscii (ddfbHash sha256 file bsDDFB)
    have hfile := hsha file
    unfold writeBundleDescriptor
    rw [hddfb]
    simp only [hcontent, hcopied.found]
    rw [if_pos (by omega), putHash_eq hok (by omega), copyTokens_eq hcopied.copies rfl]
    · simp only
      rw [putFileHash_eq rfl]
      · unfold recordText
        rw [← hcopy]
        simp only [append_assoc]
      · simp only [List.length_append, hfirst, show (ascii "\"").length = 1 from rfl,
          show (ascii "\":").length = 2 from rfl]
        omega
    · simp only [List.length_append, hfirst, show (ascii "\"").length = 1 from rfl,
        show (ascii "\":").length = 2 from rfl]
      omega

end Written

theorem chars_of_unescaped {body : List UInt8}
    (h : ∀ b ∈ body, 0x20 ≤ b ∧ b ≠ 0x22 ∧ b ≠ 0x5C) : Chars body := by
  induction body with
  | nil => exact .nil
  | cons b body ih =>
    obtain ⟨⟨hcontrol, hquote, hsolidus⟩, hrest⟩ := forall_mem_cons.mp h
    exact .unescaped hcontrol hquote hsolidus (ih hrest)

theorem hexDigit_plain : ∀ n < 16, (0x20 ≤ binToHexAscii.hexDigit n ∧ binToHexAscii.hexDigit n ≠
    0x22 ∧ binToHexAscii.hexDigit n ≠ 0x5C) ∧ (binToHexAscii.hexDigit n).toNat < 0x80 := by
  decide

theorem binToHexAscii_plain {bytes : List UInt8} {x : UInt8} (hx : x ∈ binToHexAscii bytes) :
    (0x20 ≤ x ∧ x ≠ 0x22 ∧ x ≠ 0x5C) ∧ x.toNat < 0x80 := by
  obtain ⟨b, -, hb⟩ := mem_flatMap.mp hx
  have hlt := b.toNat_lt
  simp only [mem_cons, not_mem_nil, or_false] at hb
  rcases hb with rfl | rfl
  · exact hexDigit_plain _ (by omega)
  · exact hexDigit_plain _ (by omega)

def hexLexeme (bytes : List UInt8) : Lexeme :=
  JsonBuilder.stringLexeme (binToHexAscii bytes)
    (chars_of_unescaped fun _ hx => (binToHexAscii_plain hx).1)

def nameLexeme (s : String) (h : ∀ b ∈ ascii s, 0x20 ≤ b ∧ b ≠ 0x22 ∧ b ≠ 0x5C) : Lexeme :=
  JsonBuilder.stringLexeme (ascii s) (chars_of_unescaped h)

theorem gap_blank : ∀ b ∈ [(0x20 : UInt8)], isWs b = true := by
  simp [isWs]

def spaced (lexeme : Lexeme) : Placed := ⟨[0x20], gap_blank, lexeme⟩

theorem binToHexAscii_utf8 (bytes : List UInt8) : ValidUtf8 (binToHexAscii bytes) :=
  JsonBuilder.validUtf8_of_ascii fun _ hx => (binToHexAscii_plain hx).2

section Members

variable (sha256 : List UInt8 → List UInt8)

/-- **What is written of a bundle is a member of an object.** -/
theorem exists_recordPieces (file : List UInt8) {b : Bundle} (hdesc : Describable b.desc) :
    ∃ pieces v, layoutText pieces = recordText sha256 file b ∧ layoutKinds pieces = .string ::
      .nameSeparator :: v ∧ Derives .value v ∧ ValidUtf8 (recordText sha256 file b) := by
  obtain ⟨tokens, texts, inner, ms, hcopied⟩ := hdesc.copiedAs
  refine ⟨[.ofLexeme (hexLexeme b.hash), .ofLexeme .nameSeparator] ++ inner ++
    [.ofLexeme .valueSeparator, spaced (nameLexeme "file_hash" (by decide +kernel)),
      .ofLexeme .nameSeparator, spaced (hexLexeme (sha256 file)), .ofLexeme .endObject],
    .beginObject :: ((ms ++ .valueSeparator :: .string :: .nameSeparator :: [.string]) ++
      [.endObject]), ?_, ?_, .object (.members hcopied.members .string), ?_⟩
  · rw [Cj.layoutText_append, Cj.layoutText_append]
    unfold recordText
    rw [hcopied.copiedText_eq]
    simp [Placed.ofLexeme, hexLexeme, spaced, nameLexeme, JsonBuilder.stringLexeme,
      JsonBuilder.quoted, Lexeme.nameSeparator, Lexeme.valueSeparator, Lexeme.endObject, ascii]
  · rw [Cj.layoutKinds_append, Cj.layoutKinds_append, hcopied.kinds]
    simp [Placed.ofLexeme, hexLexeme, spaced, nameLexeme, JsonBuilder.stringLexeme,
      Lexeme.nameSeparator, Lexeme.valueSeparator, Lexeme.endObject]
  · have hplain (s : String) (hs : ∀ x ∈ ascii s, x.toNat < 0x80) : ValidUtf8 (ascii s) :=
      JsonBuilder.validUtf8_of_ascii hs
    unfold recordText
    rw [hcopied.copiedText_eq]
    refine JsonBuilder.validUtf8_append (JsonBuilder.validUtf8_append
      (JsonBuilder.validUtf8_append (JsonBuilder.validUtf8_append (JsonBuilder.validUtf8_append
        (JsonBuilder.validUtf8_append ?_ (binToHexAscii_utf8 _)) ?_) hcopied.utf8) ?_)
          (binToHexAscii_utf8 _)) ?_
    all_goals exact hplain _ (by decide +kernel)

end Members

end Ddf
end DeconzRest

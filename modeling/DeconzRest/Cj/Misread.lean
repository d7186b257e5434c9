import DeconzRest.Cj.Accept

/-!
# When the parser is sound

What the parser accepts is a JSON text unless it is `Misread`: valid UTF-8 whose tokens
fit into the token array and pass the counting checks, but have a `Defect`, or a lone
primitive that breaks off.
-/

namespace DeconzRest
namespace Cj

open Rfc8259

variable {n : Nat}

theorem layout_unique {pieces pieces' : List Placed} (h : Admissible (layoutKinds pieces))
    (h' : Admissible (layoutKinds pieces')) (heq : layoutText pieces = layoutText pieces') :
    layoutKinds pieces = layoutKinds pieces' := by
  by_cases hne : pieces = []
  · subst hne
    by_cases hne' : pieces' = []
    · rw [hne']
    · have htext := (layout_trimmed hne').ne_nil
      exact absurd heq.symm htext
  · have hne' : pieces' ≠ [] := by
      rintro rfl
      exact (layout_trimmed hne).ne_nil heq
    have hstart := progress_start (View.whole (layoutText pieces))
    have hstart' := hstart
    rw [heq] at hstart'
    obtain ⟨s, hloop, hprogress⟩ := @parseLoop_complete _ _ (pieces.length + pieces'.length) _ _ _
      (pieces.length + pieces'.length) hstart hne h (by simp) (by omega)
    obtain ⟨s', hloop', hprogress'⟩ := @parseLoop_complete _ _ (pieces.length + pieces'.length)
      _ _ _ (pieces.length + pieces'.length) hstart' hne' h' (by simp) (by omega)
    rw [heq, hloop'] at hloop
    obtain ⟨rfl, -⟩ := Prod.mk.inj (Option.some.inj hloop)
    have htypes := hprogress.tracks.types.symm.trans hprogress'.tracks.types
    exact List.map_injective_iff.mpr kindType_injective htypes

theorem layout_not_truncated {pieces : List Placed} {gap tail : List UInt8}
    (h : Admissible (layoutKinds pieces)) (hgap : ∀ b ∈ gap, isWhiteSpace b = true)
    (htail : Truncated tail) (heq : layoutText pieces = gap ++ tail) : False := by
  have hdark := truncated_trimmed htail
  have hne : pieces ≠ [] := by
    rintro rfl
    exact (@Trimmed.append gap tail hdark).ne_nil heq.symm
  have hstart := progress_start (View.whole (layoutText pieces))
  have hview := View.whole (layoutText pieces)
  rw [heq] at hview
  obtain ⟨s, hloop, hprogress⟩ := @parseLoop_complete _ _ (pieces.length + 1) _ _ _
    (pieces.length + 1) hstart hne h (by simp) (by omega)
  obtain ⟨s', hloop', htracks⟩ := @parseLoop_truncated (pieces.length + 1) _ _ _ _ pieces.length
    hview hgap htail (by omega)
  rw [heq, hloop'] at hloop
  obtain ⟨rfl, -⟩ := Prod.mk.inj (Option.some.inj hloop)
  have htypes := hprogress.tracks.types.symm.trans htracks.types
  have hkinds : layoutKinds pieces = [.primitive] :=
    List.map_injective_iff.mpr kindType_injective htypes
  obtain ⟨p, rfl, hp⟩ := List.map_eq_singleton_iff.mp hkinds
  -- both the lexeme and the beginning stand behind the same white space
  obtain ⟨⟨c, rest, htext, hc⟩, -⟩ := lexeme_dark p.lexeme
  obtain ⟨hne', hno, more, hmore⟩ := htail
  cases tail with
  | nil => exact hne' rfl
  | cons c' rest' =>
    have hc' := (structuralType_of_not_mem (primitive_head hmore)).2.2
    rw [layoutText_cons, layoutText_nil, List.append_nil, htext] at heq
    obtain ⟨-, hsame⟩ := gap_unique heq (gap_isWhiteSpace p) hgap hc hc'
    have hlexical := p.lexeme.lexical
    rw [hp, htext, hsame] at hlexical
    exact hno hlexical

/-- What the parser accepts although it is no JSON text. -/
structure Misread (n : Nat) (json : List UInt8) : Prop where
  utf8 : ValidUtf8 json
  wrong :
    (∃ pieces, ReadsAs pieces json ∧ pieces.length ≤ n ∧ Lenient (layoutKinds pieces) ∧
      Defect (layoutKinds pieces)) ∨
    (∃ gap tail trailing, json = gap ++ tail ++ trailing ∧ (∀ b ∈ gap, isWhiteSpace b = true) ∧
      (∀ b ∈ trailing, isWhiteSpace b = true) ∧ Truncated tail)

theorem take_text {json text trailing : List UInt8} (h : json = text ++ trailing) :
    json.take text.length = text := by
  rw [h, List.take_left']
  rfl

theorem exists_layout {text : List UInt8} (h : JsonText text) (htext : Trimmed text) :
    ∃ pieces, text = layoutText pieces ∧ Derives .value (layoutKinds pieces) := by
  obtain ⟨-, pieces, ⟨trailing, hws, heq⟩, hderives⟩ := h
  have hne : pieces ≠ [] := by
    rintro rfl
    exact hderives.ne_nil rfl
  have hws' : ∀ b ∈ trailing, isWhiteSpace b = true := by
    intro b hb
    rw [isWhiteSpace_eq]
    exact hws b hb
  have hsame : text ++ [] = layoutText pieces ++ trailing := by rw [List.append_nil, heq]
  exact ⟨pieces, trimmed_unique hsame htext (layout_trimmed hne) (by simp) hws', hderives⟩

theorem Misread.unsound {json : List UInt8} (h : Misread n json) (hn : 8 ≤ n) :
    ∃ ctx, parse (parseInit json n) = some ctx ∧ ctx.status = .ok ∧
      ¬ JsonText (json.take ctx.size) := by
  obtain ⟨hutf8, ⟨pieces, hreads, hfits, hlenient, hdefect⟩ |
    ⟨gap, tail, trailing, hjson, hgap, hws, htail⟩⟩ := h
  · obtain ⟨ctx, hctx, hok, hsize, -⟩ := parse_layout hutf8 hreads hlenient hn hfits
    refine ⟨ctx, hctx, hok, fun hvalid => ?_⟩
    obtain ⟨trailing, -, hjson⟩ := hreads
    have hne : pieces ≠ [] := by
      rintro rfl
      exact hlenient.nonempty rfl
    rw [hsize, take_text hjson] at hvalid
    obtain ⟨pieces', hsame, hderives⟩ := exists_layout hvalid (layout_trimmed hne)
    obtain ⟨hlenient', hno⟩ := (derives_iff _).mp hderives
    rw [layout_unique hlenient.admissible hlenient'.admissible hsame] at hdefect
    exact hno hdefect
  · rw [hjson] at hutf8 ⊢
    obtain ⟨ctx, hctx, hok, hsize⟩ := parse_truncated hutf8 hgap hws htail hn
    refine ⟨ctx, hctx, hok, fun hvalid => ?_⟩
    rw [hsize, take_text rfl] at hvalid
    obtain ⟨pieces', hsame, hderives⟩ := exists_layout hvalid (truncated_trimmed htail).append
    exact layout_not_truncated (lenient_of_derives hderives).admissible hgap htail hsame.symm

theorem jsonText_of_accepted {json text : List UInt8} (h : Accepted n json text)
    (hno : ¬ Misread n json) : JsonText text := by
  obtain ⟨hutf8, -, ⟨trailing, hjson, hws⟩, ⟨pieces, htext, hfits, hlenient⟩ |
    ⟨gap, tail, htext, hgap, htail⟩⟩ := h
  · have hreads : ReadsAs pieces json := by
      refine ⟨trailing, fun b hb => ?_, by rw [hjson, htext]⟩
      rw [← isWhiteSpace_eq]
      exact hws b hb
    have hderives : Derives .value (layoutKinds pieces) := by
      refine (derives_iff _).mpr ⟨hlenient, fun hdefect => ?_⟩
      exact hno ⟨hutf8, .inl ⟨pieces, hreads, hfits, hlenient, hdefect⟩⟩
    have hascii : ∀ b ∈ trailing, b.toNat < 0x80 := by
      intro b hb
      have hspace := hws b hb
      simp only [isWhiteSpace, Bool.or_eq_true, decide_eq_true_eq] at hspace
      rcases hspace with ((rfl | rfl) | rfl) | rfl <;> decide
    rw [hjson] at hutf8
    exact ⟨validUtf8_trim hutf8 hascii, pieces, ⟨[], by simp, by rw [htext, List.append_nil]⟩,
      hderives⟩
  · refine absurd ?_ hno
    exact ⟨hutf8, .inr ⟨gap, tail, trailing, by rw [hjson, htext], hgap, hws, htail⟩⟩

/-- The parser is sound, that is without an error status only for inputs whose trimmed
text is a JSON text, exactly for the inputs that are not misread. -/
theorem sound_iff (json : List UInt8) (hn : 8 ≤ n) :
    (∀ ctx, parse (parseInit json n) = some ctx → ctx.status = .ok →
      JsonText (json.take ctx.size)) ↔ ¬ Misread n json := by
  constructor
  · intro hsound hmisread
    obtain ⟨ctx, hctx, hok, hno⟩ := hmisread.unsound hn
    exact hno (hsound ctx hctx hok)
  · intro hno ctx hctx hok
    have hne : json ≠ [] := by
      rintro rfl
      have hinit : parse (parseInit [] n) = some { parseInit [] n with status := .error } := by
        unfold parse
        rw [if_pos (by simp [parseInit])]
        simp [parseInit]
      rw [hinit] at hctx
      obtain rfl := Option.some.inj hctx
      exact absurd hok (by simp)
    obtain ⟨ctx', hctx', -, haccepted⟩ := parse_sound hne hn
    rw [hctx] at hctx'
    obtain rfl := Option.some.inj hctx'
    obtain ⟨text, hsize, htext⟩ := haccepted hok
    obtain ⟨-, -, ⟨trailing, hjson, -⟩, -⟩ := id htext
    rw [hsize, take_text hjson]
    exact jsonText_of_accepted htext hno

theorem sound_iff_crossedBrackets :
    (∀ ctx, parse (parseInit crossedBrackets 8) = some ctx → ctx.status = .ok →
      JsonText (crossedBrackets.take ctx.size)) ↔ ¬ Misread 8 crossedBrackets :=
  sound_iff crossedBrackets (by decide)

/-- The tokens of `[{]}`. -/
def crossedPieces : List Placed :=
  [.ofLexeme .beginArray, .ofLexeme .beginObject, .ofLexeme .endArray, .ofLexeme .endObject]

theorem crossedPieces_lenient : Lenient (layoutKinds crossedPieces) := by
  have hfirst : Follows [] .beginArray := by
    constructor <;> simp
  have hsecond : Follows [.beginArray] .beginObject := by
    constructor <;> simp [openStack, pushPop, mayFollow]
  have hthird : Follows [.beginArray, .beginObject] .endArray := by
    constructor <;> simp [mayFollow]
  have hfourth : Follows [.beginArray, .beginObject, .endArray] .endObject := by
    constructor <;> simp [mayFollow]
  have hadmissible : Admissible (((([] ++ [.beginArray]) ++ [.beginObject]) ++ [.endArray]) ++
      [.endObject]) := by
    simp only [admissible_concat]
    exact ⟨⟨⟨⟨admissible_nil, hfirst⟩, hsecond⟩, hthird⟩, hfourth⟩
  exact ⟨by decide, hadmissible, rfl, rfl, fun _ => ⟨_, rfl, rfl⟩, .inl rfl⟩

/-- The text `[{]}` is accepted although its brackets are not matched by kind. -/
theorem crossed_brackets_accepted :
    ∃ ctx, parse (parseInit crossedBrackets 8) = some ctx ∧ ctx.status = .ok ∧
      ¬ JsonText (crossedBrackets.take ctx.size) := by
  have hutf8 : ValidUtf8 crossedBrackets := ⟨['[', '\x7b', ']', '\x7d'], by decide⟩
  have hreads : ReadsAs crossedPieces crossedBrackets := ⟨[], by simp, rfl⟩
  have hdefect : Defect (layoutKinds crossedPieces) :=
    .closedAsArray [.beginArray, .beginObject] [.endObject] rfl rfl
  have hmisread : Misread 8 crossedBrackets :=
    ⟨hutf8, .inl ⟨crossedPieces, hreads, by decide, crossedPieces_lenient, hdefect⟩⟩
  exact hmisread.unsound (by decide)

end Cj
end DeconzRest

import DeconzRest.Cj.Accept

/-!
# A text has one layout

Two layouts of one text have the same tokens, as long as neither puts two
primitives next to each other (`1 2` without the blank would be one number).
The scanner that reads the tokens is a function, so both layouts follow it.
-/

namespace DeconzRest
namespace Rfc8259

open List

/-- No primitive stands right behind another one. -/
def Separated (ks : List Kind) : Prop :=
  ∀ front back, ks ≠ front ++ .primitive :: .primitive :: back

theorem Separated.tail {k : Kind} {ks : List Kind} (h : Separated (k :: ks)) : Separated ks := by
  intro front back heq
  apply h (k :: front) back
  rw [heq, cons_append]

theorem Separated.concat {ks : List Kind} {k : Kind} (h : Separated ks)
    (hk : k = .primitive → ks.getLast? ≠ some .primitive) : Separated (ks ++ [k]) := by
  intro front back heq
  rcases eq_nil_or_concat back with rfl | ⟨back, b, rfl⟩
  · -- the pair is at the end, so the last token of `ks` is its first half
    have hsplit : ks ++ [k] = (front ++ [.primitive]) ++ [.primitive] := by
      rw [heq, append_assoc, singleton_append]
    obtain ⟨rfl, hlast⟩ := append_inj' hsplit rfl
    apply hk (singleton_inj.mp hlast)
    exact List.getLast?_concat
  · have hsplit : ks ++ [k] = (front ++ .primitive :: .primitive :: back) ++ [b] := by
      rw [heq, concat_eq_append]
      simp
    obtain ⟨hks, -⟩ := append_inj' hsplit rfl
    exact h front back hks

theorem Derives.separated {ks : List Kind} (h : Derives .value ks) : Separated ks := by
  intro front back heq
  have hadmissible := (Cj.lenient_of_derives h).admissible
  have hsplit : ks = (front ++ [.primitive]) ++ .primitive :: back := by
    rw [heq, append_assoc, singleton_append]
  have hadjacent := (hadmissible _ _ _ hsplit).adjacent .primitive List.getLast?_concat
  exact absurd hadjacent (by decide)

theorem endsPrimitive_layout {pieces : List Placed} {trailing : List UInt8}
    (h : Separated (.primitive :: layoutKinds pieces)) (hws : ∀ b ∈ trailing, isWs b = true) :
    Cj.EndsPrimitive (layoutText pieces ++ trailing) := by
  cases pieces with
  | nil =>
    cases trailing with
    | nil => exact fun _ _ hnil => absurd hnil.symm (cons_ne_nil _ _)
    | cons b trailing =>
      apply Cj.endsPrimitive_of_delimiter
      apply Cj.mem_delimiters
      rw [Cj.isWhiteSpace_eq]
      exact .inr (.inr (hws b mem_cons_self))
  | cons p pieces =>
    obtain ⟨gap, hgap, kind, text, hlex⟩ := p
    cases gap with
    | cons b gap =>
      apply Cj.endsPrimitive_of_delimiter
      apply Cj.mem_delimiters
      rw [Cj.isWhiteSpace_eq]
      exact .inr (.inr (hgap b mem_cons_self))
    | nil =>
      cases kind with
      | primitive => exact absurd rfl (h [] (layoutKinds pieces))
      | string =>
        obtain ⟨body, rfl, -⟩ := hlex
        exact Cj.endsPrimitive_of_delimiter (by decide)
      | _ =>
        have htext : text = _ := hlex
        subst htext
        exact Cj.endsPrimitive_of_delimiter (by decide)

theorem lexeme_unique {lex lex' : Lexeme} {after after' : List UInt8}
    (heq : lex.text ++ after = lex'.text ++ after')
    (h : lex.kind = .primitive → Cj.EndsPrimitive after)
    (h' : lex'.kind = .primitive → Cj.EndsPrimitive after') :
    lex.kind = lex'.kind ∧ after = after' := by
  have hscan := Cj.scanToken_complete lex h
  rw [heq, Cj.scanToken_complete lex' h', Option.some.injEq] at hscan
  have htype : Cj.kindType lex'.kind = Cj.kindType lex.kind := congrArg Cj.Scanned.type hscan
  have htaken : lex'.text.length = lex.text.length := congrArg Cj.Scanned.taken hscan
  exact ⟨(Cj.kindType_injective htype).symm, (append_inj heq htaken.symm).2⟩

theorem layout_head (p : Placed) (pieces : List Placed) (trailing : List UInt8) :
    ∃ c rest, layoutText (p :: pieces) ++ trailing = p.gap ++ c :: rest ∧ Cj.isWhiteSpace c =
      false ∧
      c :: rest = p.lexeme.text ++ (layoutText pieces ++ trailing) := by
  obtain ⟨⟨c, rest, htext, hc⟩, -⟩ := Cj.lexeme_dark p.lexeme
  refine ⟨c, rest ++ (layoutText pieces ++ trailing), ?_, hc, ?_⟩
  · rw [layoutText_cons, htext]
    simp
  · rw [htext, cons_append]

theorem layout_not_blank {p : Placed} {pieces : List Placed} {trailing blank : List UInt8}
    (hblank : ∀ b ∈ blank, isWs b = true) :
    layoutText (p :: pieces) ++ trailing ≠ blank := by
  intro heq
  obtain ⟨c, rest, hhead, hc, -⟩ := layout_head p pieces trailing
  have hmem : c ∈ blank := by
    rw [← heq, hhead]
    simp
  have hspace := hblank c hmem
  rw [← Cj.isWhiteSpace_eq, hc] at hspace
  exact absurd hspace (by decide)

/-- **One text, one token sequence.** -/
theorem layoutKinds_unique {pieces pieces' : List Placed} {trailing trailing' : List UInt8}
    (h : Separated (layoutKinds pieces)) (h' : Separated (layoutKinds pieces'))
    (hws : ∀ b ∈ trailing, isWs b = true) (hws' : ∀ b ∈ trailing', isWs b = true)
    (heq : layoutText pieces ++ trailing = layoutText pieces' ++ trailing') :
    layoutKinds pieces = layoutKinds pieces' := by
  induction pieces generalizing pieces' with
  | nil =>
    cases pieces' with
    | nil => rfl
    | cons p' pieces' => exact absurd heq.symm (layout_not_blank hws)
  | cons p pieces ih =>
    cases pieces' with
    | nil => exact absurd heq (layout_not_blank hws')
    | cons p' pieces' =>
      obtain ⟨c, rest, hhead, hc, htext⟩ := layout_head p pieces trailing
      obtain ⟨c', rest', hhead', hc', htext'⟩ := layout_head p' pieces' trailing'
      rw [hhead, hhead'] at heq
      obtain ⟨-, hsame⟩ := Cj.gap_unique heq (Cj.gap_isWhiteSpace p)
        (Cj.gap_isWhiteSpace p') hc hc'
      rw [htext, htext'] at hsame
      rw [layoutKinds_cons] at h h'
      have hends : p.lexeme.kind = .primitive →
          Cj.EndsPrimitive (layoutText pieces ++ trailing) := by
        intro hprimitive
        rw [hprimitive] at h
        exact endsPrimitive_layout h hws
      have hends' : p'.lexeme.kind = .primitive →
          Cj.EndsPrimitive (layoutText pieces' ++ trailing') := by
        intro hprimitive
        rw [hprimitive] at h'
        exact endsPrimitive_layout h' hws'
      obtain ⟨hkind, hafter⟩ := lexeme_unique hsame hends hends'
      rw [layoutKinds_cons, layoutKinds_cons, hkind, ih h.tail h'.tail hafter]

end Rfc8259
end DeconzRest

import DeconzRest.Cj.Parser
import DeconzRest.Lib.Buffer

/-!
# The token loop over the remaining octets

`cj_next_token` walks over the buffer with an index.  What it finds depends on
the octets from there on only, so each of its loops has a counterpart that is a
recursion over a list: `stringScan`, `primScan` and `scanToken`.  The theorems
here say that the loops compute these, read inside of the buffer, and end.
-/

namespace DeconzRest
namespace Cj

open Option

variable {buf : List UInt8} {stop pos : Nat}

variable {gap rest : List UInt8} {c : UInt8}

theorem eatWhiteSpaceLoop_eq {len str result fuel : Nat}
    (h : View buf stop (str + result) (gap ++ c :: rest)) (hstop : stop = str + len)
    (hgap : ∀ b ∈ gap, isWhiteSpace b = true) (hc : isWhiteSpace c = false)
    (hfuel : gap.length < fuel) :
    eatWhiteSpaceLoop buf str len fuel result = some (result + gap.length) := by
  induction gap generalizing result fuel with
  | nil =>
    cases fuel with
    | zero => exact absurd hfuel (Nat.not_lt_zero _)
    | succ fuel =>
      have hread : buf[str + result]? = some c := h.read
      unfold eatWhiteSpaceLoop
      rw [hread]
      simp [hc]
  | cons b gap ih =>
    cases fuel with
    | zero => exact absurd hfuel (Nat.not_lt_zero _)
    | succ fuel =>
      have hlt : str + result < stop := h.lt
      have hb : isWhiteSpace b = true := hgap b List.mem_cons_self
      have hread : buf[str + result]? = some b := h.read
      have hne : b ≠ 0 := by
        intro hzero
        rw [hzero] at hb
        exact absurd hb (by decide)
      have hstep : eatWhiteSpaceLoop buf str len (fuel + 1) result =
          eatWhiteSpaceLoop buf str len fuel (result + 1) := by
        conv_lhs => unfold eatWhiteSpaceLoop
        rw [hread]
        simp only [bind_eq_bind, bind_some]
        rw [if_pos ⟨hne, by omega⟩, if_pos hb]
      have hrec : eatWhiteSpaceLoop buf str len fuel (result + 1) =
          some (result + 1 + gap.length) := ih h.next
        (fun x hx => hgap x (List.mem_cons_of_mem b hx))
        (by rw [List.length_cons] at hfuel; omega)
      rw [hstep, hrec, List.length_cons]
      congr 1
      omega

theorem eatWhiteSpace_eq (h : View buf stop pos (gap ++ c :: rest))
    (hgap : ∀ b ∈ gap, isWhiteSpace b = true) (hc : isWhiteSpace c = false) :
    eatWhiteSpace buf pos (stop - pos) = some gap.length := by
  have hsub := h.sub_eq
  have hstop := h.stop_eq
  rw [List.length_append] at hsub
  have hloop : eatWhiteSpaceLoop buf pos (stop - pos) (stop - pos + 1) 0 =
      some (0 + gap.length) := eatWhiteSpaceLoop_eq h (by omega) hgap hc (by omega)
  rw [Nat.zero_add] at hloop
  exact hloop

/-- The length of the text up to the closing quotation mark, with `esc` as the
loop has it; `none` where the string is invalid or not closed. -/
def stringScan : Nat → List UInt8 → Option Nat
  | _, [] => none
  | esc, ch :: rest =>
    if esc = 0 ∧ ch = 0x22 then
      some 0
    else
      match stringNext esc ch with
      | some esc => (stringScan esc rest).map (· + 1)
      | none => none

theorem nextTokenLoop_string {fuel : Nat} (esc : Nat) (prim : PrimState) {tok : Token}
    {rest : List UInt8} (h : View buf stop pos rest) (htype : tok.type = .string)
    (hfuel : rest.length < fuel) :
    ∃ p t, nextTokenLoop buf stop fuel pos tok esc prim = some (p, t) ∧
      match stringScan esc rest with
      | some n => p = pos + (n + 1) ∧ t = { tok with len := tok.len + n }
      | none => t.type = .invalid := by
  induction rest generalizing fuel pos tok esc with
  | nil =>
    cases fuel with
    | zero => exact absurd hfuel (Nat.not_lt_zero _)
    | succ fuel =>
      refine ⟨pos, { tok with type := .invalid }, ?_, rfl⟩
      unfold nextTokenLoop
      rw [if_neg h.not_lt, if_pos htype]
  | cons ch rest ih =>
    cases fuel with
    | zero => exact absurd hfuel (Nat.not_lt_zero _)
    | succ fuel =>
      have hstep : nextTokenLoop buf stop (fuel + 1) pos tok esc prim = if esc = 0 ∧ ch =
          0x22 then
            some (pos + 1, tok)
          else
            match stringNext esc ch with
            | some esc =>
              nextTokenLoop buf stop fuel (pos + 1) { tok with len := tok.len + 1 } esc prim
            | none => some (pos, { tok with type := .invalid }) := by
        conv_lhs => unfold nextTokenLoop
        rw [if_pos h.lt, h.read]
        obtain ⟨type, p, l, parent⟩ := tok
        subst htype
        rfl
      rw [hstep]
      unfold stringScan
      by_cases hquote : esc = 0 ∧ ch = 0x22
      · rw [if_pos hquote, if_pos hquote]
        exact ⟨pos + 1, tok, rfl, rfl, rfl⟩
      · rw [if_neg hquote, if_neg hquote]
        cases hnext : stringNext esc ch with
        | none => exact ⟨pos, _, rfl, rfl⟩
        | some next =>
          have hlen : rest.length < fuel := by
            rw [List.length_cons] at hfuel
            omega
          have htype' : { tok with len := tok.len + 1 }.type = .string := htype
          obtain ⟨p, t, hloop, hresult⟩ := ih next h.next htype' hlen
          refine ⟨p, t, hloop, ?_⟩
          cases hscan : stringScan next rest with
          | none =>
            simp only [hscan, map_none] at hresult ⊢
            exact hresult
          | some n =>
            simp only [hscan, map_some] at hresult ⊢
            obtain ⟨hp, ht⟩ := hresult
            refine ⟨?_, ?_⟩
            · rw [hp]
              omega
            · rw [ht]
              simp only [Token.mk.injEq, true_and, and_true]
              omega

/-- The length of a primitive and the state it ends in; `none` where it is
invalid.  A primitive that the text ends in is not looked at again. -/
def primScan : PrimState → List UInt8 → Option (Nat × PrimState)
  | prim, [] => some (0, prim)
  | prim, ch :: rest =>
    if ch = 0 then
      none
    else if primNext prim ch = .init then
      if prim.isEnd then some (0, prim) else none
    else if primNext prim ch = .finish then
      some (1, .finish)
    else
      (primScan (primNext prim ch) rest).map fun r => (r.1 + 1, r.2)

theorem nextTokenLoop_primitive {fuel : Nat} (esc : Nat) (prim : PrimState) {tok : Token}
    {rest : List UInt8} (h : View buf stop pos rest) (htype : tok.type = .primitive)
    (hfuel : rest.length < fuel) :
    ∃ p t, nextTokenLoop buf stop fuel pos tok esc prim = some (p, t) ∧
      match primScan prim rest with
      | some (n, _) => p = pos + n ∧ t = { tok with len := tok.len + n }
      | none => t.type = .invalid := by
  induction rest generalizing fuel pos tok prim with
  | nil =>
    cases fuel with
    | zero => exact absurd hfuel (Nat.not_lt_zero _)
    | succ fuel =>
      refine ⟨pos, tok, ?_, rfl, rfl⟩
      unfold nextTokenLoop
      rw [if_neg h.not_lt, if_neg (by rw [htype]; decide)]
  | cons ch rest ih =>
    cases fuel with
    | zero => exact absurd hfuel (Nat.not_lt_zero _)
    | succ fuel =>
      have hstep : nextTokenLoop buf stop (fuel + 1) pos tok esc prim = if ch =
          0 then
            some (pos, { tok with type := .invalid })
          else if primNext prim ch = .init then
            some (pos, if prim.isEnd then tok else { tok with type := .invalid })
          else if primNext prim ch = .finish then
            some (pos + 1, { tok with len := tok.len + 1 })
          else
            nextTokenLoop buf stop fuel (pos + 1) { tok with len := tok.len + 1 } esc
              (primNext prim ch) := by
        conv_lhs => unfold nextTokenLoop
        rw [if_pos h.lt, h.read]
        simp only [bind_eq_bind, bind_some, htype]
      rw [hstep]
      unfold primScan
      by_cases hzero : ch = 0
      · rw [if_pos hzero, if_pos hzero]
        exact ⟨pos, _, rfl, rfl⟩
      · rw [if_neg hzero, if_neg hzero]
        by_cases hinit : primNext prim ch = .init
        · rw [if_pos hinit, if_pos hinit]
          cases hend : prim.isEnd with
          | true => exact ⟨pos, tok, rfl, rfl, rfl⟩
          | false => exact ⟨pos, _, rfl, rfl⟩
        · rw [if_neg hinit, if_neg hinit]
          by_cases hfinish : primNext prim ch = .finish
          · rw [if_pos hfinish, if_pos hfinish]
            exact ⟨pos + 1, _, rfl, rfl, rfl⟩
          · rw [if_neg hfinish, if_neg hfinish]
            have hlen : rest.length < fuel := by
              rw [List.length_cons] at hfuel
              omega
            have htype' : { tok with len := tok.len + 1 }.type = .primitive := htype
            obtain ⟨p, t, hloop, hresult⟩ := ih (primNext prim ch) h.next htype' hlen
            refine ⟨p, t, hloop, ?_⟩
            cases hscan : primScan (primNext prim ch) rest with
            | none =>
              simp only [hscan, map_none] at hresult ⊢
              exact hresult
            | some r =>
              simp only [hscan, map_some] at hresult ⊢
              obtain ⟨hp, ht⟩ := hresult
              refine ⟨?_, ?_⟩
              · rw [hp]
                omega
              · rw [ht]
                simp only [Token.mk.injEq, true_and, and_true]
                omega

/-! ## Tokens -/

/-- A token at the front of a text: its type, the octets it takes, and where its
value starts and how long it is. -/
structure Scanned where
  type : TokenType
  taken : Nat
  offset : Nat
  len : Nat
deriving DecidableEq, Repr

def scanToken : List UInt8 → Option Scanned
  | [] => none
  | ch :: rest =>
    if structuralType ch ≠ .invalid then
      some ⟨structuralType ch, 1, 0, 1⟩
    else if ch = 0x22 then
      (stringScan 0 rest).map fun n => ⟨.string, n + 2, 1, n⟩
    else
      (primScan .init (ch :: rest)).map fun r => ⟨.primitive, r.1, 0, r.1⟩

theorem scanToken_cons (ch : UInt8) (rest : List UInt8) :
    scanToken (ch :: rest) = if structuralType ch ≠
      .invalid then
        some ⟨structuralType ch, 1, 0, 1⟩
      else if ch = 0x22 then
        (stringScan 0 rest).map fun n => ⟨.string, n + 2, 1, n⟩
      else
        (primScan .init (ch :: rest)).map fun r => ⟨.primitive, r.1, 0, r.1⟩ := rfl

theorem nextToken_eq (h : View buf stop pos (gap ++ c :: rest))
    (hgap : ∀ b ∈ gap, isWhiteSpace b = true) (hc : isWhiteSpace c = false) :
    ∃ p t, nextToken buf stop pos {} = some (p, t) ∧
      match scanToken (c :: rest) with
      | some r => p = pos + gap.length + r.taken ∧
          t = { type := r.type, pos := pos + gap.length + r.offset, len := r.len }
      | none => t.type = .invalid := by
  have hview := h.advance
  have hsub := hview.sub_eq
  rw [List.length_cons] at hsub
  generalize htok : ({ pos := pos + gap.length } : Token) = tok
  have hnext : nextToken buf stop pos {} =
      nextTokenLoop buf stop (stop - (pos + gap.length) + 1 + 1) (pos + gap.length) tok 0 .init := by
    unfold nextToken
    rw [eatWhiteSpace_eq h hgap hc, ← htok]
    rfl
  have hstep : nextToken buf stop pos {} = if structuralType c ≠
      .invalid then
        some (pos + gap.length + 1, { tok with type := structuralType c, len := 1 })
      else if c = 0x22 then
        nextTokenLoop buf stop (stop - (pos + gap.length) + 1) (pos + gap.length + 1)
          { tok with type := .string, pos := tok.pos + 1 } 0 .init
      else
        nextTokenLoop buf stop (stop - (pos + gap.length) + 1) (pos + gap.length)
          { tok with type := .primitive, len := 0 } 0 .init := by
    rw [hnext]
    conv_lhs => unfold nextTokenLoop
    rw [if_pos hview.lt, hview.read, ← htok]
    rfl
  rw [hstep, scanToken_cons]
  by_cases hstructural : structuralType c ≠ .invalid
  · rw [if_pos hstructural, if_pos hstructural, ← htok]
    exact ⟨_, _, rfl, rfl, rfl⟩
  · rw [if_neg hstructural, if_neg hstructural]
    by_cases hquote : c = 0x22
    · rw [if_pos hquote, if_pos hquote]
      have htype : { tok with type := .string, pos := tok.pos + 1 }.type = .string := rfl
      have hfuel : rest.length < stop - (pos + gap.length) + 1 := by omega
      obtain ⟨p, t, hloop, hresult⟩ := nextTokenLoop_string 0 .init hview.next htype hfuel
      refine ⟨p, t, hloop, ?_⟩
      cases hscan : stringScan 0 rest with
      | none =>
        simp only [hscan, map_none] at hresult ⊢
        exact hresult
      | some n =>
        simp only [hscan, map_some] at hresult ⊢
        obtain ⟨hp, ht⟩ := hresult
        refine ⟨?_, ?_⟩
        · rw [hp]
          show pos + gap.length + 1 + (n + 1) = pos + gap.length + (n + 2)
          omega
        · rw [ht, ← htok]
          simp
    · rw [if_neg hquote, if_neg hquote]
      have htype : { tok with type := .primitive, len := 0 }.type = .primitive := rfl
      have hfuel : (c :: rest).length < stop - (pos + gap.length) + 1 := by
        rw [List.length_cons]
        omega
      obtain ⟨p, t, hloop, hresult⟩ := nextTokenLoop_primitive 0 .init hview htype hfuel
      refine ⟨p, t, hloop, ?_⟩
      cases hscan : primScan .init (c :: rest) with
      | none =>
        simp only [hscan, map_none] at hresult ⊢
        exact hresult
      | some r =>
        simp only [hscan, map_some] at hresult ⊢
        obtain ⟨hp, ht⟩ := hresult
        refine ⟨hp, ?_⟩
        rw [ht, ← htok]
        simp

theorem nextToken_empty (c : UInt8) (rest : List UInt8) :
    ∃ t, nextToken (c :: rest) 0 0 {} = some (0, t) ∧ t.type = .invalid := by
  have heat : eatWhiteSpace (c :: rest) 0 0 = some 0 := by
    by_cases hc : c = 0
    · simp [eatWhiteSpace, eatWhiteSpaceLoop]
    · simp [eatWhiteSpace, eatWhiteSpaceLoop]
  refine ⟨{}, ?_, rfl⟩
  unfold nextToken
  rw [heat]
  rfl

end Cj
end DeconzRest

import DeconzRest.Cj.Scan
import DeconzRest.Lib.JsonGrammar

/-!
# What the token loop takes for a token

The scans of `DeconzRest.Cj.Scan` against the lexical level of RFC 8259.  A state of a primitive
has its texts that complete it (`Rest`), and one character leads from a state to the next, so what
is scanned without being complete is a primitive that the text ends too early for.
-/

namespace DeconzRest
namespace Cj

open List Option

open Rfc8259 (Chars Digits Digits1 IntPart FracPart ExpPart Number Primitive Lexeme Kind
  literalNull literalTrue literalFalse)

variable (c : UInt8)

theorem isWhiteSpace_eq : isWhiteSpace c = Rfc8259.isWs c := by
  unfold isWhiteSpace Rfc8259.isWs
  cases decide (c = 0x20) <;> cases decide (c = 0x09) <;> cases decide (c = 0x0A) <;>
    cases decide (c = 0x0D) <;> rfl

theorem isHex_eq : isHex c = Rfc8259.isHexDigit c := by
  unfold isHex Rfc8259.isHexDigit Rfc8259.isDigit
  cases decide (0x61 ≤ c) && decide (c ≤ 0x66) <;> cases decide (0x41 ≤ c) && decide (c ≤ 0x46) <;>
    cases decide (0x30 ≤ c) && decide (c ≤ 0x39) <;> rfl

theorem isEscape_iff :
    c ∈ [0x22, 0x6E, 0x5C, 0x2F, 0x74, 0x72, 0x62, 0x66] ↔ Rfc8259.isEscape c = true := by
  simp [Rfc8259.isEscape]
  tauto

/-! ## Strings -/

variable {ch : UInt8} {rest : List UInt8}

theorem stringScan_next {esc n : Nat} (hquote : ¬ (esc = 0 ∧ ch = 0x22))
    (hnext : stringNext esc ch = some n) :
    stringScan esc (ch :: rest) = (stringScan n rest).map (· + 1) := by
  conv_lhs => unfold stringScan
  rw [if_neg hquote, hnext]

theorem stringNext_hex {esc : Nat} (hesc : 2 ≤ esc) (hch : Rfc8259.isHexDigit ch = true) :
    stringNext esc ch = some (if esc + 1 = 6 then 0 else esc + 1) := by
  unfold stringNext
  rw [if_neg (by omega), if_neg (by omega), isHex_eq, if_pos hch]

theorem stringScan_hex {esc : Nat} (hesc : 2 ≤ esc) (hch : Rfc8259.isHexDigit ch = true) :
    stringScan esc (ch :: rest) =
      (stringScan (if esc + 1 = 6 then 0 else esc + 1) rest).map (· + 1) :=
  stringScan_next (fun hq => by omega) (stringNext_hex hesc hch)

theorem stringScan_complete {body : List UInt8} (h : Chars body) (after : List UInt8) :
    stringScan 0 (body ++ 0x22 :: after) = some body.length := by
  induction h with
  | nil => rfl
  | @unescaped b rest hcontrol hquote hsolidus _ ih =>
    have hnext : stringNext 0 b = some 0 := by
      unfold stringNext
      rw [if_pos rfl, if_neg (by simpa using hcontrol), if_neg hsolidus]
    rw [cons_append, stringScan_next (fun hq => hquote hq.2) hnext, ih]
    rfl
  | @escape b rest hb _ ih =>
    have hnext : stringNext 1 b = some 0 := by
      unfold stringNext
      rw [if_neg Nat.one_ne_zero, if_pos rfl, if_pos ((isEscape_iff b).mpr hb)]
    rw [cons_append, stringScan_next (n := 1) (by decide) rfl, cons_append,
      stringScan_next (fun hq => Nat.one_ne_zero hq.1) hnext, ih]
    rfl
  | @unicode a b c d rest ha hb hc hd _ ih =>
    have hu : stringScan 1 (0x75 :: a :: b :: c :: d :: (rest ++ 0x22 :: after)) =
        (stringScan 2 (a :: b :: c :: d :: (rest ++ 0x22 :: after))).map (· + 1) :=
      stringScan_next (by decide) (by decide)
    have h2 : stringScan 2 (a :: b :: c :: d :: (rest ++ 0x22 :: after)) =
        (stringScan 3 (b :: c :: d :: (rest ++ 0x22 :: after))).map (· + 1) :=
      stringScan_hex (by decide) ha
    have h3 : stringScan 3 (b :: c :: d :: (rest ++ 0x22 :: after)) =
        (stringScan 4 (c :: d :: (rest ++ 0x22 :: after))).map (· + 1) :=
      stringScan_hex (by decide) hb
    have h4 : stringScan 4 (c :: d :: (rest ++ 0x22 :: after)) =
        (stringScan 5 (d :: (rest ++ 0x22 :: after))).map (· + 1) :=
      stringScan_hex (by decide) hc
    have h5 : stringScan 5 (d :: (rest ++ 0x22 :: after)) =
        (stringScan 0 (rest ++ 0x22 :: after)).map (· + 1) :=
      stringScan_hex (by decide) hd
    simp only [cons_append]
    rw [stringScan_next (n := 1) (by decide) rfl, hu, h2, h3, h4, h5, ih]
    rfl

/-- What the loop has read of an escape sequence at each value of `esc`. -/
def EscapeSoFar (esc : Nat) (front : List UInt8) : Prop :=
  (esc = 0 ∧ front = []) ∨ (esc = 1 ∧ front = [0x5C]) ∨
    ∃ digits, (∀ b ∈ digits, Rfc8259.isHexDigit b = true) ∧ digits.length ≤ 3 ∧ esc =
      digits.length + 2 ∧ front = 0x5C :: 0x75 :: digits

theorem stringNext_zero {next : Nat} (h : stringNext 0 ch = some next) :
    0x20 ≤ ch ∧ (ch = 0x5C ∧ next = 1 ∨ ch ≠ 0x5C ∧ next = 0) := by
  unfold stringNext at h
  rw [if_pos rfl] at h
  by_cases hcontrol : ch < 0x20
  · rw [if_pos hcontrol] at h
    exact absurd h.symm (some_ne_none next)
  · rw [if_neg hcontrol] at h
    refine ⟨UInt8.not_lt.mp hcontrol, ?_⟩
    by_cases hsolidus : ch = 0x5C
    · rw [if_pos hsolidus] at h
      exact .inl ⟨hsolidus, (some.inj h).symm⟩
    · rw [if_neg hsolidus] at h
      exact .inr ⟨hsolidus, (some.inj h).symm⟩

theorem stringNext_one {next : Nat} (h : stringNext 1 ch = some next) :
    Rfc8259.isEscape ch = true ∧ next = 0 ∨ ch = 0x75 ∧ next = 2 := by
  unfold stringNext at h
  rw [if_neg Nat.one_ne_zero, if_pos rfl] at h
  by_cases hescape : Rfc8259.isEscape ch = true
  · rw [if_pos ((isEscape_iff ch).mpr hescape)] at h
    exact .inl ⟨hescape, (some.inj h).symm⟩
  · rw [if_neg (fun hmem => hescape ((isEscape_iff ch).mp hmem))] at h
    by_cases hu : ch = 0x75
    · rw [if_pos hu] at h
      exact .inr ⟨hu, (some.inj h).symm⟩
    · rw [if_neg hu] at h
      exact absurd h.symm (some_ne_none next)

theorem stringNext_of_two_le {esc next : Nat} (hesc : 2 ≤ esc) (h : stringNext esc ch = some next) :
    Rfc8259.isHexDigit ch = true ∧ next = if esc + 1 = 6 then 0 else esc + 1 := by
  unfold stringNext at h
  rw [if_neg (by omega), if_neg (by omega), isHex_eq] at h
  by_cases hhex : Rfc8259.isHexDigit ch = true
  · rw [if_pos hhex] at h
    exact ⟨hhex, (some.inj h).symm⟩
  · rw [if_neg hhex] at h
    exact absurd h.symm (some_ne_none next)

theorem stringScan_sound_of {esc n : Nat} {front rest : List UInt8}
    (hfront : EscapeSoFar esc front) (h : stringScan esc rest = some n) :
    ∃ body after, rest = body ++ 0x22 :: after ∧ Chars (front ++ body) ∧ n = body.length := by
  induction rest generalizing esc n front with
  | nil => exact absurd h.symm (some_ne_none n)
  | cons ch rest ih =>
    by_cases hquote : esc = 0 ∧ ch = 0x22
    · unfold stringScan at h
      rw [if_pos hquote] at h
      rcases hfront with ⟨-, rfl⟩ | ⟨hone, -⟩ | ⟨digits, -, -, hesc, -⟩
      · exact ⟨[], rest, by rw [hquote.2]; rfl, .nil, (some.inj h).symm⟩
      · omega
      · omega
    · cases hnext : stringNext esc ch with
      | none =>
        unfold stringScan at h
        rw [if_neg hquote, hnext] at h
        exact absurd h.symm (some_ne_none n)
      | some next =>
        rw [stringScan_next hquote hnext] at h
        obtain ⟨m, hm, rfl⟩ := map_eq_some_iff.mp h
        have hrest : ∀ {f : List UInt8}, EscapeSoFar next f →
            (∀ body, Chars (f ++ body) → Chars (front ++ ch :: body)) →
            ∃ body after, ch :: rest = body ++ 0x22 :: after ∧ Chars (front ++ body) ∧ m + 1 =
              body.length := by
          intro f hf hchars
          obtain ⟨body, after, rfl, hbody, rfl⟩ := ih hf hm
          exact ⟨ch :: body, after, rfl, hchars body hbody, rfl⟩
        rcases hfront with ⟨rfl, rfl⟩ | ⟨rfl, rfl⟩ | ⟨digits, hdigits, hlen, rfl, rfl⟩
        · obtain ⟨hcontrol, ⟨rfl, rfl⟩ | ⟨hsolidus, rfl⟩⟩ := stringNext_zero hnext
          · exact hrest (.inr (.inl ⟨rfl, rfl⟩)) (fun _ hbody => hbody)
          · exact hrest (.inl ⟨rfl, rfl⟩) fun _ hbody =>
              .unescaped hcontrol (fun hq => hquote ⟨rfl, hq⟩) hsolidus hbody
        · rcases stringNext_one hnext with ⟨hescape, rfl⟩ | ⟨rfl, rfl⟩
          · exact hrest (.inl ⟨rfl, rfl⟩) (fun _ hbody => .escape hescape hbody)
          · exact hrest (.inr (.inr ⟨[], by simp, by simp, rfl, rfl⟩)) (fun _ hbody => hbody)
        · obtain ⟨hhex, hn⟩ := stringNext_of_two_le (by omega) hnext
          have hdigits' : ∀ b ∈ digits ++ [ch], Rfc8259.isHexDigit b = true := by
            intro b hb
            rcases mem_append.mp hb with hb | hb
            · exact hdigits b hb
            · rw [mem_singleton.mp hb]
              exact hhex
          by_cases hfour : digits.length = 3
          · -- the fourth digit ends the escape sequence
            rw [hfour, if_pos rfl] at hn
            refine hrest (.inl ⟨hn, rfl⟩) fun body hbody => ?_
            obtain ⟨a, b, c, rfl⟩ := length_eq_three.mp hfour
            exact .unicode (hdigits a (by simp)) (hdigits b (by simp))
              (hdigits c (by simp)) hhex hbody
          · rw [if_neg (by omega)] at hn
            refine hrest (f := 0x5C :: 0x75 :: (digits ++ [ch]))
              (.inr (.inr ⟨digits ++ [ch], hdigits', ?_, ?_, rfl⟩)) fun body hbody => ?_
            · rw [List.length_append, length_singleton]
              omega
            · rw [hn, List.length_append, length_singleton]
            · simpa using hbody

theorem stringScan_iff {n : Nat} :
    stringScan 0 rest = some n ↔ ∃ body after, rest = body ++ 0x22 :: after ∧ Chars body ∧ n =
      body.length := by
  constructor
  · intro h
    exact stringScan_sound_of (.inl ⟨rfl, rfl⟩) h
  · rintro ⟨body, after, rfl, hbody, rfl⟩
    exact stringScan_complete hbody after

/-! ## Primitives -/

def AfterInt (l : List UInt8) : Prop := ∃ frac exp, l = frac ++ exp ∧ FracPart frac ∧ ExpPart exp

/-- For each state the texts that complete a primitive from there. -/
def Rest : PrimState → List UInt8 → Prop
  | .init, l => Primitive l
  | .nullN, l => l = [0x75, 0x6C, 0x6C]
  | .nullU, l => l = [0x6C, 0x6C]
  | .nullL1, l => l = [0x6C]
  | .trueT, l => l = [0x72, 0x75, 0x65]
  | .trueR, l => l = [0x75, 0x65]
  | .trueU, l => l = [0x65]
  | .falseF, l => l = [0x61, 0x6C, 0x73, 0x65]
  | .falseA, l => l = [0x6C, 0x73, 0x65]
  | .falseL, l => l = [0x73, 0x65]
  | .falseS, l => l = [0x65]
  | .falseE, _ => False
  | .numberSign, l => ∃ int more, l = int ++ more ∧ IntPart int ∧ AfterInt more
  | .numberInitialZero, l => AfterInt l
  | .numberDigit, l => ∃ ds more, l = ds ++ more ∧ Digits ds ∧ AfterInt more
  | .numberDot, l => ∃ ds exp, l = ds ++ exp ∧ Digits1 ds ∧ ExpPart exp
  | .numberFractDigit, l => ∃ ds exp, l = ds ++ exp ∧ Digits ds ∧ ExpPart exp
  | .numberExpE, l => ∃ sign ds, l = sign ++ ds ∧ (sign = [] ∨ sign = [0x2B] ∨ sign = [0x2D]) ∧
      Digits1 ds
  | .numberExpSign, l => Digits1 l
  | .numberExpDigit, l => Digits l
  | .finish, l => l = []

theorem digits_cons (ch : UInt8) (l : List UInt8) :
    Digits (ch :: l) ↔ isDigit ch = true ∧ Digits l := by
  unfold Rfc8259.Digits
  rw [forall_mem_cons]
  exact Iff.rfl

theorem digits1_cons (ch : UInt8) (l : List UInt8) :
    Digits1 (ch :: l) ↔ isDigit ch = true ∧ Digits l := by
  unfold Rfc8259.Digits1
  rw [digits_cons]
  exact ⟨fun h => h.2, fun h => ⟨cons_ne_nil ch l, h⟩⟩

theorem digits_append_cons {P : List UInt8 → Prop} (ch : UInt8) (l : List UInt8) :
    (∃ ds more, ch :: l = ds ++ more ∧ Digits ds ∧ P more) ↔ P (ch :: l) ∨ isDigit ch = true ∧
      ∃ ds more, l = ds ++ more ∧ Digits ds ∧ P more := by
  constructor
  · rintro ⟨ds, more, heq, hds, hmore⟩
    cases ds with
    | nil =>
      rw [nil_append] at heq
      rw [heq]
      exact .inl hmore
    | cons d ds =>
      rw [cons_append] at heq
      obtain ⟨rfl, rfl⟩ := List.cons.inj heq
      rw [digits_cons] at hds
      exact .inr ⟨hds.1, ds, more, rfl, hds.2, hmore⟩
  · rintro (hmore | ⟨hch, ds, more, rfl, hds, hmore⟩)
    · exact ⟨[], ch :: l, rfl, by simp [Rfc8259.Digits], hmore⟩
    · exact ⟨ch :: ds, more, rfl, (digits_cons ch ds).mpr ⟨hch, hds⟩, hmore⟩

theorem digits1_append_cons {P : List UInt8 → Prop} (ch : UInt8) (l : List UInt8) :
    (∃ ds more, ch :: l = ds ++ more ∧ Digits1 ds ∧ P more) ↔ isDigit ch = true ∧ ∃ ds more, l =
      ds ++ more ∧ Digits ds ∧ P more := by
  constructor
  · rintro ⟨ds, more, heq, hds, hmore⟩
    cases ds with
    | nil => exact absurd rfl hds.1
    | cons d ds =>
      rw [cons_append] at heq
      obtain ⟨rfl, rfl⟩ := List.cons.inj heq
      rw [digits1_cons] at hds
      exact ⟨hds.1, ds, more, rfl, hds.2, hmore⟩
  · rintro ⟨hch, ds, more, rfl, hds, hmore⟩
    exact ⟨ch :: ds, more, rfl, (digits1_cons ch ds).mpr ⟨hch, hds⟩, hmore⟩

theorem isExp_iff (ch : UInt8) : isExp ch = true ↔ ch = 0x65 ∨ ch = 0x45 := by
  simp [isExp]

theorem expPart_cons (ch : UInt8) (l : List UInt8) :
    ExpPart (ch :: l) ↔ isExp ch = true ∧ Rest .numberExpE l := by
  rw [isExp_iff]
  constructor
  · rintro (h | ⟨e, sign, ds, heq, he, hsign, hds⟩)
    · exact absurd h (cons_ne_nil ch l)
    · obtain ⟨rfl, rfl⟩ := List.cons.inj heq
      exact ⟨he, sign, ds, rfl, hsign, hds⟩
  · rintro ⟨he, sign, ds, rfl, hsign, hds⟩
    exact .inr ⟨ch, sign, ds, rfl, he, hsign, hds⟩

theorem afterInt_cons (ch : UInt8) (l : List UInt8) :
    AfterInt (ch :: l) ↔ ch = 0x2E ∧ Rest .numberDot l ∨ ExpPart (ch :: l) := by
  constructor
  · rintro ⟨frac, exp, heq, hfrac | ⟨ds, hfrac, hds⟩, hexp⟩
    · rw [hfrac, nil_append] at heq
      rw [heq]
      exact .inr hexp
    · rw [hfrac, cons_append] at heq
      obtain ⟨rfl, rfl⟩ := List.cons.inj heq
      exact .inl ⟨rfl, ds, exp, rfl, hds, hexp⟩
  · rintro (⟨rfl, ds, exp, rfl, hds, hexp⟩ | hexp)
    · exact ⟨0x2E :: ds, exp, rfl, .inr ⟨ds, rfl, hds⟩, hexp⟩
    · exact ⟨[], ch :: l, rfl, .inl rfl, hexp⟩

theorem digit19_iff (ch : UInt8) : (0x31 ≤ ch ∧ ch ≤ 0x39) ↔ isDigit ch = true ∧ ch ≠ 0x30 := by
  simp only [isDigit, Bool.and_eq_true, decide_eq_true_eq, UInt8.le_iff_toNat_le, ne_eq,
    ← UInt8.toNat_inj]
  show (49 ≤ ch.toNat ∧ ch.toNat ≤ 57) ↔ (48 ≤ ch.toNat ∧ ch.toNat ≤ 57) ∧ ¬ ch.toNat = 48
  omega

theorem numberSign_cons (ch : UInt8) (l : List UInt8) :
    Rest .numberSign (ch :: l) ↔ ch = 0x30 ∧ Rest .numberInitialZero l ∨ (0x31 ≤ ch ∧ ch ≤ 0x39) ∧
      Rest .numberDigit l := by
  rw [digit19_iff]
  constructor
  · rintro ⟨int, more, heq, rfl | ⟨d, ds, rfl, hd, hne, hds⟩, hmore⟩
    · obtain ⟨rfl, rfl⟩ := List.cons.inj heq
      exact .inl ⟨rfl, hmore⟩
    · rw [cons_append] at heq
      obtain ⟨rfl, rfl⟩ := List.cons.inj heq
      exact .inr ⟨⟨hd, hne⟩, ds, more, rfl, hds, hmore⟩
  · rintro (⟨rfl, hmore⟩ | ⟨⟨hd, hne⟩, ds, more, rfl, hds, hmore⟩)
    · exact ⟨[0x30], l, rfl, .inl rfl, hmore⟩
    · exact ⟨ch :: ds, more, rfl, .inr ⟨ch, ds, rfl, hd, hne, hds⟩, hmore⟩

theorem number_cons (ch : UInt8) (l : List UInt8) :
    Number (ch :: l) ↔ Rest .numberSign (ch :: l) ∨ ch = 0x2D ∧ Rest .numberSign l := by
  constructor
  · rintro ⟨minus, int, frac, exp, heq, rfl | rfl, hint, hfrac, hexp⟩
    · exact .inl ⟨int, frac ++ exp, heq, hint, frac, exp, rfl, hfrac, hexp⟩
    · obtain ⟨rfl, rfl⟩ := List.cons.inj heq
      exact .inr ⟨rfl, int, frac ++ exp, rfl, hint, frac, exp, rfl, hfrac, hexp⟩
  · rintro (⟨int, more, heq, hint, frac, exp, rfl, hfrac, hexp⟩ |
      ⟨rfl, int, more, rfl, hint, frac, exp, rfl, hfrac, hexp⟩)
    · exact ⟨[], int, frac, exp, heq, .inl rfl, hint, hfrac, hexp⟩
    · exact ⟨[0x2D], int, frac, exp, rfl, .inr rfl, hint, hfrac, hexp⟩

theorem primitive_cons (ch : UInt8) (l : List UInt8) :
    Primitive (ch :: l) ↔ ch = 0x6E ∧ Rest .nullN l ∨ ch = 0x74 ∧ Rest .trueT l ∨ ch = 0x66 ∧
      Rest .falseF l ∨ ch = 0x2D ∧ Rest .numberSign l ∨ ch = 0x30 ∧
        Rest .numberInitialZero l ∨ (0x31 ≤ ch ∧ ch ≤ 0x39) ∧ Rest .numberDigit l := by
  unfold Rfc8259.Primitive
  rw [number_cons, numberSign_cons]
  constructor
  · rintro (h | h | h | (h | h) | h)
    · exact .inl (List.cons.inj h)
    · exact .inr (.inl (List.cons.inj h))
    · exact .inr (.inr (.inl (List.cons.inj h)))
    · exact .inr (.inr (.inr (.inr (.inl h))))
    · exact .inr (.inr (.inr (.inr (.inr h))))
    · exact .inr (.inr (.inr (.inl h)))
  · rintro (⟨rfl, h⟩ | ⟨rfl, h⟩ | ⟨rfl, h⟩ | h | h | h)
    · exact .inl (congrArg _ h)
    · exact .inr (.inl (congrArg _ h))
    · exact .inr (.inr (.inl (congrArg _ h)))
    · exact .inr (.inr (.inr (.inr h)))
    · exact .inr (.inr (.inr (.inl (.inl h))))
    · exact .inr (.inr (.inr (.inl (.inr h))))

theorem digit_ne (h : isDigit ch = true) :
    ch ≠ 0x2E ∧ isExp ch = false ∧ ch ≠ 0x2B ∧ ch ≠ 0x2D := by
  refine ⟨?_, ?_, ?_, ?_⟩
  · rintro rfl
    exact absurd h (by decide)
  · cases hexp : isExp ch with
    | false => rfl
    | true =>
      rcases (isExp_iff ch).mp hexp with rfl | rfl
      · exact absurd h (by decide)
      · exact absurd h (by decide)
  · rintro rfl
    exact absurd h (by decide)
  · rintro rfl
    exact absurd h (by decide)

theorem dot_ne : isDigit 0x2E = false ∧ isExp 0x2E = false := by
  decide

theorem numberExpE_cons (ch : UInt8) (l : List UInt8) :
    Rest .numberExpE (ch :: l) ↔ isDigit ch = true ∧ Digits l ∨ (ch = 0x2B ∨ ch = 0x2D) ∧
      Digits1 l := by
  constructor
  · rintro ⟨sign, ds, heq, rfl | rfl | rfl, hds⟩
    · rw [nil_append] at heq
      rw [← heq, digits1_cons] at hds
      exact .inl hds
    · obtain ⟨rfl, rfl⟩ := List.cons.inj heq
      exact .inr ⟨.inl rfl, hds⟩
    · obtain ⟨rfl, rfl⟩ := List.cons.inj heq
      exact .inr ⟨.inr rfl, hds⟩
  · rintro (hds | ⟨rfl | rfl, hds⟩)
    · exact ⟨[], ch :: l, rfl, .inl rfl, (digits1_cons ch l).mpr hds⟩
    · exact ⟨[0x2B], l, rfl, .inr (.inl rfl), hds⟩
    · exact ⟨[0x2D], l, rfl, .inr (.inr rfl), hds⟩

theorem literal_cons {ch c : UInt8} {l cs : List UInt8} {p : PrimState}
    (hinit : p ≠ .init) (hnext : Rest p l ↔ l = cs) :
    ch :: l = c :: cs ↔ (if ch = c then p else .init) ≠ .init ∧
      Rest (if ch = c then p else .init) l := by
  by_cases h : ch = c
  · rw [if_pos h, hnext, h]
    exact ⟨fun heq => ⟨hinit, (List.cons.inj heq).2⟩, fun heq => congrArg _ heq.2⟩
  · rw [if_neg h]
    exact ⟨fun heq => absurd (List.cons.inj heq).1 h, fun heq => absurd rfl heq.1⟩

variable (prim : PrimState)

theorem rest_cons (ch : UInt8) (l : List UInt8) :
    Rest prim (ch :: l) ↔ primNext prim ch ≠ .init ∧ Rest (primNext prim ch) l := by
  cases prim with
  | init =>
    show Primitive (ch :: l) ↔ _
    rw [primitive_cons]
    rw [primNext]
    -- n, t, f, a sign, a zero, another digit
    by_cases h1 : ch = 0x6E
    · subst h1
      simp
    · by_cases h2 : ch = 0x74
      · subst h2
        simp
      · by_cases h3 : ch = 0x66
        · subst h3
          simp
        · by_cases h4 : ch = 0x2D
          · subst h4
            simp
          · by_cases h5 : ch = 0x30
            · subst h5
              simp
            · by_cases h6 : 0x31 ≤ ch ∧ ch ≤ 0x39
              · simp [h1, h2, h3, h4, h5, h6]
              · simp [h1, h2, h3, h4, h5, h6]
  | numberSign =>
    rw [numberSign_cons]
    rw [primNext]
    by_cases h1 : ch = 0x30
    · subst h1
      simp
    · by_cases h2 : 0x31 ≤ ch ∧ ch ≤ 0x39
      · simp [h1, h2]
      · simp [h1, h2]
  | numberDigit =>
    -- a digit continues the integer, anything else has to continue the number
    have hdigit := digits_append_cons (P := AfterInt) ch l
    show (∃ ds more, ch :: l = ds ++ more ∧ Digits ds ∧ AfterInt more) ↔ _
    rw [hdigit, afterInt_cons, expPart_cons]
    rw [primNext]
    by_cases h1 : isDigit ch = true
    · obtain ⟨hdot, hexp, -, -⟩ := digit_ne h1
      simp [h1, hdot, hexp, Rest]
    · by_cases h2 : ch = 0x2E
      · rw [if_neg h1, if_pos h2]
        simp [h2, dot_ne]
      · by_cases h3 : isExp ch = true
        · rw [if_neg h1, if_neg h2, if_pos h3]
          simp [h1, h2, h3]
        · rw [if_neg h1, if_neg h2, if_neg h3]
          simp [h1, h2, h3]
  | numberInitialZero =>
    show AfterInt (ch :: l) ↔ _
    rw [afterInt_cons, expPart_cons]
    rw [primNext]
    by_cases h2 : ch = 0x2E
    · rw [if_pos h2]
      simp [h2, dot_ne]
    · by_cases h3 : isExp ch = true
      · rw [if_neg h2, if_pos h3]
        simp [h2, h3]
      · rw [if_neg h2, if_neg h3]
        simp [h2, h3]
  | numberDot =>
    have hdigit := digits1_append_cons (P := ExpPart) ch l
    show (∃ ds exp, ch :: l = ds ++ exp ∧ Digits1 ds ∧ ExpPart exp) ↔ _
    rw [hdigit]
    rw [primNext]
    by_cases h1 : isDigit ch = true
    · simp [h1, Rest]
    · simp [h1]
  | numberFractDigit =>
    have hdigit := digits_append_cons (P := ExpPart) ch l
    show (∃ ds exp, ch :: l = ds ++ exp ∧ Digits ds ∧ ExpPart exp) ↔ _
    rw [hdigit, expPart_cons]
    rw [primNext]
    by_cases h1 : isDigit ch = true
    · obtain ⟨-, hexp, -, -⟩ := digit_ne h1
      simp [h1, hexp, Rest]
    · by_cases h3 : isExp ch = true
      · rw [if_neg h1, if_pos h3]
        simp [h1, h3]
      · rw [if_neg h1, if_neg h3]
        simp [h1, h3]
  | numberExpE =>
    rw [numberExpE_cons]
    rw [primNext]
    by_cases h1 : isDigit ch = true
    · obtain ⟨-, -, hplus, hminus⟩ := digit_ne h1
      simp [h1, hplus, hminus, Rest]
    · by_cases h2 : ch = 0x2B ∨ ch = 0x2D
      · rw [if_neg h1, if_pos h2]
        simp [h1, h2, Rest]
      · rw [if_neg h1, if_neg h2]
        simp [h1, h2]
  | numberExpSign =>
    show Digits1 (ch :: l) ↔ _
    rw [digits1_cons]
    rw [primNext]
    by_cases h1 : isDigit ch = true
    · simp [h1, Rest]
    · simp [h1]
  | numberExpDigit =>
    show Digits (ch :: l) ↔ _
    rw [digits_cons]
    rw [primNext]
    by_cases h1 : isDigit ch = true
    · simp [h1, Rest]
    · simp [h1]
  -- the literals have one way on each
  | nullN => exact literal_cons (p := .nullU) (by decide) Iff.rfl
  | nullU => exact literal_cons (p := .nullL1) (by decide) Iff.rfl
  | nullL1 => exact literal_cons (p := .finish) (by decide) Iff.rfl
  | trueT => exact literal_cons (p := .trueR) (by decide) Iff.rfl
  | trueR => exact literal_cons (p := .trueU) (by decide) Iff.rfl
  | trueU => exact literal_cons (p := .finish) (by decide) Iff.rfl
  | falseF => exact literal_cons (p := .falseA) (by decide) Iff.rfl
  | falseA => exact literal_cons (p := .falseL) (by decide) Iff.rfl
  | falseL => exact literal_cons (p := .falseS) (by decide) Iff.rfl
  | falseS => exact literal_cons (p := .finish) (by decide) Iff.rfl
  | falseE => exact ⟨fun h => h.elim, fun h => absurd rfl h.1⟩
  | finish => exact ⟨fun h => absurd h (cons_ne_nil ch l), fun h => absurd rfl h.1⟩

theorem rest_nil : Rest prim [] ↔ prim.isEnd = true ∨ prim = .finish := by
  have hdigits : Digits [] := forall_mem_nil _
  have hno1 : ¬ Digits1 [] := fun h => h.1 rfl
  have hafter : AfterInt [] := ⟨[], [], rfl, .inl rfl, .inl rfl⟩
  have hno : ∀ int more : List UInt8, [] = int ++ more → ¬ IntPart int := by
    rintro int more heq (rfl | ⟨d, ds, rfl, -⟩)
    · exact cons_ne_nil _ _ heq.symm
    · exact cons_ne_nil _ _ heq.symm
  cases prim with
  | init =>
    refine ⟨?_, fun h => absurd h (by decide)⟩
    rintro (h | h | h | ⟨minus, int, frac, exp, heq, -, hint, -⟩)
    · exact absurd h (by decide)
    · exact absurd h (by decide)
    · exact absurd h (by decide)
    · have hnil := (append_eq_nil_iff.mp heq.symm).2
      exact absurd hint (hno int (frac ++ exp) hnil.symm)
  | numberSign =>
    refine ⟨?_, fun h => absurd h (by decide)⟩
    rintro ⟨int, more, heq, hint, -⟩
    exact absurd hint (hno int more heq)
  | numberInitialZero => exact ⟨fun _ => .inl rfl, fun _ => hafter⟩
  | numberDigit => exact ⟨fun _ => .inl rfl, fun _ => ⟨[], [], rfl, hdigits, hafter⟩⟩
  | numberDot =>
    refine ⟨?_, fun h => absurd h (by decide)⟩
    rintro ⟨ds, exp, heq, hds, -⟩
    exact absurd (append_eq_nil_iff.mp heq.symm).1 hds.1
  | numberFractDigit => exact ⟨fun _ => .inl rfl, fun _ => ⟨[], [], rfl, hdigits, .inl rfl⟩⟩
  | numberExpE =>
    refine ⟨?_, fun h => absurd h (by decide)⟩
    rintro ⟨sign, ds, heq, -, hds⟩
    exact absurd (append_eq_nil_iff.mp heq.symm).2 hds.1
  | numberExpSign => exact ⟨fun h => absurd h hno1, fun h => absurd h (by decide)⟩
  | numberExpDigit => exact ⟨fun _ => .inl rfl, fun _ => hdigits⟩
  | falseE => exact ⟨fun h => h.elim, fun h => absurd h (by decide)⟩
  | finish => exact ⟨fun _ => .inr rfl, fun _ => rfl⟩
  | _ => exact ⟨fun h => absurd h (by unfold Rest; decide), fun h => absurd h (by decide)⟩

theorem primNext_zero : primNext prim 0 = .init := by
  cases prim <;> decide

/-- An octet that no number goes on with. -/
def EndsPrimitive (after : List UInt8) : Prop :=
  ∀ ch rest, after = ch :: rest → ch ≠ 0 ∧ ∀ prim, prim.isEnd = true → primNext prim ch = .init

theorem primScan_complete {prim : PrimState} {word after : List UInt8} (h : Rest prim word)
    (hprim : prim ≠ .finish) (hafter : EndsPrimitive after) :
    ∃ last, primScan prim (word ++ after) = some (word.length, last) := by
  induction word generalizing prim with
  | nil =>
    have hend := ((rest_nil prim).mp h).resolve_right hprim
    cases after with
    | nil => exact ⟨prim, rfl⟩
    | cons ch after =>
      obtain ⟨hzero, hinit⟩ := hafter ch after rfl
      refine ⟨prim, ?_⟩
      rw [nil_append]
      unfold primScan
      rw [if_neg hzero, if_pos (hinit prim hend), if_pos hend]
      rfl
  | cons ch word ih =>
    obtain ⟨hinit, hrest⟩ := (rest_cons prim ch word).mp h
    have hzero : ch ≠ 0 := by
      rintro rfl
      exact hinit (primNext_zero prim)
    rw [cons_append]
    unfold primScan
    rw [if_neg hzero, if_neg hinit]
    by_cases hfinish : primNext prim ch = .finish
    · rw [hfinish] at hrest
      have hnil : word = [] := hrest
      refine ⟨.finish, ?_⟩
      rw [if_pos hfinish, hnil]
      rfl
    · obtain ⟨last, hscan⟩ := ih hrest hfinish
      refine ⟨last, ?_⟩
      rw [if_neg hfinish, hscan]
      rfl

theorem primNext_ne_falseE (ch : UInt8) : primNext prim ch ≠ .falseE := by
  cases prim <;> simp only [primNext] <;> (try split_ifs) <;> decide

theorem exists_rest {prim : PrimState} (h : prim ≠ .falseE) : ∃ more, Rest prim more := by
  have hdigits1 : Digits1 [0x30] := by
    refine ⟨cons_ne_nil _ _, ?_⟩
    intro b hb
    rw [mem_singleton.mp hb]
    decide
  have hdigits : Digits [] := forall_mem_nil _
  have hafter : AfterInt [] := ⟨[], [], rfl, .inl rfl, .inl rfl⟩
  cases prim with
  | init => exact ⟨literalNull, .inl rfl⟩
  | numberSign => exact ⟨[0x30], [0x30], [], rfl, .inl rfl, hafter⟩
  | numberInitialZero => exact ⟨[], hafter⟩
  | numberDigit => exact ⟨[], [], [], rfl, hdigits, hafter⟩
  | numberDot => exact ⟨[0x30], [0x30], [], rfl, hdigits1, .inl rfl⟩
  | numberFractDigit => exact ⟨[], [], [], rfl, hdigits, .inl rfl⟩
  | numberExpE => exact ⟨[0x30], [], [0x30], rfl, .inl rfl, hdigits1⟩
  | numberExpSign => exact ⟨[0x30], hdigits1⟩
  | numberExpDigit => exact ⟨[], hdigits⟩
  | falseE => exact absurd rfl h
  | _ => exact ⟨_, rfl⟩

variable {l : List UInt8}

/-- What is scanned is a primitive, or the text ends inside of one. -/
theorem primScan_sound {prim last : PrimState} {n : Nat} (h : primScan prim l = some (n, last))
    (hprim : prim ≠ .falseE) :
    (∃ word after, l = word ++ after ∧ n = word.length ∧ Rest prim word) ∨
      (n = l.length ∧ ¬ Rest prim l ∧ ∃ more, Rest prim (l ++ more)) := by
  induction l generalizing prim n with
  | nil =>
    obtain ⟨rfl, -⟩ := Prod.mk.inj (some.inj h)
    by_cases hend : Rest prim []
    · exact .inl ⟨[], [], rfl, rfl, hend⟩
    · exact .inr ⟨rfl, hend, exists_rest hprim⟩
  | cons ch l ih =>
    unfold primScan at h
    by_cases hzero : ch = 0
    · rw [if_pos hzero] at h
      exact absurd h.symm (some_ne_none _)
    · rw [if_neg hzero] at h
      by_cases hinit : primNext prim ch = .init
      · rw [if_pos hinit] at h
        by_cases hend : prim.isEnd = true
        · rw [if_pos hend] at h
          obtain ⟨rfl, -⟩ := Prod.mk.inj (some.inj h)
          exact .inl ⟨[], ch :: l, rfl, rfl, (rest_nil prim).mpr (.inl hend)⟩
        · rw [if_neg hend] at h
          exact absurd h.symm (some_ne_none _)
      · rw [if_neg hinit] at h
        by_cases hfinish : primNext prim ch = .finish
        · rw [if_pos hfinish] at h
          obtain ⟨rfl, -⟩ := Prod.mk.inj (some.inj h)
          refine .inl ⟨[ch], l, rfl, rfl, ?_⟩
          rw [rest_cons, hfinish]
          exact ⟨by decide, rfl⟩
        · rw [if_neg hfinish] at h
          obtain ⟨⟨m, last'⟩, hscan, heq⟩ := map_eq_some_iff.mp h
          obtain ⟨rfl, rfl⟩ := Prod.mk.inj heq
          rcases ih hscan (primNext_ne_falseE prim ch) with
            ⟨word, after, rfl, rfl, hword⟩ | ⟨rfl, hno, more, hmore⟩
          · exact .inl ⟨ch :: word, after, rfl, rfl, (rest_cons prim ch word).mpr ⟨hinit, hword⟩⟩
          · refine .inr ⟨rfl, fun hall => hno ((rest_cons prim ch l).mp hall).2, more, ?_⟩
            rw [cons_append, rest_cons]
            exact ⟨hinit, hmore⟩

theorem primScan_truncated {prim : PrimState} {l more : List UInt8} (hno : ¬ Rest prim l)
    (hmore : Rest prim (l ++ more)) : ∃ last, primScan prim l = some (l.length, last) := by
  induction l generalizing prim with
  | nil => exact ⟨prim, rfl⟩
  | cons ch l ih =>
    rw [cons_append, rest_cons] at hmore
    obtain ⟨hinit, hrest⟩ := hmore
    have hzero : ch ≠ 0 := by
      rintro rfl
      exact hinit (primNext_zero prim)
    have hnext : ¬ Rest (primNext prim ch) l := fun h => hno ((rest_cons prim ch l).mpr ⟨hinit, h⟩)
    have hfinish : primNext prim ch ≠ .finish := by
      intro hfinish
      rw [hfinish] at hrest hnext
      exact hnext (append_eq_nil_iff.mp hrest).1
    obtain ⟨last, hscan⟩ := ih hnext hrest
    refine ⟨last, ?_⟩
    unfold primScan
    rw [if_neg hzero, if_neg hinit, if_neg hfinish, hscan]
    rfl

/-! ## Tokens -/

def kindType : Kind → TokenType
  | .beginArray => .arrayBeg
  | .endArray => .arrayEnd
  | .beginObject => .objectBeg
  | .endObject => .objectEnd
  | .nameSeparator => .nameSep
  | .valueSeparator => .itemSep
  | .string => .string
  | .primitive => .primitive

theorem kindType_ne_invalid (k : Kind) : kindType k ≠ .invalid := by
  cases k <;> decide

theorem kindType_injective : Function.Injective kindType := by
  intro a b h
  cases a <;> cases b <;> first | rfl | exact absurd h (by decide)

/-- Where the value of a token starts, and how long it is: a string is meant
without its quotation marks. -/
def valueSpan (lex : Lexeme) : Nat × Nat :=
  match lex.kind with
  | .string => (1, lex.text.length - 2)
  | _ => (0, lex.text.length)

def scannedLexeme (lex : Lexeme) : Scanned where
  type := kindType lex.kind
  taken := lex.text.length
  offset := (valueSpan lex).1
  len := (valueSpan lex).2

/-- The text ends in the middle of a primitive. -/
def Truncated (l : List UInt8) : Prop :=
  l ≠ [] ∧ ¬ Primitive l ∧ ∃ more, Primitive (l ++ more)

def delimiters : List UInt8 :=
  [0x20, 0x09, 0x0D, 0x0A, 0x7B, 0x7D, 0x5B, 0x5D, 0x2C, 0x3A, 0x22]

theorem mem_delimiters (h : structuralType ch ≠ .invalid ∨ ch = 0x22 ∨ isWhiteSpace ch = true) :
    ch ∈ delimiters := by
  unfold structuralType isWhiteSpace at h
  simp only [delimiters, mem_cons, not_mem_nil, or_false]
  by_contra hno
  simp only [not_or] at hno
  simp [hno] at h

theorem primNext_delimiter (h : ch ∈ delimiters) :
    ch ≠ 0 ∧ primNext .init ch = .init ∧ ∀ prim, prim.isEnd = true → primNext prim ch = .init := by
  have hall : (delimiters.all fun ch => ch ≠ 0 ∧ primNext .init ch = .init ∧
      primNext .numberExpDigit ch = .init ∧ primNext .numberFractDigit ch = .init ∧
        primNext .numberInitialZero ch = .init ∧ primNext .numberDigit ch = .init) = true := by
    decide
  obtain ⟨hzero, hinit, hexp, hfract, hinitial, hdigit⟩ :=
    of_decide_eq_true (all_eq_true.mp hall ch h)
  refine ⟨hzero, hinit, ?_⟩
  intro prim hend
  cases prim with
  | numberExpDigit => exact hexp
  | numberFractDigit => exact hfract
  | numberInitialZero => exact hinitial
  | numberDigit => exact hdigit
  | _ => exact absurd hend (by decide)

theorem endsPrimitive_of_delimiter (h : ch ∈ delimiters) : EndsPrimitive (ch :: rest) := by
  intro ch' rest' heq
  obtain ⟨rfl, rfl⟩ := List.cons.inj heq
  exact ⟨(primNext_delimiter h).1, (primNext_delimiter h).2.2⟩

theorem primitive_head (h : Primitive (ch :: l)) : ch ∉ delimiters := by
  intro hmem
  have hnext := ((rest_cons .init ch l).mp h).1
  exact hnext (primNext_delimiter hmem).2.1

theorem structuralType_of_not_mem (h : ch ∉ delimiters) :
    structuralType ch = .invalid ∧ ch ≠ 0x22 ∧ isWhiteSpace ch = false := by
  refine ⟨?_, ?_, ?_⟩
  · by_contra hne
    exact h (mem_delimiters (.inl hne))
  · intro hquote
    exact h (mem_delimiters (.inr (.inl hquote)))
  · cases hspace : isWhiteSpace ch with
    | false => rfl
    | true => exact absurd (mem_delimiters (.inr (.inr hspace))) h

theorem scanToken_structural (rest : List UInt8) (h : structuralType ch ≠ .invalid) :
    scanToken (ch :: rest) = some ⟨structuralType ch, 1, 0, 1⟩ := by
  rw [scanToken_cons, if_pos h]

theorem scanToken_string (rest : List UInt8) :
    scanToken (0x22 :: rest) = (stringScan 0 rest).map fun n => ⟨.string, n + 2, 1, n⟩ := rfl

theorem scanToken_primitive (rest : List UInt8) (h : structuralType ch = .invalid)
    (hquote : ch ≠ 0x22) :
    scanToken (ch :: rest) =
      (primScan .init (ch :: rest)).map fun r => ⟨.primitive, r.1, 0, r.1⟩ := by
  rw [scanToken_cons, if_neg (not_not_intro h), if_neg hquote]

theorem scanToken_complete (lex : Lexeme) {after : List UInt8}
    (hafter : lex.kind = .primitive → EndsPrimitive after) :
    scanToken (lex.text ++ after) = some (scannedLexeme lex) := by
  obtain ⟨kind, text, hlex⟩ := lex
  cases kind with
  | string =>
    obtain ⟨body, rfl, hbody⟩ := hlex
    have hscan := stringScan_complete hbody after
    simp only [cons_append, append_assoc, nil_append]
    rw [scanToken_string, hscan]
    simp [scannedLexeme, valueSpan, kindType]
  | primitive =>
    have hprim : Primitive text := hlex
    cases text with
    | nil => exact absurd ((rest_nil .init).mp hprim) (by decide)
    | cons ch text =>
      obtain ⟨last, hscan⟩ := @primScan_complete .init _ _ hprim (by decide) (hafter rfl)
      obtain ⟨hstructural, hquote, -⟩ := structuralType_of_not_mem (primitive_head hprim)
      rw [cons_append] at hscan
      rw [cons_append, scanToken_primitive _ hstructural hquote, hscan]
      rfl
  | _ =>
    have htext := hlex
    unfold Rfc8259.Lexical at htext
    subst htext
    exact scanToken_structural after (by decide)

theorem exists_structural (h : structuralType ch ≠ .invalid) :
    ∃ lex : Lexeme, lex.text = [ch] ∧ scannedLexeme lex = ⟨structuralType ch, 1, 0, 1⟩ := by
  unfold structuralType at h ⊢
  split_ifs at h ⊢ with h1 h2 h3 h4 h5 h6
  · exact ⟨.beginObject, by rw [h1]; rfl, rfl⟩
  · exact ⟨.endObject, by rw [h2]; rfl, rfl⟩
  · exact ⟨.beginArray, by rw [h3]; rfl, rfl⟩
  · exact ⟨.endArray, by rw [h4]; rfl, rfl⟩
  · exact ⟨.valueSeparator, by rw [h5]; rfl, rfl⟩
  · exact ⟨.nameSeparator, by rw [h6]; rfl, rfl⟩
  · exact absurd rfl h

theorem scanToken_sound {r : Scanned} (h : scanToken rest = some r) :
    (∃ (lex : Lexeme) (after : List UInt8), rest = lex.text ++ after ∧ r = scannedLexeme lex) ∨
      (Truncated rest ∧ r = ⟨.primitive, rest.length, 0, rest.length⟩) := by
  cases rest with
  | nil => exact absurd h.symm (some_ne_none r)
  | cons ch rest =>
    by_cases hstructural : structuralType ch ≠ .invalid
    · rw [scanToken_structural rest hstructural] at h
      obtain ⟨lex, htext, hlex⟩ := exists_structural hstructural
      refine .inl ⟨lex, rest, ?_, ?_⟩
      · rw [htext]
        rfl
      · rw [hlex]
        exact (some.inj h).symm
    · by_cases hquote : ch = 0x22
      · rw [hquote, scanToken_string] at h
        obtain ⟨n, hn, rfl⟩ := map_eq_some_iff.mp h
        obtain ⟨body, after, rfl, hbody, rfl⟩ := stringScan_iff.mp hn
        refine .inl ⟨⟨.string, 0x22 :: (body ++ [0x22]), body, rfl, hbody⟩, after, ?_, ?_⟩
        · rw [hquote]
          simp
        · simp [scannedLexeme, valueSpan, kindType]
      · rw [scanToken_primitive rest (not_not.mp hstructural) hquote] at h
        obtain ⟨⟨n, last⟩, hn, rfl⟩ := map_eq_some_iff.mp h
        rcases primScan_sound hn (by decide) with ⟨word, after, heq, rfl, hword⟩ | ⟨rfl, hno, hmore⟩
        · exact .inl ⟨⟨.primitive, word, hword⟩, after, heq, rfl⟩
        · exact .inr ⟨⟨cons_ne_nil _ _, hno, hmore⟩, rfl⟩

theorem scanToken_truncated (h : Truncated l) :
    scanToken l = some ⟨.primitive, l.length, 0, l.length⟩ := by
  obtain ⟨hne, hno, more, hmore⟩ := h
  cases l with
  | nil => exact absurd rfl hne
  | cons ch l =>
    obtain ⟨last, hscan⟩ := @primScan_truncated .init _ _ hno hmore
    obtain ⟨hstructural, hquote, -⟩ := structuralType_of_not_mem (primitive_head hmore)
    rw [scanToken_primitive _ hstructural hquote, hscan]
    rfl

end Cj
end DeconzRest

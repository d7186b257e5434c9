import DeconzRest.Cj.Parser

/-!
# Access to the values of a parsed text

`cj_value_ref` looks up the value of a member of an object, and `cj_copy_ref_utf8` copies a value
into a buffer and decodes the escapes of a string.  What a parse gives does not depend on the size of
the token array, as long as it succeeds.
-/

namespace DeconzRest
namespace Cj

open Option

/-- The `len` octets of the buffer from `pos` on -/
def slice (ctx : Ctx) (tok : Token) : List UInt8 := (ctx.buf.drop tok.pos).take tok.len

/-- The token before a colon is a key of the object. -/
def isKey (ctx : Ctx) (obj : Nat) (key : List UInt8) (tok : Token) : Bool :=
  decide (tok.parent = some obj ∧ tok.len = key.length ∧ slice ctx tok = key)

/-- The loop of `cj_value_ref` over the tokens behind the one before it -/
def valueRefLoop (ctx : Ctx) (obj : Nat) (key : List UInt8) : Nat → Token → List Token → Option Nat
  | _, _, [] => none
  | i, before, tok :: tokens =>
    if tok.type = .nameSep ∧ isKey ctx obj key before then some (i + 1)
    else valueRefLoop ctx obj key (i + 1) tok tokens

/-- `cj_value_ref` -/
def valueRef (ctx : Ctx) (obj : Nat) (key : List UInt8) : Option Nat :=
  if ctx.status ≠ .ok then none
  else
    match ctx.tokens.drop obj with
    | [] => none
    | tok :: tokens => valueRefLoop ctx obj key (obj + 1) tok tokens

/-! ## Strings -/

/-- `cj_unicode_to_utf8` into a buffer of `size` octets; `none` when the character does not fit. -/
def unicodeToUtf8 (codepoint size : Nat) : Option (List UInt8) :=
  if codepoint ≤ 0x7F ∧ 1 < size then some [UInt8.ofNat codepoint]
  else
    -- the replacement character
    let codepoint := if 0x10FFFF < codepoint then 0xFFFD else codepoint
    if 0x80 ≤ codepoint ∧ codepoint ≤ 0x7FF ∧ 2 < size then
      some [UInt8.ofNat (0xC0 ||| ((codepoint >>> 6) &&& 0x1F)),
        UInt8.ofNat (0x80 ||| (codepoint &&& 0x3F))]
    else if 0x800 ≤ codepoint ∧ codepoint ≤ 0xFFFF ∧ 3 < size then
      some [UInt8.ofNat (0xE0 ||| ((codepoint >>> 12) &&& 0x0F)),
        UInt8.ofNat (0x80 ||| ((codepoint >>> 6) &&& 0x3F)),
        UInt8.ofNat (0x80 ||| (codepoint &&& 0x3F))]
    else if 0x10000 ≤ codepoint ∧ codepoint ≤ 0x10FFFF ∧ 4 < size then
      some [UInt8.ofNat (0xF0 ||| ((codepoint >>> 18) &&& 0x07)),
        UInt8.ofNat (0x80 ||| ((codepoint >>> 12) &&& 0x3F)),
        UInt8.ofNat (0x80 ||| ((codepoint >>> 6) &&& 0x3F)),
        UInt8.ofNat (0x80 ||| (codepoint &&& 0x3F))]
    else none

/-- `cj_unicode_state`; `num k` stands for `CJ_UC_STATE_NUM0` to `CJ_UC_STATE_NUM3`. -/
inductive UnicodeState where
  | none
  | esc
  | num (k : Nat)
deriving DecidableEq, Repr

/-- The local variables of `cj_copy_ref_utf8`, with the octets that are written -/
structure CopyState where
  written : List UInt8 := []
  state : UnicodeState := .none
  num0 : Nat := 0
  needLowSurrogate : Bool := false
  highSurrogate : Nat := 0
deriving DecidableEq, Repr

/-- The octet that an escaped character other than `u` stands for -/
def escapedChar (c : UInt8) : Option UInt8 :=
  if c = 0x6E then some 0x0A
  else if c = 0x22 then some 0x22
  else if c = 0x5C then some 0x5C
  else if c = 0x74 then some 0x09
  else if c = 0x2F then some 0x2F
  -- a carriage return, a backspace and a form feed are copied as their letters
  else if c = 0x72 then some 0x72
  else if c = 0x62 then some 0x62
  else if c = 0x66 then some 0x66
  else none

def hexDigit (c : UInt8) : Option Nat :=
  if 0x61 ≤ c ∧ c ≤ 0x66 then some (c.toNat - 0x61 + 10)
  else if 0x41 ≤ c ∧ c ≤ 0x46 then some (c.toNat - 0x41 + 10)
  else if 0x30 ≤ c ∧ c ≤ 0x39 then some (c.toNat - 0x30)
  else none

/-- `CJ_UC_STATE_CHK_NUM`, with the octets of the token behind the last digit -/
def checkNum (size : Nat) (s : CopyState) (rest : List UInt8) : Option CopyState :=
  if s.needLowSurrogate = false ∧ 0xD800 ≤ s.num0 ∧ s.num0 ≤ 0xDBFF then
    -- the low surrogate has to be next
    if rest.length + 1 < 6 ∨ ¬ [0x5C, 0x75].isPrefixOf rest then none
    else
      some
        { s with
          needLowSurrogate := true
          highSurrogate := (s.num0 - 0xD800) * 0x400
          num0 := 0
          state := .none }
  -- a low surrogate on its own
  else if s.needLowSurrogate = false ∧ 0xDC00 ≤ s.num0 ∧ s.num0 ≤ 0xDFFF then none
  else if s.needLowSurrogate = true ∧ (s.num0 < 0xDC00 ∨ 0xDFFF < s.num0) then none
  else
    let codepoint :=
      if s.needLowSurrogate then s.highSurrogate + (s.num0 - 0xDC00) + 0x10000 else s.num0
    (unicodeToUtf8 codepoint (size - s.written.length)).map fun octets =>
      { s with
        written := s.written ++ octets
        needLowSurrogate := false
        num0 := 0
        state := .none }

/-- The loop of `cj_copy_ref_utf8` over the octets of the token -/
def copyLoop (size : Nat) : List UInt8 → CopyState → Option CopyState
  | [], s => some s
  | c :: rest, s =>
    if size - s.written.length = 1 then none -- not enough space to copy more and '\0'
    else
      match s.state with
      | .none =>
        if c = 0x5C then copyLoop size rest { s with state := .esc }
        else copyLoop size rest { s with written := s.written ++ [c] }
      | .esc =>
        if c = 0x75 then
          if rest.length + 1 < 5 then none
          else copyLoop size rest { s with state := .num 0 }
        else
          match escapedChar c with
          | none => none
          | some octet =>
            copyLoop size rest { s with written := s.written ++ [octet], state := .none }
      | .num k =>
        match hexDigit c with
        | none => none
        | some digit =>
          let s := { s with num0 := (s.num0 <<< 4) ||| digit }
          -- behind the last digit the source falls through to the check
          if k < 3 then copyLoop size rest { s with state := .num (k + 1) }
          else
            match checkNum size s rest with
            | none => none
            | some s => copyLoop size rest s

/-- `cj_copy_ref_utf8` of a string token: what stands in the buffer in front of the terminator -/
def copyTokenUtf8 (ctx : Ctx) (size : Nat) (tok : Token) : Option (List UInt8) :=
  if size = 0 ∨ ctx.size < tok.len ∨ ctx.size - tok.len < tok.pos then none
  else
    match copyLoop size (slice ctx tok) {} with
    | none => none
    | some s => if s.state = .none then some s.written else none

/-! ## The size of the token array -/

/-- The text is parsed with an array of `n` tokens. -/
def Parsed (json : List UInt8) (n : Nat) (ctx : Ctx) : Prop :=
  parse (parseInit json n) = some ctx ∧ ctx.status = .ok

instance (json : List UInt8) (n : Nat) (ctx : Ctx) : Decidable (Parsed json n ctx) :=
  inferInstanceAs (Decidable (_ ∧ _))

variable {buf json : List UInt8} {size n n' fuel fuel' : Nat} {s s' : Locals}

section Turns

variable {t t' t'' : Turn}

theorem Turn.openBracket_tokens (hs : s.tokens = t.s.tokens) :
    (t.openBracket s).s.tokens = t.s.tokens := by
  unfold Turn.openBracket
  split
  · rfl
  · exact hs

theorem Turn.closeBracket_tokens {depth : Int} (hs : s.tokens = t.s.tokens)
    (h : t.closeBracket s depth = some t') : t'.s.tokens = t.s.tokens := by
  unfold Turn.closeBracket at h
  split at h
  · rw [← some.inj h]
    exact hs
  · obtain ⟨parent, -, h⟩ := bind_eq_some_iff.mp h
    rw [← some.inj h]
    exact hs

theorem Turn.brackets_tokens (h : t.brackets = some t') : t'.s.tokens = t.s.tokens := by
  unfold Turn.brackets at h
  split at h
  · rw [← some.inj h]
    exact Turn.openBracket_tokens rfl
  · rw [← some.inj h]
    exact Turn.openBracket_tokens rfl
  · exact Turn.closeBracket_tokens (by rfl) h
  · exact Turn.closeBracket_tokens (by rfl) h
  · rw [← some.inj h]

/-- Nothing is changed of the tokens and their parents. -/
structure Turn.SameTokens (t t' : Turn) : Prop where
  tokens : t'.s.tokens = t.s.tokens
  tokParent : t'.s.tokParent = t.s.tokParent
  tok : t'.tok = t.tok

theorem Turn.SameTokens.refl (t : Turn) : t.SameTokens t := ⟨rfl, rfl, rfl⟩

theorem Turn.nameSep_same (h : t.nameSep = some t') : t.SameTokens t' := by
  unfold Turn.nameSep at h
  split at h
  · rw [← some.inj h]
    exact .refl t
  · split at h
    · rw [← some.inj h]
      exact ⟨rfl, rfl, rfl⟩
    · obtain ⟨before, -, h⟩ := bind_eq_some_iff.mp h
      split at h
      · rw [← some.inj h]
        exact ⟨rfl, rfl, rfl⟩
      · obtain ⟨parent, -, h⟩ := bind_eq_some_iff.mp h
        split at h <;> rw [← some.inj h] <;> exact ⟨rfl, rfl, rfl⟩

theorem Turn.itemSep_same (h : t.itemSep = some t') : t.SameTokens t' := by
  unfold Turn.itemSep at h
  split at h
  · rw [← some.inj h]
    exact .refl t
  · split at h
    · rw [← some.inj h]
      exact ⟨rfl, rfl, rfl⟩
    · obtain ⟨before, -, h⟩ := bind_eq_some_iff.mp h
      split at h
      · rw [← some.inj h]
        exact ⟨rfl, rfl, rfl⟩
      · obtain ⟨parent, -, h⟩ := bind_eq_some_iff.mp h
        split at h <;> rw [← some.inj h] <;> exact ⟨rfl, rfl, rfl⟩

theorem Turn.neighbours_same (h : t.neighbours = some t') : t.SameTokens t' := by
  unfold Turn.neighbours at h
  split at h
  · rw [← some.inj h]
    exact .refl t
  · obtain ⟨before, -, h⟩ := bind_eq_some_iff.mp h
    simp only at h
    split at h
    · rw [← some.inj h]
      exact ⟨rfl, rfl, rfl⟩
    · split at h
      · rw [← some.inj h]
        exact ⟨rfl, rfl, rfl⟩
      · split at h
        · rw [← some.inj h]
          exact ⟨rfl, rfl, rfl⟩
        · split at h <;> rw [← some.inj h] <;> exact ⟨rfl, rfl, rfl⟩

theorem Turn.andThen_same {f : Turn → Option Turn}
    (hf : ∀ {t t' : Turn}, f t = some t' → t.SameTokens t')
    (h : t.andThen f = some t') : t.SameTokens t' := by
  unfold Turn.andThen at h
  split at h
  · exact hf h
  · rw [← some.inj h]
    exact .refl t

theorem Turn.check_same (h : t.check = some t') :
    ∃ t₁, t.brackets = some t₁ ∧ t₁.SameTokens t' := by
  obtain ⟨t₁, hbrackets, h⟩ := bind_eq_some_iff.mp h
  obtain ⟨t₂, hname, h⟩ := bind_eq_some_iff.mp h
  obtain ⟨t₃, hitem, h⟩ := bind_eq_some_iff.mp h
  have hname' := Turn.andThen_same Turn.nameSep_same hname
  have hitem' := Turn.andThen_same Turn.itemSep_same hitem
  have hlast := Turn.andThen_same Turn.neighbours_same h
  exact ⟨t₁, hbrackets, hlast.tokens.trans (hitem'.tokens.trans hname'.tokens),
    hlast.tokParent.trans (hitem'.tokParent.trans hname'.tokParent),
    hlast.tok.trans (hitem'.tok.trans hname'.tok)⟩

theorem Turn.check_tokens (h : t.check = some t') : t'.s.tokens = t.s.tokens := by
  obtain ⟨t₁, hbrackets, hsame⟩ := Turn.check_same h
  rw [hsame.tokens, Turn.brackets_tokens hbrackets]

end Turns

theorem parseTurn_length (h : parseTurn buf size n s = some (s', .ok)) :
    s.tokens.length < n ∧ s'.tokens.length = s.tokens.length + 1 := by
  unfold parseTurn at h
  by_cases hroom : n ≤ s.tokens.length
  · rw [if_pos hroom] at h
    exact absurd h (by simp)
  · refine ⟨Nat.not_le.mp hroom, ?_⟩
    rw [if_neg hroom] at h
    obtain ⟨⟨pos, tok⟩, -, h⟩ := bind_eq_some_iff.mp h
    simp only at h
    split at h
    · exact absurd h (by simp)
    · obtain ⟨t, hcheck, h⟩ := bind_eq_some_iff.mp h
      obtain ⟨hs', -⟩ := Prod.mk.inj (some.inj h)
      rw [← hs', List.length_append, Turn.check_tokens hcheck, List.length_singleton]

theorem parseTurn_resize (h : parseTurn buf size n s = some (s', .ok))
    (hroom : s.tokens.length < n') : parseTurn buf size n' s = some (s', .ok) := by
  have hleft := (parseTurn_length h).1
  unfold parseTurn at h ⊢
  rw [if_neg (Nat.not_le.mpr hleft)] at h
  rw [if_neg (Nat.not_le.mpr hroom)]
  exact h

theorem parseLoop_succ_ok (h : parseLoop buf size n (fuel + 1) s = some (s', .ok)) :
    ∃ t, parseTurn buf size n s = some (t, .ok) ∧
      (if t.pos < size then parseLoop buf size n fuel t = some (s', .ok) else t = s') := by
  unfold parseLoop at h
  obtain ⟨⟨t, status⟩, hturn, hrest⟩ := bind_eq_some_iff.mp h
  simp only at hrest
  by_cases hok : status = .ok
  · subst hok
    refine ⟨t, hturn, ?_⟩
    by_cases hmore : t.pos < size
    · rw [if_pos hmore]
      rw [if_pos ⟨rfl, hmore⟩] at hrest
      exact hrest
    · rw [if_neg hmore]
      rw [if_neg fun hgo => hmore hgo.2] at hrest
      exact congrArg Prod.fst (some.inj hrest)
  · rw [if_neg fun hgo => hok hgo.1] at hrest
    exact absurd (congrArg Prod.snd (some.inj hrest)) hok

theorem parseLoop_length (h : parseLoop buf size n fuel s = some (s', .ok)) :
    s.tokens.length < s'.tokens.length ∧ s'.tokens.length ≤ n := by
  induction fuel generalizing s with
  | zero => exact absurd h (by simp [parseLoop])
  | succ fuel ih =>
    obtain ⟨t, hturn, hrest⟩ := parseLoop_succ_ok h
    have hlength := parseTurn_length hturn
    split at hrest
    · have := ih hrest
      omega
    · subst hrest
      omega

theorem parseLoop_resize (h : parseLoop buf size n fuel s = some (s', .ok))
    (hfits : s'.tokens.length ≤ n') (hfuel : n' < fuel' + s.tokens.length) :
    parseLoop buf size n' fuel' s = some (s', .ok) := by
  induction fuel generalizing fuel' s with
  | zero => exact absurd h (by simp [parseLoop])
  | succ fuel ih =>
    have hroom := (parseLoop_length h).1
    obtain ⟨t, hturn, hrest⟩ := parseLoop_succ_ok h
    have hlength := (parseTurn_length hturn).2
    -- the fuel is more than the tokens that are left
    obtain ⟨fuel', rfl⟩ : ∃ k, fuel' = k + 1 := ⟨fuel' - 1, by omega⟩
    unfold parseLoop
    rw [parseTurn_resize hturn (by omega)]
    simp only [bind_eq_bind, bind_some, true_and]
    split at hrest
    · rename_i hmore
      rw [if_pos hmore]
      exact ih hrest (by omega)
    · rename_i hend
      rw [if_neg hend, hrest]

/-- What a parse that succeeds has gone through -/
structure ParseSteps (json : List UInt8) (n : Nat) (ctx : Ctx) (size : Nat) (s : Locals) : Prop where
  init : json.length ≠ 0 ∧ 8 ≤ n
  utf8 : isValidUtf8 json json.length = some .ok
  trim : trimTrailingWhitespace json json.length = some size
  loop : parseLoop json size n (n + 1) {} = some (s, .ok)
  final : finalStatus s = some .ok
  ctx_eq : ctx =
    { buf := json, pos := s.pos, size := size, tokens := s.tokens, tokensSize := n, status := .ok }

theorem parseInit_status : (parseInit json n).status = .ok ↔ json.length ≠ 0 ∧ 8 ≤ n := by
  unfold parseInit
  simp only [ite_eq_right_iff, reduceCtorEq, imp_false, not_or, Nat.not_lt, ne_eq]

theorem Parsed.steps {ctx : Ctx} (h : Parsed json n ctx) :
    ∃ size s, ParseSteps json n ctx size s := by
  obtain ⟨hparse, hok⟩ := h
  unfold parse at hparse
  by_cases hinit : (parseInit json n).status = .ok
  · rw [if_neg (not_not.mpr hinit)] at hparse
    obtain ⟨utf8, hutf8, hparse⟩ := bind_eq_some_iff.mp hparse
    by_cases hvalid : utf8 = .ok
    · rw [if_neg (not_not.mpr hvalid)] at hparse
      obtain ⟨size, hsize, hparse⟩ := bind_eq_some_iff.mp hparse
      obtain ⟨⟨t, status⟩, hloop, hparse⟩ := bind_eq_some_iff.mp hparse
      by_cases hstatus : status = .ok
      · simp only [hstatus, if_true] at hparse
        obtain ⟨final, hfinal, hparse⟩ := bind_eq_some_iff.mp hparse
        rw [Option.some.injEq] at hparse
        subst hparse
        have hfinalOk : final = .ok := hok
        subst hfinalOk hvalid hstatus
        exact ⟨size, t, parseInit_status.mp hinit, hutf8, hsize, hloop, hfinal, rfl⟩
      · simp only [hstatus, if_false, bind_eq_bind, bind_some,
          Option.some.injEq] at hparse
        rw [← hparse] at hok
        exact absurd hok hstatus
    · rw [if_pos hvalid, Option.some.injEq] at hparse
      rw [← hparse] at hok
      exact absurd hok hvalid
  · rw [if_pos hinit, Option.some.injEq] at hparse
    rw [← hparse] at hok
    exact absurd hok hinit

theorem ParseSteps.parsed {ctx : Ctx} (h : ParseSteps json n ctx size s) : Parsed json n ctx := by
  have hinit : (parseInit json n).status = .ok := parseInit_status.mpr h.init
  refine ⟨?_, by rw [h.ctx_eq]⟩
  unfold parse
  rw [if_neg (not_not.mpr hinit)]
  show (isValidUtf8 json json.length).bind _ = _
  rw [h.utf8, bind_some, if_neg (not_not.mpr rfl)]
  show (trimTrailingWhitespace json json.length).bind _ = _
  rw [h.trim, bind_some]
  show (parseLoop json size n (n + 1) {}).bind _ = _
  rw [h.loop, bind_some]
  show (finalStatus s).bind _ = _
  rw [h.final, h.ctx_eq]
  rfl

theorem ParseSteps.length_le {ctx : Ctx} (h : ParseSteps json n ctx size s) :
    ctx.tokens.length ≤ n := by
  rw [h.ctx_eq]
  exact (parseLoop_length h.loop).2

theorem Parsed.resize {ctx : Ctx} (h : Parsed json n ctx) (hinit : 8 ≤ n')
    (hfits : ctx.tokens.length ≤ n') : Parsed json n' { ctx with tokensSize := n' } := by
  obtain ⟨size, s, hsteps⟩ := h.steps
  have htokens : s.tokens.length ≤ n' := by
    rw [hsteps.ctx_eq] at hfits
    exact hfits
  refine ParseSteps.parsed
    ⟨⟨hsteps.init.1, hinit⟩, hsteps.utf8, hsteps.trim, ?_, hsteps.final, ?_⟩
  · exact parseLoop_resize hsteps.loop htokens (by simp)
  · rw [hsteps.ctx_eq]

theorem Parsed.length_le {ctx : Ctx} (h : Parsed json n ctx) : 8 ≤ n ∧ ctx.tokens.length ≤ n := by
  obtain ⟨size, s, hsteps⟩ := h.steps
  exact ⟨hsteps.init.2, hsteps.length_le⟩

theorem Parsed.unique {ctx ctx' : Ctx} (h : Parsed json n ctx) (h' : Parsed json n' ctx') :
    ctx' = { ctx with tokensSize := ctx'.tokensSize } := by
  have hlength := h.length_le
  have hlength' := h'.length_le
  have hmax : Parsed json (max n n') { ctx with tokensSize := max n n' } :=
    h.resize (by omega) (by omega)
  have hmax' : Parsed json (max n n') { ctx' with tokensSize := max n n' } :=
    h'.resize (by omega) (by omega)
  have hsame := some.inj (hmax.1.symm.trans hmax'.1)
  have hfields : { ctx with tokensSize := ctx'.tokensSize } =
      { ctx' with tokensSize := ctx'.tokensSize } :=
    congrArg (fun c : Ctx => { c with tokensSize := ctx'.tokensSize }) hsame
  exact hfields.symm

theorem Parsed.exists_iff {ctx : Ctx} (h : Parsed json n ctx) :
    (∃ ctx', Parsed json n' ctx') ↔ 8 ≤ n' ∧ ctx.tokens.length ≤ n' := by
  refine ⟨fun ⟨ctx', h'⟩ => ?_, fun hfits => ⟨_, h.resize hfits.1 hfits.2⟩⟩
  have hlength := h'.length_le
  rw [h.unique h'] at hlength
  exact hlength

theorem valueRefLoop_tokensSize (ctx : Ctx) (n obj : Nat) (key : List UInt8) (i : Nat)
    (before : Token) (tokens : List Token) :
    valueRefLoop { ctx with tokensSize := n } obj key i before tokens =
      valueRefLoop ctx obj key i before tokens := by
  induction tokens generalizing i before with
  | nil => rfl
  | cons tok tokens ih =>
    unfold valueRefLoop
    rw [ih]
    rfl

theorem valueRef_tokensSize (ctx : Ctx) (n obj : Nat) (key : List UInt8) :
    valueRef { ctx with tokensSize := n } obj key = valueRef ctx obj key := by
  unfold valueRef
  simp only [valueRefLoop_tokensSize]

end Cj
end DeconzRest

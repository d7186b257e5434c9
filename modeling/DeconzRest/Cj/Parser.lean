import Mathlib.Data.List.Basic

/-!
# The tokenizing JSON parser `cj`

A model of `cj_parse_init` and `cj_parse`.  The parser reads octets from a
buffer by index and writes tokens to an array of a given size.

Every read of the buffer is `buf[i]?` and every read of the token array is an
access to the list of the tokens allocated so far, so `none` is the read that C
leaves undefined; the loops that C runs without a bound run on a fuel, and
`none` is a loop that does not end.  A function that returns `some` therefore
stays in its buffers and terminates.

Sizes, indices and counters are unbounded numbers: a buffer is shorter than
`2 ^ 32` octets, every token takes at least one of them, and so no unsigned
number of the source wraps around.  The two depths are an `int` of the source;
it can only overflow where more than `2 ^ 31 - 1` brackets are open, in a text
that is too short to close them all.
-/

namespace DeconzRest
namespace Cj

/-- `cj_status` -/
inductive Status where
  | ok | error | invalidUtf8 | tokensExhausted | parentClosing | invalidToken | invalidObject
  | multiTopThings
deriving DecidableEq, Repr

/-- `cj_token_type` -/
inductive TokenType where
  | invalid | string | primitive | arrayBeg | arrayEnd | objectBeg | objectEnd | itemSep | nameSep
deriving DecidableEq, Repr

/-- `cj_token`; a parent `none` is `CJ_INVALID_TOKEN_INDEX`. -/
structure Token where
  type : TokenType := .invalid
  pos : Nat := 0
  len : Nat := 0
  parent : Option Nat := none
deriving DecidableEq, Repr

/-- `cj_ctx`; `tokens` are the first `tokens_pos` entries of the token array. -/
structure Ctx where
  buf : List UInt8
  pos : Nat := 0
  size : Nat
  tokens : List Token := []
  tokensSize : Nat
  status : Status := .ok
deriving DecidableEq, Repr

/-- The loop over the leading one bits of the first octet: the octet without
them, and their number.  `cp` stays below 256, so the mask has eight bits. -/
def leadingOnes : Nat → Nat → Nat → Nat × Nat
  | 0, cp, bytes => (cp, bytes)
  | fuel + 1, cp, bytes =>
    if cp &&& (0x80 >>> bytes) ≠ 0 then
      leadingOnes fuel (cp &&& (0xFF ^^^ (0x80 >>> bytes))) (bytes + 1)
    else
      (cp, bytes)

/-- The loop over the remaining octets of a character; the inner `none` is an
octet that is no continuation. -/
def continuation (buf : List UInt8) : Nat → Nat → Nat → Option (Option Nat)
  | 0, _, cp => some (some cp)
  | bytes + 1, str, cp => do
      let b ← buf[str]?
      if b.toNat &&& 0xC0 ≠ 0x80 then
        some none
      else
        continuation buf bytes (str + 1) ((cp <<< 6) ||| (b.toNat &&& 0x3F))

/-- The checks behind the loop, for a character of `result` octets. -/
def validCodepoint (result cp : Nat) : Bool :=
  !((result = 2 && cp < 0x80) || (result = 3 && cp < 0x800) ||
    (result = 4 && (cp < 0x10000 || 0x10FFFF < cp)) || (0xD800 ≤ cp && cp ≤ 0xDFFF))

/-- `cj_utf8_to_codepoint` at the index `str`: the number of octets, zero for an
invalid character, and the code point. -/
def utf8ToCodepoint (buf : List UInt8) (str len : Nat) : Option (Nat × Nat) :=
  if len = 0 then
    some (0, 0)
  else do
    let first ← buf[str]?
    if first.toNat &&& 0x80 = 0 then
      some (1, first.toNat)
    else
      let (cp, bytes) := leadingOnes 8 first.toNat 0
      if bytes < 2 ∨ 4 < bytes ∨ len < bytes then
        some (0, 0)
      else do
        match ← continuation buf (bytes - 1) (str + 1) cp with
        | some cp => some (if validCodepoint bytes cp then (bytes, cp) else (0, 0))
        | none => some (0, 0)

/-- The loop of `cj_is_valid_utf8`. -/
def isValidUtf8Loop (buf : List UInt8) : Nat → Nat → Nat → Option Status
  | 0, _, _ => none
  | fuel + 1, str, len => do
      let (chCount, _) ← utf8ToCodepoint buf str len
      if 0 < chCount then
        if 0 < len - chCount then
          isValidUtf8Loop buf fuel (str + chCount) (len - chCount)
        else
          some .ok
      else
        some .invalidUtf8

/-- `cj_is_valid_utf8` -/
def isValidUtf8 (buf : List UInt8) (len : Nat) : Option Status :=
  isValidUtf8Loop buf len 0 len

/-! ## Tokens -/

def isWhiteSpace (c : UInt8) : Bool := c = 0x20 || c = 0x09 || c = 0x0D || c = 0x0A

/-- The loop of `cj_eat_white_space`, which reads an octet before it looks at the
bound. -/
def eatWhiteSpaceLoop (buf : List UInt8) (str len : Nat) : Nat → Nat → Option Nat
  | 0, _ => none
  | fuel + 1, result => do
      let c ← buf[str + result]?
      if c ≠ 0 ∧ result < len then
        if isWhiteSpace c then
          eatWhiteSpaceLoop buf str len fuel (result + 1)
        else
          some result
      else
        some result

/-- `cj_eat_white_space` at the index `str`. -/
def eatWhiteSpace (buf : List UInt8) (str len : Nat) : Option Nat :=
  eatWhiteSpaceLoop buf str len (len + 1) 0

/-- `cj_primitive_state` -/
inductive PrimState where
  | init
  | nullN | nullU | nullL1
  | trueT | trueR | trueU
  | falseF | falseA | falseL | falseS | falseE
  | numberSign | numberInitialZero | numberDigit | numberDot | numberFractDigit
  | numberExpE | numberExpSign | numberExpDigit
  | finish
deriving DecidableEq, Repr

def isDigit (ch : UInt8) : Bool := 0x30 ≤ ch && ch ≤ 0x39

def isHex (ch : UInt8) : Bool :=
  (0x61 ≤ ch && ch ≤ 0x66) || (0x41 ≤ ch && ch ≤ 0x46) || (0x30 ≤ ch && ch ≤ 0x39)

/-- `e` or `E`. -/
def isExp (ch : UInt8) : Bool := ch = 0x65 || ch = 0x45

/-- The `switch` over the state of a primitive; `init` where no case assigns a
next state. -/
def primNext : PrimState → UInt8 → PrimState
  | .init, ch =>
    if ch = 0x6E then .nullN
    else if ch = 0x74 then .trueT
    else if ch = 0x66 then .falseF
    else if ch = 0x2D then .numberSign
    else if ch = 0x30 then .numberInitialZero
    else if 0x31 ≤ ch ∧ ch ≤ 0x39 then .numberDigit
    else .init
  | .numberSign, ch =>
    if ch = 0x30 then .numberInitialZero
    else if 0x31 ≤ ch ∧ ch ≤ 0x39 then .numberDigit
    else .init
  | .numberDigit, ch =>
    if isDigit ch then .numberDigit
    else if ch = 0x2E then .numberDot
    else if isExp ch then .numberExpE
    else .init
  | .numberInitialZero, ch =>
    if ch = 0x2E then .numberDot
    else if isExp ch then .numberExpE
    else .init
  | .numberDot, ch => if isDigit ch then .numberFractDigit else .init
  | .numberFractDigit, ch =>
    if isDigit ch then .numberFractDigit
    else if isExp ch then .numberExpE
    else .init
  | .numberExpE, ch =>
    if isDigit ch then .numberExpDigit
    else if ch = 0x2B ∨ ch = 0x2D then .numberExpSign
    else .init
  | .numberExpSign, ch => if isDigit ch then .numberExpDigit else .init
  | .numberExpDigit, ch => if isDigit ch then .numberExpDigit else .init
  | .nullN, ch => if ch = 0x75 then .nullU else .init
  | .nullU, ch => if ch = 0x6C then .nullL1 else .init
  | .nullL1, ch => if ch = 0x6C then .finish else .init
  | .trueT, ch => if ch = 0x72 then .trueR else .init
  | .trueR, ch => if ch = 0x75 then .trueU else .init
  | .trueU, ch => if ch = 0x65 then .finish else .init
  | .falseF, ch => if ch = 0x61 then .falseA else .init
  | .falseA, ch => if ch = 0x6C then .falseL else .init
  | .falseL, ch => if ch = 0x73 then .falseS else .init
  | .falseS, ch => if ch = 0x65 then .finish else .init
  | .falseE, _ => .init
  | .finish, _ => .init

def PrimState.isEnd : PrimState → Bool
  | .numberExpDigit | .numberFractDigit | .numberInitialZero | .numberDigit => true
  | _ => false

/-- The `switch` over the first character of a token. -/
def structuralType (ch : UInt8) : TokenType :=
  if ch = 0x7B then .objectBeg
  else if ch = 0x7D then .objectEnd
  else if ch = 0x5B then .arrayBeg
  else if ch = 0x5D then .arrayEnd
  else if ch = 0x2C then .itemSep
  else if ch = 0x3A then .nameSep
  else .invalid

/-- The string branch, for a character that does not end the string: the next
value of `esc`, `none` where the token becomes invalid. -/
def stringNext (esc : Nat) (ch : UInt8) : Option Nat :=
  if esc = 0 then
    if ch < 0x20 then none else if ch = 0x5C then some 1 else some 0
  else if esc = 1 then
    if ch ∈ [0x22, 0x6E, 0x5C, 0x2F, 0x74, 0x72, 0x62, 0x66] then some 0
    else if ch = 0x75 then some 2
    else none
  else if isHex ch then
    some (if esc + 1 = 6 then 0 else esc + 1)
  else
    none

/-- The loop of `cj_next_token` from the index `pos` on. -/
def nextTokenLoop (buf : List UInt8) (len : Nat) :
    Nat → Nat → Token → Nat → PrimState → Option (Nat × Token)
  | 0, _, _, _, _ => none
  | fuel + 1, pos, tok, esc, prim =>
    if pos < len then do
      let ch ← buf[pos]?
      match tok.type with
      | .invalid =>
        if structuralType ch ≠ .invalid then
          some (pos + 1, { tok with type := structuralType ch, len := 1 })
        else if ch = 0x22 then
          nextTokenLoop buf len fuel (pos + 1) { tok with type := .string, pos := tok.pos + 1 }
            esc prim
        else
          -- `pos--`, so that the loop comes back to this character
          nextTokenLoop buf len fuel pos { tok with type := .primitive, len := 0 } esc .init
      | .string =>
        if esc = 0 ∧ ch = 0x22 then
          some (pos + 1, tok)
        else
          match stringNext esc ch with
          | some esc =>
            nextTokenLoop buf len fuel (pos + 1) { tok with len := tok.len + 1 } esc prim
          | none => some (pos, { tok with type := .invalid })
      | .primitive =>
        if ch = 0 then
          some (pos, { tok with type := .invalid })
        else
          let next := primNext prim ch
          if next = .init then
            some (pos, if prim.isEnd then tok else { tok with type := .invalid })
          else
            let tok := { tok with len := tok.len + 1 }
            if next = .finish then
              some (pos + 1, tok)
            else
              nextTokenLoop buf len fuel (pos + 1) tok esc next
      | _ => some (pos, tok)
    else
      -- the end of a string is detected in the loop
      some (pos, if tok.type = .string then { tok with type := .invalid } else tok)

/-- `cj_next_token`: the index behind the token, and the token. -/
def nextToken (buf : List UInt8) (len pos : Nat) (tok : Token) : Option (Nat × Token) := do
  let pos := pos + (← eatWhiteSpace buf pos (len - pos))
  nextTokenLoop buf len (len - pos + 2) pos { tok with type := .invalid, pos := pos, len := 0 }
    0 .init

/-- The loop of `cj_trim_trailing_whitespace`. -/
def trimTrailingWhitespace (buf : List UInt8) : Nat → Option Nat
  | 0 => some 0
  | size + 1 => do
      let c ← buf[size]?
      if isWhiteSpace c then trimTrailingWhitespace buf size else some (size + 1)

/-! ## The parser -/

/-- The local variables of `cj_parse`, and the tokens allocated so far. -/
structure Locals where
  tokens : List Token := []
  pos : Nat := 0
  objDepth : Int := 0
  arrDepth : Int := 0
  ncommas : Nat := 0
  ncolons : Nat := 0
  nstructures : Nat := 0
  tokParent : Option Nat := none
deriving DecidableEq, Repr

/-- A token that was just allocated behind `s.tokens`, with the status. -/
structure Turn where
  s : Locals
  tok : Token
  status : Status := .ok
deriving DecidableEq, Repr

namespace Turn

/-- `ctx->tokens[i]` while `tok` is the last allocated token. -/
def tokenAt (t : Turn) (i : Nat) : Option Token := (t.s.tokens ++ [t.tok])[i]?

/-- `ctx->tokens[ref]`; no entry has the invalid index. -/
def tokenRef (t : Turn) : Option Nat → Option Token
  | some i => t.tokenAt i
  | none => none

/-- `tok_index` -/
def index (t : Turn) : Nat := t.s.tokens.length

/-- `tok[-1]` -/
def before (t : Turn) : Option Token :=
  match t.index with
  | 0 => none
  | i + 1 => t.tokenAt i

def stop (t : Turn) (status : Status) : Turn := { t with status := status }

/-- The branches for an opening bracket; `s` has the depths already counted. -/
def openBracket (t : Turn) (s : Locals) : Turn :=
  if 1 < t.index + 1 ∧ t.s.arrDepth = 0 ∧ t.s.objDepth = 0 then
    t.stop .multiTopThings
  else
    { t with s := { s with nstructures := s.nstructures + 1, tokParent := some t.index } }

/-- The branches for a closing bracket of the kind whose depth is `depth`; `s` has
it already counted down. -/
def closeBracket (t : Turn) (s : Locals) (depth : Int) : Option Turn :=
  if depth < 0 ∨ t.index < 1 then
    some { t with s := s, status := .parentClosing }
  else do
    let parent ← t.tokenRef t.tok.parent
    some { t with
      s := { s with tokParent := parent.parent }
      tok := { t.tok with parent := parent.parent } }

def brackets (t : Turn) : Option Turn :=
  match t.tok.type with
  | .objectBeg => some (t.openBracket { t.s with objDepth := t.s.objDepth + 1 })
  | .arrayBeg => some (t.openBracket { t.s with arrDepth := t.s.arrDepth + 1 })
  | .objectEnd =>
    t.closeBracket { t.s with objDepth := t.s.objDepth - 1 } (t.s.objDepth - 1)
  | .arrayEnd =>
    t.closeBracket { t.s with arrDepth := t.s.arrDepth - 1 } (t.s.arrDepth - 1)
  | _ => some t

def nameSep (t : Turn) : Option Turn :=
  if t.tok.type ≠ .nameSep then
    some t
  else if t.index < 2 ∨ t.tok.parent = none then
    some (t.stop .invalidToken)
  else do
    let before ← t.before
    if before.type ≠ .string then
      some (t.stop .invalidToken)
    else do
      let parent ← t.tokenRef t.tok.parent
      if parent.type ≠ .objectBeg then
        some (t.stop .invalidToken)
      else
        some { t with s := { t.s with ncolons := t.s.ncolons + 1 } }

def itemSep (t : Turn) : Option Turn :=
  if t.tok.type ≠ .itemSep then
    some t
  else if t.index < 2 ∨ t.tok.parent = none then
    some (t.stop .invalidToken)
  else do
    let before ← t.before
    if before.type = .objectBeg ∨ before.type = .arrayBeg then
      some (t.stop .invalidToken)
    else do
      let parent ← t.tokenRef t.tok.parent
      if parent.type = .objectBeg then
        some { t with s := { t.s with ncommas := t.s.ncommas + 1 } }
      else
        some t

def startsValue (type : TokenType) : Bool :=
  type = .string || type = .primitive || type = .objectBeg || type = .arrayBeg

/-- The token types that may end a value's place. -/
def endsValue (type : TokenType) : Bool :=
  type = .itemSep || type = .objectEnd || type = .arrayEnd

def neighbours (t : Turn) : Option Turn :=
  if t.index < 1 then
    some t
  else do
    let before ← t.before
    if before.type = .nameSep ∧ ¬ startsValue t.tok.type then
      some (t.stop .invalidToken)
    else if before.type = .itemSep ∧ ¬ startsValue t.tok.type then
      some { t with s := { t.s with pos := before.pos }, status := .invalidToken }
    else if before.type = .primitive ∧ ¬ endsValue t.tok.type then
      some (t.stop .invalidToken)
    else if before.type = .string ∧ ¬ (t.tok.type = .nameSep ∨ endsValue t.tok.type) then
      some (t.stop .invalidToken)
    else
      some t

def andThen (t : Turn) (f : Turn → Option Turn) : Option Turn :=
  if t.status = .ok then f t else some t

/-- The body of the loop behind `cj_next_token`, for a token that is not
invalid and has its parent. -/
def check (t : Turn) : Option Turn := do
  let t ← t.brackets
  let t ← t.andThen nameSep
  let t ← t.andThen itemSep
  t.andThen neighbours

end Turn

/-- One turn of the loop; the token array has room for `n` tokens. -/
def parseTurn (buf : List UInt8) (size n : Nat) (s : Locals) : Option (Locals × Status) :=
  if n ≤ s.tokens.length then
    some (s, .tokensExhausted)
  else do
    let (pos, tok) ← nextToken buf size s.pos {}
    let s := { s with pos := pos }
    if tok.type = .invalid then
      some ({ s with tokens := s.tokens ++ [tok] }, .invalidToken)
    else do
      let t ← Turn.check { s := s, tok := { tok with parent := s.tokParent } }
      some ({ t.s with tokens := t.s.tokens ++ [t.tok] }, t.status)

/-- The loop of `cj_parse`. -/
def parseLoop (buf : List UInt8) (size n : Nat) : Nat → Locals → Option (Locals × Status)
  | 0, _ => none
  | fuel + 1, s => do
      let (s, status) ← parseTurn buf size n s
      if status = .ok ∧ s.pos < size then
        parseLoop buf size n fuel s
      else
        some (s, status)

def finalStatus (s : Locals) : Option Status :=
  if s.objDepth ≠ 0 ∨ s.arrDepth ≠ 0 then
    some .parentClosing
  else if 0 < s.nstructures then do
    let tok ← s.tokens[s.tokens.length - 1]?
    if tok.type ≠ .objectEnd ∧ tok.type ≠ .arrayEnd then
      some .invalidToken
    else if s.ncommas ≠ 0 ∧ s.ncolons ≤ s.ncommas then
      some .invalidObject
    else
      some .ok
  else
    some .ok

/-- `cj_parse_init`, for pointers that are not null. -/
def parseInit (json : List UInt8) (tokensSize : Nat) : Ctx where
  buf := json
  size := json.length
  tokensSize := tokensSize
  status := if json.length = 0 ∨ tokensSize < 8 then .error else .ok

/-- `cj_parse` -/
def parse (ctx : Ctx) : Option Ctx :=
  if ctx.status ≠ .ok then
    some ctx
  else do
    let utf8 ← isValidUtf8 ctx.buf ctx.size
    if utf8 ≠ .ok then
      some { ctx with status := utf8 }
    else do
      let size ← trimTrailingWhitespace ctx.buf ctx.size
      let (s, status) ← parseLoop ctx.buf size ctx.tokensSize (ctx.tokensSize + 1) {}
      let status ← if status = .ok then finalStatus s else some status
      some { ctx with size := size, pos := s.pos, tokens := s.tokens, status := status }

end Cj
end DeconzRest

import DeconzRest.Json.Layout
import DeconzRest.Lib.Transition

/-!
# `JsonBuilder`

The builder writes a JSON text call by call into a buffer.  It remembers the
containers that are open and whether the last thing written was a bracket, an
element or a key, and puts commas accordingly.

The buffer is large enough, so writing appends.  `putDouble` stands for
`U_sstream_put_double` with six decimals, which is not part of this repository.

What the builder leaves to its caller is collected in `misplaced`: a container
opened in an object without a key, an object closed right behind a key, and a
second container at the top.  `jsonText_iff` says that nothing else is wrong with
the calls, as long as keys, strings and numbers are spelled as JSON spells them.
-/

namespace DeconzRest

open Rfc8259 List

/-- `JsonBuilderState` -/
inductive JsonBuilderState where
  | initial | empty | element | key
deriving DecidableEq, Repr

/-- `JsonBuilderPrivate`: the text in `ss`, and of `stack` the first `nesting`
entries, innermost first. -/
structure JsonBuilder where
  text : List UInt8 := []
  state : JsonBuilderState := .initial
  err : Nat := 0
  stack : List Frame := []
deriving DecidableEq, Repr

namespace JsonBuilder

/-- `kJB_MaxNesting` -/
def maxNesting : Nat := 16

/-- `d->nesting` -/
def nesting (b : JsonBuilder) : Nat := b.stack.length

/-- `U_sstream_put_str` -/
def put (b : JsonBuilder) (str : List UInt8) : JsonBuilder := { b with text := b.text ++ str }

def comma (b : JsonBuilder) : JsonBuilder := if b.state = .element then b.put [0x2C] else b

/-- The common body of `startArray` and `startObject`. -/
def start (frame : Frame) (bracket : UInt8) (b : JsonBuilder) : JsonBuilder :=
  if b.nesting = maxNesting then
    { b with err := 1 }
  else
    { b.comma.put [bracket] with stack := frame :: b.stack, state := .empty }

/-- `JsonBuilder::startArray` -/
def startArray : JsonBuilder → JsonBuilder := start .array 0x5B

/-- `JsonBuilder::startObject` -/
def startObject : JsonBuilder → JsonBuilder := start .object 0x7B

/-- The common body of `endArray` and `endObject`.  The level is left before its kind
is looked at. -/
def close (frame : Frame) (bracket : UInt8) (b : JsonBuilder) : JsonBuilder :=
  match b.stack with
  | [] => { b with err := 1 }
  | top :: stack =>
    if top ≠ frame then
      { b with stack := stack, err := 1 }
    else
      { b.put [bracket] with stack := stack, state := .element }

/-- `JsonBuilder::endArray` -/
def endArray : JsonBuilder → JsonBuilder := close .array 0x5D

/-- `JsonBuilder::endObject` -/
def endObject : JsonBuilder → JsonBuilder := close .object 0x7D

def quoted (str : List UInt8) : List UInt8 := 0x22 :: (str ++ [0x22])

/-- `JsonBuilder::addKey` -/
def addKey (key : List UInt8) (b : JsonBuilder) : JsonBuilder :=
  match b.stack with
  | .object :: _ =>
    if b.state = .empty ∨ b.state = .element then
      { (b.comma.put (quoted key)).put [0x3A] with state := .key }
    else
      { b with err := 1 }
  | _ => { b with err := 1 }

/-- The common body of `addNumber` and `addString`. -/
def addScalar (str : List UInt8) (b : JsonBuilder) : JsonBuilder :=
  match b.stack with
  | [] => { b with err := 1 }
  | .object :: _ =>
    if b.state ≠ .key then
      { b with err := 1 }
    else
      { b.put str with state := .element }
  | .array :: _ => { b.comma.put str with state := .element }

variable {D : Type}

/-- `JsonBuilder::addNumber` -/
def addNumber (putDouble : D → List UInt8) (num : D) : JsonBuilder → JsonBuilder :=
  addScalar (putDouble num)

/-- `JsonBuilder::addString` -/
def addString (str : List UInt8) : JsonBuilder → JsonBuilder := addScalar (quoted str)

/-- A call of a member function; `D` stands for the C++ `double`. -/
inductive Call (D : Type) where
  | startArray
  | endArray
  | startObject
  | endObject
  | addKey (key : List UInt8)
  | addNumber (num : D)
  | addString (str : List UInt8)

variable (putDouble : D → List UInt8)

def step (b : JsonBuilder) : Call D → JsonBuilder
  | .startArray => b.startArray
  | .endArray => b.endArray
  | .startObject => b.startObject
  | .endObject => b.endObject
  | .addKey key => b.addKey key
  | .addNumber num => b.addNumber putDouble num
  | .addString str => b.addString str

def build (calls : List (Call D)) : JsonBuilder := Transition.run (step putDouble) {} calls

namespace Call

def opens : Call D → Bool
  | .startArray | .startObject => true
  | _ => false

/-- The call is `addKey`. -/
def isKey : Call D → Bool
  | .addKey _ => true
  | _ => false

/-- Key and string are the inside of a JSON string already, and the number is printed
as a JSON number. -/
def Clean (putDouble : D → List UInt8) : Call D → Prop
  | .addKey key => Chars key ∧ ValidUtf8 key
  | .addNumber num => Number (putDouble num)
  | .addString str => Chars str ∧ ValidUtf8 str
  | _ => True

/-- What a call does to the open containers. -/
def frames (stack : List Frame) : Call D → List Frame
  | .startArray => .array :: stack
  | .startObject => .object :: stack
  | .endArray | .endObject => stack.tail
  | _ => stack

end Call

def openFrames (calls : List (Call D)) : List Frame := calls.foldl Call.frames []

/-- The call before was `addKey`. -/
def behindKey (front : List (Call D)) : Bool := front.getLast?.any Call.isKey

/-- What the builder lets through although the text is none: behind the calls `front`
a container is opened at the top again, or in an object without a key, or an object is
closed right behind a key. -/
def misplaced (front : List (Call D)) (call : Call D) : Bool :=
  match call with
  | .startArray | .startObject =>
    match openFrames front with
    | [] => !front.isEmpty
    | .object :: _ => !behindKey front
    | .array :: _ => false
  | .endObject => behindKey front
  | _ => false

/-- There is a call, and none is misplaced. -/
def WellPlaced (calls : List (Call D)) : Prop :=
  calls ≠ [] ∧ ∀ front call back, calls = front ++ call :: back → misplaced front call = false

def AllPlaced (calls : List (Call D)) : Prop :=
  ∀ front call back, calls = front ++ call :: back → misplaced front call = false

theorem allPlaced_concat (calls : List (Call D)) (call : Call D) :
    AllPlaced (calls ++ [call]) ↔ AllPlaced calls ∧ misplaced calls call = false := by
  constructor
  · intro h
    refine ⟨fun front c back heq => ?_, h calls call [] rfl⟩
    apply h front c (back ++ [call])
    rw [heq, append_assoc, cons_append]
  · rintro ⟨h, hlast⟩ front c back heq
    rcases eq_nil_or_concat back with rfl | ⟨back, d, rfl⟩
    · obtain ⟨rfl, hc⟩ := append_inj' heq rfl
      rw [← singleton_inj.mp hc]
      exact hlast
    · have hsplit : calls ++ [call] = (front ++ c :: back) ++ [d] := by
        rw [heq, concat_eq_append]
        simp
      obtain ⟨hcalls, -⟩ := append_inj' hsplit rfl
      exact h front c back hcalls

@[simp] theorem openFrames_concat (calls : List (Call D)) (call : Call D) :
    openFrames (calls ++ [call]) = call.frames (openFrames calls) := by
  simp [openFrames]

/-! ## One call that raises no error -/

namespace Call

def kinds (state : JsonBuilderState) (call : Call D) : List Kind :=
  let separator := if state = .element then [Kind.valueSeparator] else []
  match call with
  | .startArray => separator ++ [.beginArray]
  | .endArray => [.endArray]
  | .startObject => separator ++ [.beginObject]
  | .endObject => [.endObject]
  | .addKey _ => separator ++ [.string, .nameSeparator]
  | .addNumber _ => separator ++ [.primitive]
  | .addString _ => separator ++ [.string]

def bytes (state : JsonBuilderState) (call : Call D) : List UInt8 :=
  let separator := if state = .element then [0x2C] else []
  match call with
  | .startArray => separator ++ [0x5B]
  | .endArray => [0x5D]
  | .startObject => separator ++ [0x7B]
  | .endObject => [0x7D]
  | .addKey key => separator ++ quoted key ++ [0x3A]
  | .addNumber num => separator ++ putDouble num
  | .addString str => separator ++ quoted str

def nextState : Call D → JsonBuilderState
  | .startArray | .startObject => .empty
  | .addKey _ => .key
  | _ => .element

def Allowed (b : JsonBuilder) : Call D → Prop
  | .startArray | .startObject => True
  | .endArray => ∃ stack, b.stack = .array :: stack
  | .endObject => ∃ stack, b.stack = .object :: stack
  | .addKey _ => (∃ stack, b.stack = .object :: stack) ∧ (b.state = .empty ∨ b.state = .element)
  | .addNumber _ | .addString _ =>
    (∃ stack, b.stack = .array :: stack) ∨ (∃ stack, b.stack = .object :: stack) ∧ b.state = .key

end Call

/-- What a call does that raises no error. -/
structure Stepped (b : JsonBuilder) (call : Call D) (b' : JsonBuilder) : Prop where
  err : b.err = 0
  allowed : call.Allowed b
  stack : b'.stack = call.frames b.stack
  state : b'.state = call.nextState
  text : b'.text = b.text ++ call.bytes putDouble b.state

theorem comma_put (b : JsonBuilder) (str : List UInt8) :
    (b.comma.put str).text = b.text ++ ((if b.state = .element then [0x2C] else []) ++ str) ∧
      (b.comma.put str).err = b.err := by
  unfold comma
  split <;> simp [put]

variable {b : JsonBuilder}

theorem stepped_start {frame : Frame} {bracket : UInt8} (h : (start frame bracket b).err = 0) :
    b.err = 0 ∧ start frame bracket b =
      { b.comma.put [bracket] with stack := frame :: b.stack, state := .empty } := by
  unfold start at h ⊢
  split at h
  · exact absurd h (by simp)
  · rename_i hnesting
    rw [if_neg hnesting]
    exact ⟨(comma_put b [bracket]).2.symm.trans h, rfl⟩

theorem stepped_close {frame : Frame} {bracket : UInt8} (h : (close frame bracket b).err = 0) :
    b.err = 0 ∧ ∃ stack, b.stack = frame :: stack ∧ close frame bracket b =
      { b.put [bracket] with stack := stack, state := .element } := by
  unfold close at h ⊢
  split at h
  · exact absurd h (by simp)
  · rename_i top stack hstack
    split at h
    · exact absurd h (by simp)
    · rename_i htop
      rw [not_not] at htop
      refine ⟨h, stack, by rw [hstack, htop], ?_⟩
      simp [htop]

theorem stepped_addKey {key : List UInt8} (h : (addKey key b).err = 0) :
    b.err = 0 ∧ (∃ stack, b.stack = .object :: stack) ∧ (b.state = .empty ∨ b.state = .element) ∧
      addKey key b = { (b.comma.put (quoted key)).put [0x3A] with state := .key } := by
  unfold addKey at h ⊢
  split at h
  · rename_i stack hstack
    split at h
    · rename_i hstate
      exact ⟨(comma_put b (quoted key)).2.symm.trans h, ⟨stack, hstack⟩, hstate, if_pos hstate⟩
    · exact absurd h (by simp)
  · exact absurd h (by simp)

theorem stepped_addScalar {str : List UInt8} (h : (addScalar str b).err = 0) :
    b.err = 0 ∧ ((∃ stack, b.stack = .array :: stack) ∨ (∃ stack, b.stack = .object :: stack) ∧
        b.state = .key) ∧
      addScalar str b = { b.comma.put str with state := .element } := by
  unfold addScalar at h ⊢
  split at h
  · exact absurd h (by simp)
  · rename_i stack hstack
    split at h
    · exact absurd h (by simp)
    · rename_i hstate
      rw [not_not] at hstate
      refine ⟨h, .inr ⟨⟨stack, hstack⟩, hstate⟩, ?_⟩
      -- behind a key there is no comma
      simp [hstate, comma]
  · rename_i stack hstack
    exact ⟨(comma_put b str).2.symm.trans h, .inl ⟨stack, hstack⟩, rfl⟩

variable {call : Call D}

theorem stepped (h : (step putDouble b call).err = 0) :
    Stepped putDouble b call (step putDouble b call) := by
  have hcomma (str : List UInt8) := (comma_put b str).1
  have hstack (str : List UInt8) : (b.comma.put str).stack = b.stack := by
    unfold comma
    split <;> rfl
  cases call with
  | startArray | startObject =>
    obtain ⟨herr, heq⟩ := stepped_start h
    exact ⟨herr, trivial, congrArg JsonBuilder.stack heq, congrArg JsonBuilder.state heq,
      (congrArg JsonBuilder.text heq).trans (hcomma _)⟩
  | endArray | endObject =>
    obtain ⟨herr, stack, hopen, heq⟩ := stepped_close h
    refine ⟨herr, ⟨stack, hopen⟩, ?_, congrArg JsonBuilder.state heq, congrArg JsonBuilder.text heq⟩
    have hframes := congrArg JsonBuilder.stack heq
    simp only [Call.frames, hopen]
    exact hframes
  | addKey key =>
    obtain ⟨herr, hopen, hstate, heq⟩ := stepped_addKey h
    refine ⟨herr, ⟨hopen, hstate⟩, (congrArg JsonBuilder.stack heq).trans (hstack (quoted key)),
      congrArg JsonBuilder.state heq, (congrArg JsonBuilder.text heq).trans ?_⟩
    show (b.comma.put (quoted key)).text ++ [0x3A] = _
    rw [hcomma]
    simp [Call.bytes]
  | addNumber num =>
    obtain ⟨herr, hallowed, heq⟩ := stepped_addScalar h
    exact ⟨herr, hallowed, (congrArg JsonBuilder.stack heq).trans (hstack (putDouble num)),
      congrArg JsonBuilder.state heq, (congrArg JsonBuilder.text heq).trans (hcomma _)⟩
  | addString str =>
    obtain ⟨herr, hallowed, heq⟩ := stepped_addScalar h
    exact ⟨herr, hallowed, (congrArg JsonBuilder.stack heq).trans (hstack (quoted str)),
      congrArg JsonBuilder.state heq, (congrArg JsonBuilder.text heq).trans (hcomma _)⟩

/-! ## The tokens of one call -/

/-- Where the recognizer of JSON stands while every call so far is well placed. -/
def config (b : JsonBuilder) : Config :=
  ⟨b.stack,
    match b.state with
    | .initial | .key => .value
    | .element => .next
    | .empty => if b.stack.head? = some .object then .firstMember else .firstElement⟩

structure Coherent (b : JsonBuilder) : Prop where
  initial : b.state = .initial → b.stack = []
  empty : b.state = .empty → b.stack ≠ []
  key : b.state = .key → ∃ stack, b.stack = .object :: stack

/-- `misplaced`, read off the builder. -/
def misplacedIn (b : JsonBuilder) : Call D → Bool
  | .startArray | .startObject =>
    match b.stack with
    | [] => decide (b.state ≠ .initial)
    | .object :: _ => decide (b.state ≠ .key)
    | .array :: _ => false
  | .endObject => decide (b.state = .key)
  | _ => false

theorem coherent_step {b b' : JsonBuilder} (h : Stepped putDouble b call b') : Coherent b' := by
  obtain ⟨-, hallowed, hstack, hstate, -⟩ := h
  cases call with
  | startArray | startObject =>
    constructor <;> simp [hstack, hstate, Call.frames, Call.nextState]
  | addKey key =>
    obtain ⟨hopen, -⟩ := hallowed
    constructor <;> simp [hstack, hstate, Call.frames, Call.nextState, hopen]
  | _ => constructor <;> simp [hstate, Call.nextState]

theorem run_kinds {b b' : JsonBuilder} (hcoherent : Coherent b) (h : Stepped putDouble b call b') :
    Config.run b.config (call.kinds b.state) =
      if misplacedIn b call then none else some b'.config := by
  obtain ⟨text, state, err, stack⟩ := b
  obtain ⟨hinitial, hempty, hkey⟩ := hcoherent
  obtain ⟨-, hallowed, hstack, hstate, -⟩ := h
  simp only at hinitial hempty hkey
  have hconfig : b'.config = ⟨call.frames stack,
      match call.nextState with
      | .initial | .key => .value
      | .element => .next
      | .empty => if (call.frames stack).head? = some .object then .firstMember
          else .firstElement⟩ := by
    rw [config, hstack, hstate]
  rw [hconfig]
  cases call with
  | startArray | startObject =>
    cases state with
    | initial =>
      obtain rfl : stack = [] := hinitial rfl
      rfl
    | key =>
      obtain ⟨outer, rfl⟩ := hkey rfl
      rfl
    | empty =>
      cases stack with
      | nil => exact absurd rfl (hempty rfl)
      | cons frame outer => cases frame <;> rfl
    | element =>
      cases stack with
      | nil => rfl
      | cons frame outer => cases frame <;> rfl
  | endArray =>
    obtain ⟨outer, rfl⟩ := hallowed
    cases state with
    | initial => exact absurd (hinitial rfl) (cons_ne_nil _ _)
    | key =>
      obtain ⟨_, hobject⟩ := hkey rfl
      exact absurd (List.cons.inj hobject).1 (by decide)
    | empty | element => rfl
  | endObject =>
    obtain ⟨outer, rfl⟩ := hallowed
    cases state with
    | initial => exact absurd (hinitial rfl) (cons_ne_nil _ _)
    | key | empty | element => rfl
  | addKey key =>
    obtain ⟨⟨outer, rfl⟩, hplace⟩ := hallowed
    cases state with
    | initial | key => exact absurd hplace (by simp)
    | empty | element => rfl
  | addNumber _ | addString _ =>
    rcases hallowed with ⟨outer, rfl⟩ | ⟨⟨outer, rfl⟩, rfl⟩
    · cases state with
      | initial => exact absurd (hinitial rfl) (cons_ne_nil _ _)
      | key =>
        obtain ⟨_, hobject⟩ := hkey rfl
        exact absurd (List.cons.inj hobject).1 (by decide)
      | empty | element => rfl
    · rfl

def stringLexeme (str : List UInt8) (h : Chars str) : Lexeme := ⟨.string, quoted str, str, rfl, h⟩

def numberLexeme (str : List UInt8) (h : Number str) : Lexeme :=
  ⟨.primitive, str, .inr (.inr (.inr h))⟩

theorem exists_separator (state : JsonBuilderState) :
    ∃ pieces, layoutText pieces = (if state = .element then [0x2C] else []) ∧ layoutKinds pieces =
      if state = .element then [Kind.valueSeparator] else [] := by
  by_cases hstate : state = .element
  · refine ⟨[.ofLexeme .valueSeparator], ?_, ?_⟩
    · rw [if_pos hstate]
      rfl
    · rw [if_pos hstate]
      rfl
  · refine ⟨[], ?_, ?_⟩
    · rw [if_neg hstate]
      rfl
    · rw [if_neg hstate]
      rfl

theorem exists_pieces (hclean : call.Clean putDouble) (state : JsonBuilderState) :
    ∃ pieces, layoutText pieces = call.bytes putDouble state ∧ layoutKinds pieces =
      call.kinds state := by
  obtain ⟨separator, htext, hkinds⟩ := exists_separator state
  have happend (more : List Placed) :
      layoutText (separator ++ more) = (if state = .element then [0x2C] else []) ++
          layoutText more ∧
        layoutKinds (separator ++ more) =
          (if state = .element then [Kind.valueSeparator] else []) ++ layoutKinds more := by
    rw [Cj.layoutText_append, Cj.layoutKinds_append, htext, hkinds]
    exact ⟨rfl, rfl⟩
  cases call with
  | startArray => exact ⟨_, happend [.ofLexeme .beginArray]⟩
  | endArray => exact ⟨[.ofLexeme .endArray], rfl, rfl⟩
  | startObject => exact ⟨_, happend [.ofLexeme .beginObject]⟩
  | endObject => exact ⟨[.ofLexeme .endObject], rfl, rfl⟩
  | addKey key =>
    have hpieces := happend [.ofLexeme (stringLexeme key hclean.1), .ofLexeme .nameSeparator]
    refine ⟨_, ?_, hpieces.2⟩
    rw [hpieces.1]
    simp [Call.bytes, Placed.ofLexeme, stringLexeme, Lexeme.nameSeparator]
  | addNumber num =>
    have hpieces := happend [.ofLexeme (numberLexeme (putDouble num) hclean)]
    refine ⟨_, ?_, hpieces.2⟩
    rw [hpieces.1]
    simp [Call.bytes, Placed.ofLexeme, numberLexeme]
  | addString str =>
    have hpieces := happend [.ofLexeme (stringLexeme str hclean.1)]
    refine ⟨_, ?_, hpieces.2⟩
    rw [hpieces.1]
    simp [Call.bytes, Placed.ofLexeme, stringLexeme]

/-! ## The octets are UTF-8 -/

theorem validUtf8_append {xs ys : List UInt8} (hxs : ValidUtf8 xs) (hys : ValidUtf8 ys) :
    ValidUtf8 (xs ++ ys) := by
  obtain ⟨cs, rfl⟩ := hxs
  obtain ⟨ds, rfl⟩ := hys
  exact ⟨cs ++ ds, flatMap_append.symm⟩

variable {l : List UInt8}

theorem validUtf8_of_ascii (h : ∀ b ∈ l, b.toNat < 0x80) : ValidUtf8 l := by
  induction l with
  | nil => exact ⟨[], rfl⟩
  | cons b l ih =>
    have hb := h b mem_cons_self
    have hvalid : b.toUInt32.isValidChar := by
      left
      rw [UInt8.toNat_toUInt32]
      omega
    have hchar : String.utf8EncodeChar ⟨b.toUInt32, hvalid⟩ = [b] := by
      have hval : (⟨b.toUInt32, hvalid⟩ : Char).toNat = b.toNat := UInt8.toNat_toUInt32 b
      rw [Cj.encode_eq, hval, if_pos (by omega)]
      simp
    obtain ⟨cs, hcs⟩ := ih fun x hx => h x (mem_cons_of_mem b hx)
    refine ⟨⟨b.toUInt32, hvalid⟩ :: cs, ?_⟩
    rw [flatMap_cons, hchar, ← hcs]
    rfl

theorem digits_ascii (h : Digits l) : ∀ b ∈ l, b.toNat < 0x80 := by
  intro b hb
  have hdigit := h b hb
  simp only [isDigit, Bool.and_eq_true, decide_eq_true_eq] at hdigit
  have hle : b.toNat ≤ 0x39 := hdigit.2
  omega

theorem number_ascii (h : Number l) : ∀ b ∈ l, b.toNat < 0x80 := by
  obtain ⟨minus, int, frac, exp, rfl, hminus, hint, hfrac, hexp⟩ := h
  intro b hb
  simp only [mem_append] at hb
  rcases hb with hb | hb | hb | hb
  · rcases hminus with rfl | rfl
    · exact absurd hb not_mem_nil
    · rw [mem_singleton.mp hb]
      decide
  · rcases hint with rfl | ⟨d, ds, rfl, hd, -, hds⟩
    · rw [mem_singleton.mp hb]
      decide
    · apply digits_ascii (l := d :: ds) ?_ b hb
      intro x hx
      rcases mem_cons.mp hx with rfl | hx
      · exact hd
      · exact hds x hx
  · rcases hfrac with rfl | ⟨ds, rfl, -, hds⟩
    · exact absurd hb not_mem_nil
    · rcases mem_cons.mp hb with rfl | hb
      · decide
      · exact digits_ascii hds b hb
  · rcases hexp with rfl | ⟨e, sign, ds, rfl, he, hsign, -, hds⟩
    · exact absurd hb not_mem_nil
    · rcases mem_cons.mp hb with rfl | hb
      · rcases he with rfl | rfl <;> decide
      · rcases mem_append.mp hb with hb | hb
        · rcases hsign with rfl | rfl | rfl
          · exact absurd hb not_mem_nil
          · rw [mem_singleton.mp hb]
            decide
          · rw [mem_singleton.mp hb]
            decide
        · exact digits_ascii hds b hb

theorem quoted_utf8 {str : List UInt8} (h : ValidUtf8 str) : ValidUtf8 (quoted str) := by
  have hquote : ValidUtf8 [0x22] := validUtf8_of_ascii (by simp)
  exact validUtf8_append hquote (validUtf8_append h hquote)

theorem bytes_utf8 (hclean : call.Clean putDouble) (state : JsonBuilderState) :
    ValidUtf8 (call.bytes putDouble state) := by
  have hseparator : ValidUtf8 (if state = .element then [0x2C] else []) := by
    apply validUtf8_of_ascii
    split <;> simp
  cases call with
  | startArray | startObject =>
    exact validUtf8_append hseparator (validUtf8_of_ascii (by simp))
  | endArray | endObject => exact validUtf8_of_ascii (by simp [Call.bytes])
  | addKey key =>
    exact validUtf8_append (validUtf8_append hseparator (quoted_utf8 hclean.2))
      (validUtf8_of_ascii (by simp))
  | addNumber num =>
    exact validUtf8_append hseparator (validUtf8_of_ascii (number_ascii hclean))
  | addString str => exact validUtf8_append hseparator (quoted_utf8 hclean.2)

/-! ## A whole sequence of calls -/

structure Tracks (calls : List (Call D)) (b : JsonBuilder) : Prop where
  coherent : Coherent b
  stack : b.stack = openFrames calls
  initial : b.state = .initial ↔ calls = []
  key : b.state = .key ↔ behindKey calls = true
  utf8 : ValidUtf8 b.text
  layout : ∃ pieces, b.text = layoutText pieces ∧ Separated (layoutKinds pieces) ∧
    ((layoutKinds pieces).getLast? = some .primitive → b.state = .element) ∧
    (AllPlaced calls → Config.run .start (layoutKinds pieces) = some b.config) ∧
    (¬ AllPlaced calls → Config.run .start (layoutKinds pieces) = none)

theorem tracks_nil : Tracks ([] : List (Call D)) {} where
  coherent := by constructor <;> simp
  stack := rfl
  initial := by simp
  key := by simp [behindKey]
  utf8 := ⟨[], rfl⟩
  layout := by
    refine ⟨[], rfl, ?_, ?_, fun _ => rfl, fun hno => ?_⟩
    · intro front back heq
      exact absurd heq.symm (by simp)
    · intro hlast
      exact absurd hlast (by simp)
    · exact absurd (fun front call back heq => absurd heq.symm (by simp)) hno

variable {calls : List (Call D)}

theorem Tracks.misplaced_eq (h : Tracks calls b) (call : Call D) :
    misplacedIn b call = misplaced calls call := by
  have hkey : decide (b.state = .key) = behindKey calls := by
    rw [Bool.eq_iff_iff, decide_eq_true_eq]
    exact h.key
  have hinitial : decide (b.state ≠ .initial) = !calls.isEmpty := by
    rw [Bool.eq_iff_iff, decide_eq_true_eq, Bool.not_eq_true', ← Bool.not_eq_true, List.isEmpty_iff]
    exact not_congr h.initial
  have hnot : decide (b.state ≠ .key) = !behindKey calls := by
    rw [← hkey, decide_not]
  cases call with
  | startArray | startObject =>
    simp only [misplacedIn, misplaced, ← h.stack]
    split
    · exact hinitial
    · exact hnot
    · rfl
  | endObject => exact hkey
  | _ => rfl

theorem separated_kinds {ks : List Kind} {state : JsonBuilderState} (h : Separated ks)
    (hlast : ks.getLast? = some .primitive → state = .element) (call : Call D) :
    Separated (ks ++ call.kinds state) := by
  have hfirst (k : Kind) :
      Separated (ks ++ ((if state = .element then [Kind.valueSeparator] else []) ++ [k])) := by
    by_cases hstate : state = .element
    · rw [if_pos hstate, singleton_append, append_cons]
      apply (h.concat fun habsurd => absurd habsurd (by decide)).concat
      intro _
      rw [List.getLast?_concat]
      decide
    · rw [if_neg hstate, nil_append]
      exact h.concat fun _ hprimitive => hstate (hlast hprimitive)
  cases call with
  | endArray | endObject => exact h.concat fun habsurd => absurd habsurd (by decide)
  | addKey key =>
    have hname := (hfirst .string).concat (k := .nameSeparator)
      fun habsurd => absurd habsurd (by decide)
    simpa [Call.kinds] using hname
  | startArray | startObject | addNumber num | addString str => exact hfirst _

/-- **One step**: a clean call that raises no error keeps the builder on track. -/
theorem Tracks.step (h : Tracks calls b) (hclean : call.Clean putDouble)
    (herr : (step putDouble b call).err = 0) :
    Tracks (calls ++ [call]) (JsonBuilder.step putDouble b call) := by
  have hstepped := stepped putDouble herr
  obtain ⟨pieces, htext, hseparated, hlast, hplaced, hmisplaced⟩ := h.layout
  obtain ⟨more, hmore, hkinds⟩ := exists_pieces putDouble hclean b.state
  have hstop := run_kinds putDouble h.coherent hstepped
  rw [h.misplaced_eq] at hstop
  have hnext : (JsonBuilder.step putDouble b call).state = call.nextState := hstepped.state
  refine ⟨coherent_step putDouble hstepped, ?_, ?_, ?_, ?_, pieces ++ more, ?_, ?_, ?_, ?_, ?_⟩
  · rw [hstepped.stack, h.stack, openFrames_concat]
  · rw [hnext]
    cases call <;> simp [Call.nextState]
  · rw [hnext]
    cases call <;> simp [Call.nextState, behindKey, Call.isKey]
  · rw [hstepped.text]
    exact validUtf8_append h.utf8 (bytes_utf8 putDouble hclean b.state)
  · rw [hstepped.text, htext, Cj.layoutText_append, hmore]
  · rw [Cj.layoutKinds_append, hkinds]
    exact separated_kinds hseparated hlast call
  · rw [Cj.layoutKinds_append, hkinds, hnext]
    cases call <;> simp [Call.kinds, Call.nextState]
  · intro hall
    obtain ⟨hbefore, hlastPlaced⟩ := (allPlaced_concat calls call).mp hall
    rw [Cj.layoutKinds_append, hkinds, Config.run_append (hplaced hbefore), hstop, hlastPlaced]
    rfl
  · intro hno
    rw [Cj.layoutKinds_append, hkinds]
    by_cases hbefore : AllPlaced calls
    · have hthis : misplaced calls call = true := by
        rw [← Bool.not_eq_false]
        exact fun hfalse => hno ((allPlaced_concat calls call).mpr ⟨hbefore, hfalse⟩)
      rw [Config.run_append (hplaced hbefore), hstop, hthis]
      rfl
    · -- the recognizer had stopped before
      cases hrun : Config.run .start (layoutKinds pieces ++ call.kinds b.state) with
      | none => rfl
      | some c =>
        obtain ⟨c₁, hfront, -⟩ := Config.run_append_eq_some hrun
        rw [hmisplaced hbefore] at hfront
        exact absurd hfront.symm (Option.some_ne_none c₁)

theorem err_of_step (h : (step putDouble b call).err = 0) : b.err = 0 :=
  (stepped putDouble h).err

theorem tracks_build (hclean : ∀ call ∈ calls, call.Clean putDouble)
    (herr : (build putDouble calls).err = 0) : Tracks calls (build putDouble calls) := by
  induction calls using List.reverseRecOn with
  | nil => exact tracks_nil
  | append_singleton calls call ih =>
    unfold build at herr ⊢
    rw [Transition.run_concat] at herr ⊢
    have hbefore := ih (fun c hc => hclean c (mem_append_left _ hc))
      (err_of_step putDouble herr)
    exact hbefore.step putDouble (hclean call (by simp)) herr

theorem Tracks.jsonText_text (h : Tracks calls b) (hstack : b.stack = []) :
    JsonText b.text ↔ WellPlaced calls := by
  obtain ⟨pieces, htext, hseparated, -, hplaced, hmisplaced⟩ := h.layout
  have hlayout : JsonText b.text ↔ Derives .value (layoutKinds pieces) := by
    constructor
    · rintro ⟨-, pieces', ⟨trailing, hws, heq⟩, hderives⟩
      rw [layoutKinds_unique hseparated hderives.separated (forall_mem_nil _) hws
        (by rw [← htext, heq, append_nil])]
      exact hderives
    · intro hderives
      exact ⟨h.utf8, pieces, ⟨[], by simp, by rw [htext, append_nil]⟩, hderives⟩
  rw [hlayout, ← Config.recognizes_iff]
  constructor
  · intro hrun
    have hall : AllPlaced calls := by
      by_contra hno
      rw [hmisplaced hno] at hrun
      exact absurd hrun.symm (Option.some_ne_none _)
    refine ⟨fun hnil => ?_, hall⟩
    -- without a call the recognizer is still where it starts
    rw [hplaced hall, config, h.initial.mpr hnil] at hrun
    have hphase := congrArg Config.phase (Option.some.inj hrun)
    exact absurd hphase (by simp [Config.done])
  · rintro ⟨hne, hall⟩
    have hstate : b.state = .element := by
      cases hs : b.state with
      | initial => exact absurd (h.initial.mp hs) hne
      | empty => exact absurd hstack (h.coherent.empty hs)
      | key =>
        obtain ⟨outer, hobject⟩ := h.coherent.key hs
        rw [hstack] at hobject
        exact absurd hobject.symm (cons_ne_nil _ _)
      | element => rfl
    rw [hplaced hall, config, hstack, hstate]
    rfl

/-- **When the builder writes JSON.**  Clean calls that raise no error and close all
they open have written one JSON text exactly if there is a call and none is
misplaced. -/
theorem jsonText_iff (calls : List (Call D)) (hclean : ∀ call ∈ calls, call.Clean putDouble)
    (herr : (build putDouble calls).err = 0) (hnesting : (build putDouble calls).nesting = 0) :
    JsonText (build putDouble calls).text ↔ WellPlaced calls :=
  (tracks_build putDouble hclean herr).jsonText_text (length_eq_zero_iff.mp hnesting)

/-- One digit; enough of `U_sstream_put_double` to run the builder. -/
def putDigit (n : Fin 10) : List UInt8 := [0x30 + UInt8.ofNat n.val]

/-- `[{"a":1},"b"]` -/
def sampleCalls : List (Call (Fin 10)) :=
  [.startArray, .startObject, .addKey [0x61], .addNumber 1, .endObject, .addString [0x62],
    .endArray]

theorem sampleCalls_clean : ∀ call ∈ sampleCalls, call.Clean putDigit := by
  have hchars (b : UInt8) (h : 0x20 ≤ b ∧ b ≠ 0x22 ∧ b ≠ 0x5C) : Chars [b] :=
    .unescaped h.1 h.2.1 h.2.2 .nil
  have hone : Number (putDigit 1) :=
    ⟨[], [0x31], [], [], rfl, .inl rfl, .inr ⟨0x31, [], rfl, rfl, by decide, by simp [Digits]⟩,
      .inl rfl, .inl rfl⟩
  intro call hcall
  simp only [sampleCalls, mem_cons, not_mem_nil, or_false] at hcall
  rcases hcall with rfl | rfl | rfl | rfl | rfl | rfl | rfl
  · trivial
  · trivial
  · exact ⟨hchars 0x61 (by decide), validUtf8_of_ascii (by simp)⟩
  · exact hone
  · trivial
  · exact ⟨hchars 0x62 (by decide), validUtf8_of_ascii (by simp)⟩
  · trivial

theorem jsonText_iff_sampleCalls :
    JsonText (build putDigit sampleCalls).text ↔ WellPlaced sampleCalls :=
  jsonText_iff putDigit sampleCalls sampleCalls_clean rfl rfl

/-- An array as the member of an object, without a key: `{[]}`. -/
def keylessArray : List (Call (Fin 10)) := [.startObject, .startArray, .endArray, .endObject]

/-- The builder raises no error over a container without a key, and its text is none. -/
theorem keylessArray_no_json :
    (build putDigit keylessArray).err = 0 ∧ (build putDigit keylessArray).nesting = 0 ∧
      (build putDigit keylessArray).text = [0x7B, 0x5B, 0x5D, 0x7D] ∧
      ¬ JsonText (build putDigit keylessArray).text := by
  have hclean : ∀ call ∈ keylessArray, call.Clean putDigit := by
    intro call hcall
    simp only [keylessArray, mem_cons, not_mem_nil, or_false] at hcall
    rcases hcall with rfl | rfl | rfl | rfl <;> trivial
  refine ⟨rfl, rfl, rfl, fun hjson => ?_⟩
  obtain ⟨-, hall⟩ := ((tracks_build putDigit hclean rfl).jsonText_text rfl).mp hjson
  exact absurd (hall [.startObject] .startArray [.endArray, .endObject] rfl) (by decide)

end JsonBuilder
end DeconzRest

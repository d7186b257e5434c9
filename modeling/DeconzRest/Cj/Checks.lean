import DeconzRest.Cj.Lenient
import DeconzRest.Cj.Lexeme

/-!
# The checks of the parser

`Tracks` ties the counters and the parent chain of `cj_parse` to the kinds of the
tokens read so far.  Under it the body of the loop keeps a token exactly when the
token `Follows` the ones before it (`check_spec`), and the checks behind the loop
pass exactly when the whole sequence is `Lenient` (`finalStatus_spec`).

No check reads an entry of the token array that is not allocated: the parent chain
has as many links as brackets are open, and a closing bracket that passes the depth
check has an open one before it.
-/

namespace DeconzRest
namespace Cj

open Rfc8259 List Option

def frameType : Frame → TokenType
  | .array => .arrayBeg
  | .object => .objectBeg

/-- From `parent` on, the parent indices lead through the tokens of the open
brackets, innermost first, and end in the invalid index. -/
def ParentChain (tokens : List Token) : List Frame → Option Nat → Prop
  | [], parent => parent = none
  | frame :: stack, parent => ∃ i t, parent = some i ∧ tokens[i]? = some t ∧
      t.type = frameType frame ∧ ParentChain tokens stack t.parent

/-- The local variables after tokens of the kinds `ks`. -/
structure Tracks (s : Locals) (ks : List Kind) : Prop where
  types : s.tokens.map Token.type = ks.map kindType
  objects : s.objDepth = ks.count .beginObject - ks.count .endObject
  arrays : s.arrDepth = ks.count .beginArray - ks.count .endArray
  colons : s.ncolons = ks.count .nameSeparator
  commas : s.ncommas = objectCommas ks
  structures : s.nstructures = ks.count .beginArray + ks.count .beginObject
  parents : ParentChain s.tokens (openStack ks) s.tokParent

theorem tracks_start : Tracks {} [] :=
  ⟨rfl, rfl, rfl, rfl, rfl, rfl, rfl⟩

theorem ParentChain.append {tokens : List Token} {stack : List Frame} {parent : Option Nat}
    (h : ParentChain tokens stack parent) (more : List Token) :
    ParentChain (tokens ++ more) stack parent := by
  induction stack generalizing parent with
  | nil => exact h
  | cons frame stack ih =>
    obtain ⟨i, t, hparent, ht, htype, hrest⟩ := h
    refine ⟨i, t, hparent, ?_, htype, ih hrest⟩
    have hi : i < tokens.length := (List.getElem?_eq_some_iff.mp ht).1
    rw [List.getElem?_append_left hi]
    exact ht

theorem ParentChain.eq_none_iff {tokens : List Token} {stack : List Frame}
    {parent : Option Nat} (h : ParentChain tokens stack parent) : parent = none ↔ stack = [] := by
  cases stack with
  | nil => exact ⟨fun _ => rfl, fun _ => h⟩
  | cons frame stack =>
    obtain ⟨i, t, hparent, -⟩ := h
    rw [hparent]
    exact ⟨fun habsurd => absurd habsurd (some_ne_none i),
      fun habsurd => absurd habsurd (cons_ne_nil _ _)⟩

/-- The last token of a turn has the kind `k` and stands behind tokens of the kinds
`ks`. -/
structure Behind (t : Turn) (ks : List Kind) (k : Kind) : Prop where
  types : t.s.tokens.map Token.type = ks.map kindType
  type : t.tok.type = kindType k
  ok : t.status = .ok

namespace Behind

variable {t : Turn} {ks : List Kind} {k : Kind}

theorem index_eq (h : Behind t ks k) : t.index = ks.length := by
  have hlength := congrArg List.length h.types
  rw [length_map, length_map] at hlength
  exact hlength

theorem before_eq {front : List Kind} {a : Kind} (h : Behind t (front ++ [a]) k) :
    ∃ b, t.before = some b ∧ b.type = kindType a := by
  have hindex : t.index = front.length + 1 := by
    rw [h.index_eq, List.length_append, length_singleton]
  have hlt : front.length < t.s.tokens.length := by
    have hlength : t.s.tokens.length = front.length + 1 := hindex
    omega
  have hread : t.before = some t.s.tokens[front.length] := by
    have hunfold : t.before = t.tokenAt front.length := by
      unfold Turn.before
      rw [hindex]
    rw [hunfold]
    unfold Turn.tokenAt
    rw [List.getElem?_append_left hlt, List.getElem?_eq_getElem hlt]
  have htype : (t.s.tokens.map Token.type)[front.length]? =
      ((front ++ [a]).map kindType)[front.length]? := by
    rw [h.types]
  rw [List.getElem?_map, List.getElem?_map, List.getElem?_eq_getElem hlt,
    List.getElem?_concat_length] at htype
  exact ⟨_, hread, some.inj htype⟩

theorem parent_eq {t : Turn} {frame : Frame} {stack : List Frame}
    (hparents : ParentChain t.s.tokens (frame :: stack) t.tok.parent) :
    ∃ p, t.tokenRef t.tok.parent = some p ∧ p.type = frameType frame ∧
      ParentChain t.s.tokens stack p.parent := by
  obtain ⟨i, p, hparent, hp, htype, hrest⟩ := hparents
  refine ⟨p, ?_, htype, hrest⟩
  have hi : i < t.s.tokens.length := (List.getElem?_eq_some_iff.mp hp).1
  rw [hparent]
  show (t.s.tokens ++ [t.tok])[i]? = some p
  rw [List.getElem?_append_left hi]
  exact hp

end Behind

/-- The turn `good` where the condition holds, and a turn with an error status and
the same tokens before where it does not; no read out of bounds in either case. -/
def Outcome (result : Option Turn) (cond : Prop) (good : Turn) : Prop :=
  ∃ t, result = some t ∧
    ((cond ∧ t = good) ∨ (¬ cond ∧ t.status ≠ .ok ∧ t.s.tokens = good.s.tokens))

theorem Outcome.pass {cond : Prop} (good : Turn) (h : cond) : Outcome (some good) cond good :=
  ⟨good, rfl, .inl ⟨h, rfl⟩⟩

theorem Outcome.fail {cond : Prop} {t good : Turn} (h : ¬ cond) (hstatus : t.status ≠ .ok)
    (htokens : t.s.tokens = good.s.tokens) : Outcome (some t) cond good :=
  ⟨t, rfl, .inr ⟨h, hstatus, htokens⟩⟩

theorem Outcome.andThen {result : Option Turn} {cond cond' : Prop} {good good' : Turn}
    {f : Turn → Option Turn} (h : Outcome result cond good) (hok : good.status = .ok)
    (hf : Outcome (f good) cond' good') (htokens : good.s.tokens = good'.s.tokens) :
    Outcome (result.bind fun t => t.andThen f) (cond ∧ cond') good' := by
  obtain ⟨t, rfl, ⟨hcond, rfl⟩ | ⟨hcond, hstatus, ht⟩⟩ := h
  · have hnext : ((some t).bind fun t => t.andThen f) = f t := by
      simp only [bind_some, Turn.andThen, hok, if_true]
    rw [hnext]
    obtain ⟨t', ht', ⟨hcond', rfl⟩ | ⟨hcond', hbad⟩⟩ := hf
    · exact ⟨t', ht', .inl ⟨⟨hcond, hcond'⟩, rfl⟩⟩
    · exact ⟨t', ht', .inr ⟨fun h => hcond' h.2, hbad⟩⟩
  · refine ⟨t, ?_, .inr ⟨fun h => hcond h.1, hstatus, ht.trans htokens⟩⟩
    simp only [bind_some, Turn.andThen, if_neg hstatus]

theorem Outcome.congr {result : Option Turn} {cond cond' : Prop} {good : Turn}
    (h : Outcome result cond good) (hiff : cond ↔ cond') : Outcome result cond' good := by
  obtain ⟨t, ht, ⟨hcond, hgood⟩ | ⟨hcond, hbad⟩⟩ := h
  · exact ⟨t, ht, .inl ⟨hiff.mp hcond, hgood⟩⟩
  · exact ⟨t, ht, .inr ⟨fun h => hcond (hiff.mpr h), hbad⟩⟩

/-- The pairs of neighbours that the last check lets through. -/
def mayNeighbour (a b : Kind) : Bool :=
  match a with
  | .nameSeparator | .valueSeparator => isStart b
  | .primitive => isClose b || b = .valueSeparator
  | .string => b = .nameSeparator || (isClose b || b = .valueSeparator)
  | _ => true

theorem startsValue_eq (k : Kind) : Turn.startsValue (kindType k) = isStart k := by
  cases k <;> rfl

theorem endsValue_eq (k : Kind) :
    Turn.endsValue (kindType k) = (isClose k || k = .valueSeparator) := by
  cases k <;> rfl

theorem kindType_eq_nameSep_iff (k : Kind) : kindType k = .nameSep ↔ k = .nameSeparator := by
  cases k <;> decide

theorem neighbours_spec {t : Turn} {ks : List Kind} {k : Kind} (h : Behind t ks k) :
    Outcome t.neighbours (∀ a, ks.getLast? = some a → mayNeighbour a k = true) t := by
  rcases eq_nil_or_concat ks with rfl | ⟨front, a, rfl⟩
  · have hindex : t.index < 1 := by
      rw [h.index_eq]
      exact Nat.one_pos
    unfold Turn.neighbours
    rw [if_pos hindex]
    exact .pass t (fun a ha => absurd ha (by simp))
  · rw [concat_eq_append] at h ⊢
    obtain ⟨b, hb, hbtype⟩ := h.before_eq
    have hindex : ¬ t.index < 1 := by
      rw [h.index_eq, List.length_append, length_singleton]
      omega
    have hcond : (∀ x, (front ++ [a]).getLast? = some x → mayNeighbour x k = true) ↔
        mayNeighbour a k = true := by
      rw [List.getLast?_concat]
      constructor
      · intro hall
        exact hall a rfl
      · intro ha x hx
        rw [← some.inj hx]
        exact ha
    refine Outcome.congr ?_ hcond.symm
    unfold Turn.neighbours
    rw [if_neg hindex, hb]
    simp only [bind_eq_bind, bind_some, hbtype, h.type, startsValue_eq, endsValue_eq,
      kindType_eq_nameSep_iff]
    cases a with
    | nameSeparator | valueSeparator =>
      by_cases hstart : isStart k = true
      · simp only [kindType, hstart]
        exact .pass t hstart
      · simp only [kindType, hstart]
        exact .fail hstart (by simp [Turn.stop]) rfl
    | primitive =>
      by_cases hend : (isClose k || k = .valueSeparator) = true
      · simp only [kindType, hend]
        exact .pass t hend
      · simp only [kindType, hend]
        exact .fail hend (by simp [Turn.stop]) rfl
    | string =>
      by_cases hend : k = .nameSeparator ∨ (isClose k || k = .valueSeparator) = true
      · simp only [kindType, hend]
        exact .pass t (by simpa [mayNeighbour] using hend)
      · simp only [kindType, hend]
        exact .fail (by simpa [mayNeighbour] using hend) (by simp [Turn.stop]) rfl
    | _ =>
      simp only [kindType]
      exact .pass t rfl

/-! ## Colons and commas -/

theorem nameSep_skip {t : Turn} {ks : List Kind} {k : Kind} (h : Behind t ks k)
    (hk : k ≠ .nameSeparator) {P : Prop} : Outcome t.nameSep (k = .nameSeparator → P) t := by
  have htype : t.tok.type ≠ .nameSep := by
    rw [h.type]
    exact fun heq => hk ((kindType_eq_nameSep_iff k).mp heq)
  unfold Turn.nameSep
  rw [if_pos htype]
  exact .pass t fun habsurd => absurd habsurd hk

theorem kindType_eq_itemSep_iff (k : Kind) : kindType k = .itemSep ↔ k = .valueSeparator := by
  cases k <;> decide

theorem itemSep_skip {t : Turn} {ks : List Kind} {k : Kind} (h : Behind t ks k)
    (hk : k ≠ .valueSeparator) {P : Prop} : Outcome t.itemSep (k = .valueSeparator → P) t := by
  have htype : t.tok.type ≠ .itemSep := by
    rw [h.type]
    exact fun heq => hk ((kindType_eq_itemSep_iff k).mp heq)
  unfold Turn.itemSep
  rw [if_pos htype]
  exact .pass t fun habsurd => absurd habsurd hk

/-- A colon needs two tokens before it, the last of them a string, and a brace as the
innermost open bracket. -/
theorem nameSep_spec {t : Turn} {ks : List Kind} (h : Behind t ks .nameSeparator)
    (hparents : ParentChain t.s.tokens (openStack ks) t.tok.parent) :
    Outcome t.nameSep
      (2 ≤ ks.length ∧ ks.getLast? = some .string ∧ (openStack ks).head? = some .object)
      { t with s := { t.s with ncolons := t.s.ncolons + 1 } } := by
  have htype : ¬ t.tok.type ≠ .nameSep := not_not_intro h.type
  unfold Turn.nameSep
  rw [if_neg htype]
  by_cases hearly : t.index < 2 ∨ t.tok.parent = none
  · rw [if_pos hearly]
    refine .fail ?_ (by simp [Turn.stop]) rfl
    rintro ⟨hlength, -, hobject⟩
    rw [h.index_eq, hparents.eq_none_iff] at hearly
    rcases hearly with hshort | hempty
    · omega
    · rw [hempty] at hobject
      exact absurd hobject (by simp)
  · rw [if_neg hearly]
    rw [h.index_eq, hparents.eq_none_iff, not_or] at hearly
    obtain ⟨hlength, hopen⟩ := hearly
    obtain ⟨frame, stack, hstack⟩ := exists_cons_of_ne_nil hopen
    rcases eq_nil_or_concat ks with rfl | ⟨front, a, rfl⟩
    · exact absurd rfl hopen
    rw [concat_eq_append] at *
    obtain ⟨b, hb, hbtype⟩ := h.before_eq
    rw [hstack] at hparents
    obtain ⟨p, hp, hptype, -⟩ := Behind.parent_eq hparents
    rw [hb, hp, List.getLast?_concat, hstack]
    simp only [bind_eq_bind, bind_some, hbtype, hptype]
    by_cases hstring : a = .string
    · by_cases hobject : frame = .object
      · subst hstring hobject
        rw [if_neg (by decide), if_neg (by decide)]
        exact .pass _ ⟨by omega, rfl, rfl⟩
      · have hframe : frameType frame ≠ .objectBeg := by
          cases frame with
          | array => decide
          | object => exact absurd rfl hobject
        rw [hstring, if_neg (by decide), if_pos hframe]
        refine .fail ?_ (by simp [Turn.stop]) rfl
        rintro ⟨-, -, hhead⟩
        exact hobject (some.inj hhead)
    · have hkind : kindType a ≠ .string := fun heq => hstring (kindType_injective heq)
      rw [if_pos hkind]
      refine .fail ?_ (by simp [Turn.stop]) rfl
      rintro ⟨-, hlast, -⟩
      exact hstring (some.inj hlast)

/-- A comma needs two tokens before it, the last of them no opening bracket, and an
open bracket. -/
theorem itemSep_spec {t : Turn} {ks : List Kind} (h : Behind t ks .valueSeparator)
    (hparents : ParentChain t.s.tokens (openStack ks) t.tok.parent) :
    Outcome t.itemSep
      (2 ≤ ks.length ∧ openStack ks ≠ [] ∧ ∀ a, ks.getLast? = some a → a ≠ .beginObject ∧ a ≠
        .beginArray)
      { t with s := { t.s with
          ncommas := t.s.ncommas + objectComma (openStack ks) .valueSeparator } } := by
  have htype : ¬ t.tok.type ≠ .itemSep := not_not_intro h.type
  unfold Turn.itemSep
  rw [if_neg htype]
  by_cases hearly : t.index < 2 ∨ t.tok.parent = none
  · rw [if_pos hearly]
    refine .fail ?_ (by simp [Turn.stop]) rfl
    rintro ⟨hlength, hopen, -⟩
    rw [h.index_eq, hparents.eq_none_iff] at hearly
    rcases hearly with hshort | hempty
    · omega
    · exact hopen hempty
  · rw [if_neg hearly]
    rw [h.index_eq, hparents.eq_none_iff, not_or] at hearly
    obtain ⟨hlength, hopen⟩ := hearly
    obtain ⟨frame, stack, hstack⟩ := exists_cons_of_ne_nil hopen
    rcases eq_nil_or_concat ks with rfl | ⟨front, a, rfl⟩
    · exact absurd rfl hopen
    rw [concat_eq_append] at *
    obtain ⟨b, hb, hbtype⟩ := h.before_eq
    rw [hstack] at hparents
    obtain ⟨p, hp, hptype, -⟩ := Behind.parent_eq hparents
    rw [hb, hp, List.getLast?_concat, hstack]
    simp only [bind_eq_bind, bind_some, hbtype, hptype]
    by_cases hopening : a = .beginObject ∨ a = .beginArray
    · have hkind : kindType a = .objectBeg ∨ kindType a = .arrayBeg := by
        rcases hopening with rfl | rfl
        · exact .inl rfl
        · exact .inr rfl
      rw [if_pos hkind]
      refine .fail ?_ (by simp [Turn.stop]) rfl
      rintro ⟨-, -, hlast⟩
      obtain ⟨hobject, harray⟩ := hlast a rfl
      exact hopening.elim hobject harray
    · have hkind : ¬ (kindType a = .objectBeg ∨ kindType a = .arrayBeg) := by
        rintro (heq | heq)
        · exact hopening (.inl (kindType_injective heq))
        · exact hopening (.inr (kindType_injective heq))
      have hcond : 2 ≤ (front ++ [a]).length ∧ frame :: stack ≠ [] ∧ ∀ x, some a = some x → x ≠
          .beginObject ∧ x ≠ .beginArray := by
        refine ⟨by omega, cons_ne_nil _ _, fun x hx => ?_⟩
        rw [← some.inj hx]
        exact not_or.mp hopening
      rw [if_neg hkind]
      cases frame with
      | object =>
        rw [if_pos (show frameType .object = .objectBeg from rfl)]
        exact .pass _ hcond
      | array =>
        rw [if_neg (by decide)]
        exact .pass _ hcond

theorem openBracket_spec {t : Turn} {ks : List Kind} {k : Kind} (h : Behind t ks k)
    (htracks : Tracks t.s ks) (hadmissible : Admissible ks) {s : Locals}
    (hs : s.tokens = t.s.tokens) :
    Outcome (some (t.openBracket s)) (ks = [] ∨ openStack ks ≠ [])
      { t with s := { s with nstructures := s.nstructures + 1, tokParent := some t.index } } := by
  have hdepths : openStack ks = [] ↔ t.s.arrDepth = 0 ∧ t.s.objDepth = 0 := by
    rw [openStack_eq_nil_iff hadmissible, htracks.arrays, htracks.objects]
    omega
  have hindex : 1 < t.index + 1 ↔ ks ≠ [] := by
    rw [h.index_eq, ← length_pos_iff]
    omega
  unfold Turn.openBracket
  by_cases htop : 1 < t.index + 1 ∧ t.s.arrDepth = 0 ∧ t.s.objDepth = 0
  · rw [if_pos htop]
    refine .fail ?_ (by simp [Turn.stop]) hs.symm
    rw [← hdepths, hindex] at htop
    rintro (hempty | hopen)
    · exact htop.1 hempty
    · exact hopen htop.2
  · rw [if_neg htop]
    refine .pass _ ?_
    rw [← hdepths, hindex] at htop
    by_cases hempty : ks = []
    · exact .inl hempty
    · exact .inr fun hopen => htop ⟨hempty, hopen⟩

/-- A closing bracket that passes the depth check has an open bracket before it,
whose token is its parent. -/
theorem closeBracket_spec {t : Turn} {ks : List Kind} {k : Kind} (h : Behind t ks k)
    (hparents : ParentChain t.s.tokens (openStack ks) t.tok.parent) {s : Locals} {depth : Int}
    (hdepth : 0 ≤ depth → openStack ks ≠ []) :
    ∃ parent, (0 ≤ depth → ParentChain t.s.tokens (openStack ks).tail parent) ∧
      Outcome (t.closeBracket s depth) (0 ≤ depth)
        { t with s := { s with tokParent := parent }, tok := { t.tok with parent := parent } } := by
  unfold Turn.closeBracket
  by_cases hclose : 0 ≤ depth
  · have hopen := hdepth hclose
    obtain ⟨frame, stack, hstack⟩ := exists_cons_of_ne_nil hopen
    have hindex : 1 ≤ t.index := by
      rw [h.index_eq]
      cases ks with
      | nil => exact absurd rfl hopen
      | cons a ks =>
        rw [length_cons]
        omega
    rw [hstack] at hparents ⊢
    obtain ⟨p, hp, -, hrest⟩ := Behind.parent_eq hparents
    rw [if_neg (by omega), hp]
    exact ⟨p.parent, fun _ => hrest, .pass _ hclose⟩
  · rw [if_pos (by omega)]
    exact ⟨none, fun habsurd => absurd habsurd hclose, .fail hclose (by simp) rfl⟩

/-! ## All checks -/

theorem follows_iff {ks : List Kind} {k : Kind} : Follows ks k ↔
    ((((k = .beginArray ∨ k = .beginObject → ks = [] ∨ openStack ks ≠ []) ∧
        (k = .endArray → ks.count .endArray < ks.count .beginArray) ∧
        (k = .endObject → ks.count .endObject < ks.count .beginObject)) ∧
      (k = .nameSeparator → 2 ≤ ks.length ∧ ks.getLast? = some .string ∧ (openStack ks).head? =
        some .object)) ∧
      (k = .valueSeparator → 2 ≤ ks.length ∧ openStack ks ≠ [] ∧ ∀ a, ks.getLast? = some a → a ≠
        .beginObject ∧ a ≠ .beginArray)) ∧
      ∀ a, ks.getLast? = some a → mayNeighbour a k = true := by
  constructor
  · intro h
    refine ⟨⟨⟨⟨h.opens, h.endsArray, h.endsObject⟩, ?_⟩, ?_⟩, ?_⟩
    · rintro rfl
      have hobject := h.colon rfl
      rcases eq_nil_or_concat ks with rfl | ⟨front, a, rfl⟩
      · exact absurd hobject (by simp)
      · rw [concat_eq_append] at *
        have hadjacent := h.adjacent a List.getLast?_concat
        have ha : a = .string := by
          cases a with
          | string => rfl
          | _ => exact absurd hadjacent (by decide)
        subst ha
        refine ⟨?_, List.getLast?_concat, hobject⟩
        cases front with
        | nil => exact absurd hobject (by decide)
        | cons b front => simp
    · rintro rfl
      have hopen := h.comma rfl
      rcases eq_nil_or_concat ks with rfl | ⟨front, a, rfl⟩
      · exact absurd rfl hopen
      · rw [concat_eq_append] at *
        have hadjacent := h.adjacent a List.getLast?_concat
        refine ⟨?_, hopen, ?_⟩
        · cases front with
          | nil => cases a <;> simp [openStack, pushPop, mayFollow] at hopen hadjacent
          | cons b front => simp
        · intro b hb
          rw [List.getLast?_concat] at hb
          rw [← some.inj hb]
          constructor
          · rintro rfl
            exact absurd hadjacent (by decide)
          · rintro rfl
            exact absurd hadjacent (by decide)
    · intro a ha
      have hadjacent := h.adjacent a ha
      cases a <;> cases k <;> first | rfl | exact absurd hadjacent (by decide)
  · rintro ⟨⟨⟨⟨hopens, harray, hobject⟩, hcolon⟩, hcomma⟩, hneighbour⟩
    refine ⟨hopens, harray, hobject, fun hk => (hcolon hk).2.2, fun hk => (hcomma hk).2.1, ?_⟩
    intro a ha
    have hpair := hneighbour a ha
    by_cases hname : k = .nameSeparator
    · have hlast := (hcolon hname).2.1
      rw [ha] at hlast
      rw [some.inj hlast, hname]
      rfl
    · by_cases hvalue : k = .valueSeparator
      · obtain ⟨hnobject, hnarray⟩ := (hcomma hvalue).2.2 a ha
        subst hvalue
        cases a <;> first | rfl | exact absurd rfl hnobject | exact absurd rfl hnarray |
          exact absurd hpair (by decide)
      · cases a <;> cases k <;> first | rfl | exact absurd rfl hname | exact absurd rfl hvalue |
          exact absurd hpair (by decide)

theorem check_outcome {t g g' g'' : Turn} {c c' c'' : Prop} {ks : List Kind} {k : Kind}
    (hbrackets : Outcome t.brackets c g) (hname : Outcome g.nameSep c' g')
    (hitem : Outcome g'.itemSep c'' g'') (hg : Behind g ks k) (hg' : Behind g' ks k)
    (hg'' : Behind g'' ks k) (htokens : g.s.tokens = g'.s.tokens)
    (htokens' : g'.s.tokens = g''.s.tokens) :
    Outcome t.check (((c ∧ c') ∧ c'') ∧ ∀ a, ks.getLast? = some a → mayNeighbour a k = true)
      g'' := by
  have hcheck : t.check = ((t.brackets.bind fun t => t.andThen Turn.nameSep).bind
      fun t => t.andThen Turn.itemSep).bind fun t => t.andThen Turn.neighbours := by
    simp only [Turn.check, bind_eq_bind, Option.bind_assoc]
  rw [hcheck]
  have hfirst := hbrackets.andThen hg.ok hname htokens
  have hsecond := hfirst.andThen hg'.ok hitem htokens'
  exact hsecond.andThen hg''.ok (neighbours_spec hg'') rfl

theorem Tracks.snoc {s s' : Locals} {tok : Token} {ks : List Kind} {k : Kind} (h : Tracks s ks)
    (htokens : s'.tokens = s.tokens ++ [tok]) (htype : tok.type = kindType k)
    (hobjects : s'.objDepth = s.objDepth + [k].count .beginObject - [k].count .endObject)
    (harrays : s'.arrDepth = s.arrDepth + [k].count .beginArray - [k].count .endArray)
    (hcolons : s'.ncolons = s.ncolons + [k].count .nameSeparator)
    (hcommas : s'.ncommas = s.ncommas + objectComma (openStack ks) k)
    (hstructures : s'.nstructures = s.nstructures +
      ([k].count .beginArray + [k].count .beginObject))
    (hparents : ParentChain s'.tokens (pushPop (openStack ks) k) s'.tokParent) :
    Tracks s' (ks ++ [k]) where
  types := by
    rw [htokens, map_append, map_append, h.types]
    simp [htype]
  objects := by
    rw [hobjects, h.objects, count_append, count_append]
    push_cast
    omega
  arrays := by
    rw [harrays, h.arrays, count_append, count_append]
    push_cast
    omega
  colons := by
    rw [hcolons, h.colons, count_append]
  commas := by
    rw [hcommas, h.commas, objectCommas_concat]
  structures := by
    rw [hstructures, h.structures, count_append, count_append]
    omega
  parents := by
    rw [openStack_concat]
    exact hparents

/-- What is left of a token that passed the checks. -/
structure Kept (s : Locals) (tok : Token) (ks : List Kind) (k : Kind) (t : Turn) : Prop where
  ok : t.status = .ok
  tokens : t.s.tokens = s.tokens
  pos : t.s.pos = s.pos
  token : t.tok = { tok with parent := t.tok.parent }
  tracks : Tracks { t.s with tokens := t.s.tokens ++ [t.tok] } (ks ++ [k])

/-- The checks keep the token `tok` exactly when its kind may follow. -/
def Decided (s : Locals) (tok : Token) (ks : List Kind) (k : Kind) : Prop :=
  ∃ g, (Follows ks k → Kept s tok ks k g) ∧ g.s.tokens = s.tokens ∧
    Outcome (Turn.check { s := s, tok := tok }) (Follows ks k) g

section Decided

variable {s s' : Locals} {tok : Token} {ks : List Kind} {k : Kind}

theorem decided_value (h : Tracks s ks) (htype : tok.type = kindType k)
    (hk : k = .string ∨ k = .primitive) : Decided s tok ks k := by
  have hbehind : Behind { s := s, tok := tok } ks k := ⟨h.types, htype, rfl⟩
  have hbrackets : Turn.brackets { s := s, tok := tok } = some { s := s, tok := tok } := by
    unfold Turn.brackets
    rw [htype]
    rcases hk with rfl | rfl <;> rfl
  refine ⟨{ s := s, tok := tok }, fun _ => ⟨rfl, rfl, rfl, rfl, ?_⟩, rfl, ?_⟩
  · rcases hk with rfl | rfl <;>
      exact h.snoc rfl htype (by simp) (by simp) (by simp) (by simp [objectComma_of_ne])
        (by simp) (h.parents.append _)
  · refine (check_outcome ?_ (nameSep_skip hbehind ?_) (itemSep_skip hbehind ?_) hbehind hbehind
      hbehind rfl rfl).congr follows_iff.symm
    · rw [hbrackets]
      rcases hk with rfl | rfl <;> exact .pass _ ⟨by simp, by simp, by simp⟩
    · rcases hk with rfl | rfl <;> decide
    · rcases hk with rfl | rfl <;> decide

theorem decided_colon (h : Tracks s ks) (htype : tok.type = kindType .nameSeparator)
    (hparent : tok.parent = s.tokParent) : Decided s tok ks .nameSeparator := by
  have hbehind : Behind { s := s, tok := tok } ks .nameSeparator := ⟨h.types, htype, rfl⟩
  have hnext : Behind { s := { s with ncolons := s.ncolons + 1 }, tok := tok } ks
      .nameSeparator := ⟨h.types, htype, rfl⟩
  have hparents : ParentChain s.tokens (openStack ks) tok.parent := by
    rw [hparent]
    exact h.parents
  have hbrackets : Turn.brackets { s := s, tok := tok } = some { s := s, tok := tok } := by
    unfold Turn.brackets
    rw [htype]
    rfl
  refine ⟨{ s := { s with ncolons := s.ncolons + 1 }, tok := tok },
    fun _ => ⟨rfl, rfl, rfl, rfl, ?_⟩, rfl, ?_⟩
  · exact h.snoc rfl htype (by simp) (by simp) (by simp) (by simp [objectComma_of_ne])
      (by simp) (h.parents.append _)
  · refine (check_outcome ?_ ((nameSep_spec hbehind hparents).congr (by simp))
      (itemSep_skip hnext (by decide)) hbehind hnext hnext rfl rfl).congr follows_iff.symm
    rw [hbrackets]
    exact .pass _ ⟨by simp, by simp, by simp⟩

theorem decided_comma (h : Tracks s ks) (htype : tok.type = kindType .valueSeparator)
    (hparent : tok.parent = s.tokParent) : Decided s tok ks .valueSeparator := by
  have hbehind : Behind { s := s, tok := tok } ks .valueSeparator := ⟨h.types, htype, rfl⟩
  have hnext : Behind { s := { s with
      ncommas := s.ncommas + objectComma (openStack ks) .valueSeparator }, tok := tok } ks
      .valueSeparator := ⟨h.types, htype, rfl⟩
  have hparents : ParentChain s.tokens (openStack ks) tok.parent := by
    rw [hparent]
    exact h.parents
  have hbrackets : Turn.brackets { s := s, tok := tok } = some { s := s, tok := tok } := by
    unfold Turn.brackets
    rw [htype]
    rfl
  refine ⟨{ s := { s with
      ncommas := s.ncommas + objectComma (openStack ks) .valueSeparator }, tok := tok },
    fun _ => ⟨rfl, rfl, rfl, rfl, ?_⟩, rfl, ?_⟩
  · exact h.snoc rfl htype (by simp) (by simp) (by simp) rfl (by simp) (h.parents.append _)
  · refine (check_outcome ?_ (nameSep_skip hbehind (by decide))
      ((itemSep_spec hbehind hparents).congr (by simp)) hbehind hbehind hnext rfl rfl).congr
        follows_iff.symm
    rw [hbrackets]
    exact .pass _ ⟨by simp, by simp, by simp⟩

theorem decided_open (h : Tracks s ks) (hadmissible : Admissible ks)
    (htype : tok.type = kindType k) (hparent : tok.parent = s.tokParent)
    (hk : k = .beginArray ∨ k = .beginObject)
    (hs : s' = { s with objDepth := s'.objDepth, arrDepth := s'.arrDepth })
    (hobjects : s'.objDepth = s.objDepth + [k].count .beginObject - [k].count .endObject)
    (harrays : s'.arrDepth = s.arrDepth + [k].count .beginArray - [k].count .endArray)
    (hbrackets : Turn.brackets { s := s, tok := tok } =
      some (Turn.openBracket { s := s, tok := tok } s')) : Decided s tok ks k := by
  have hbehind : Behind { s := s, tok := tok } ks k := ⟨h.types, htype, rfl⟩
  have htokens : s'.tokens = s.tokens := by rw [hs]
  have hnext : Behind { s := { s' with
      nstructures := s'.nstructures + 1, tokParent := some s.tokens.length }, tok := tok } ks k := by
    refine ⟨?_, htype, rfl⟩
    show s'.tokens.map Token.type = ks.map kindType
    rw [htokens]
    exact h.types
  have hparents : ParentChain (s'.tokens ++ [tok]) (pushPop (openStack ks) k)
      (some s.tokens.length) := by
    have hchain : ParentChain (s.tokens ++ [tok]) (openStack ks) tok.parent := by
      rw [hparent]
      exact h.parents.append [tok]
    rw [htokens]
    rcases hk with rfl | rfl
    · exact ⟨_, tok, rfl, List.getElem?_concat_length, htype, hchain⟩
    · exact ⟨_, tok, rfl, List.getElem?_concat_length, htype, hchain⟩
  refine ⟨{ s := { s' with nstructures := s'.nstructures + 1, tokParent := some s.tokens.length },
            tok := tok }, fun _ => ⟨rfl, htokens, by rw [hs], rfl, ?_⟩, htokens, ?_⟩
  · refine h.snoc (by rw [htokens]) htype hobjects harrays ?_ ?_ ?_ hparents
    · rw [hs]
      rcases hk with rfl | rfl <;> simp
    · rw [hs]
      rcases hk with rfl | rfl <;> simp [objectComma_of_ne]
    · rw [hs]
      rcases hk with rfl | rfl <;> simp
  · refine (check_outcome ?_ (nameSep_skip hnext ?_) (itemSep_skip hnext ?_) hnext hnext hnext
      rfl rfl).congr follows_iff.symm
    · rw [hbrackets]
      refine (openBracket_spec hbehind h hadmissible htokens).congr ?_
      rcases hk with rfl | rfl <;> simp
    · rcases hk with rfl | rfl <;> decide
    · rcases hk with rfl | rfl <;> decide

theorem decided_close {depth : Int} (h : Tracks s ks) (hadmissible : Admissible ks)
    (htype : tok.type = kindType k) (hparent : tok.parent = s.tokParent)
    (hk : k = .endArray ∧ depth = s.arrDepth - 1 ∨ k = .endObject ∧ depth = s.objDepth - 1)
    (hs : s' = { s with objDepth := s'.objDepth, arrDepth := s'.arrDepth })
    (hobjects : s'.objDepth = s.objDepth + [k].count .beginObject - [k].count .endObject)
    (harrays : s'.arrDepth = s.arrDepth + [k].count .beginArray - [k].count .endArray)
    (hbrackets : Turn.brackets { s := s, tok := tok } =
      Turn.closeBracket { s := s, tok := tok } s' depth) : Decided s tok ks k := by
  have hbehind : Behind { s := s, tok := tok } ks k := ⟨h.types, htype, rfl⟩
  have htokens : s'.tokens = s.tokens := by rw [hs]
  have hparents : ParentChain s.tokens (openStack ks) tok.parent := by
    rw [hparent]
    exact h.parents
  have hdepth : 0 ≤ depth → openStack ks ≠ [] := by
    obtain ⟨harray, hobject, hlength⟩ := length_openStack hadmissible
    have hs_arrays := h.arrays
    have hs_objects := h.objects
    intro hle hempty
    rw [hempty, length_nil] at hlength
    rcases hk with ⟨-, hdepth⟩ | ⟨-, hdepth⟩ <;> omega
  have hcond : 0 ≤ depth ↔ ((k = .beginArray ∨ k = .beginObject → ks = [] ∨ openStack ks ≠ []) ∧
      (k = .endArray → ks.count .endArray < ks.count .beginArray) ∧
      (k = .endObject → ks.count .endObject < ks.count .beginObject)) := by
    have hs_arrays := h.arrays
    have hs_objects := h.objects
    rcases hk with ⟨rfl, hdepth⟩ | ⟨rfl, hdepth⟩
    · simp only [reduceCtorEq, false_or, false_implies, true_and, and_true, true_implies]
      omega
    · simp only [reduceCtorEq, false_or, false_implies, true_and, true_implies]
      omega
  obtain ⟨parent, hchain, houtcome⟩ := @closeBracket_spec _ _ _ hbehind hparents s' _ hdepth
  have hnext : Behind { s := { s' with tokParent := parent },
                        tok := { tok with parent := parent } } ks k := by
    refine ⟨?_, htype, rfl⟩
    show s'.tokens.map Token.type = ks.map kindType
    rw [htokens]
    exact h.types
  refine ⟨{ s := { s' with tokParent := parent }, tok := { tok with parent := parent } },
    fun hfollows => ⟨rfl, htokens, by rw [hs], rfl, ?_⟩, htokens, ?_⟩
  · have hle : 0 ≤ depth := hcond.mpr ⟨hfollows.opens, hfollows.endsArray, hfollows.endsObject⟩
    have hsnoc : s'.tokens ++ [{ tok with parent := parent }] = s.tokens ++
        [{ tok with parent := parent }] := by
      rw [htokens]
    refine h.snoc hsnoc htype hobjects harrays ?_ ?_ ?_ ?_
    · rw [hs]
      rcases hk with ⟨rfl, -⟩ | ⟨rfl, -⟩ <;> simp
    · rw [hs]
      rcases hk with ⟨rfl, -⟩ | ⟨rfl, -⟩ <;> simp [objectComma_of_ne]
    · rw [hs]
      rcases hk with ⟨rfl, -⟩ | ⟨rfl, -⟩ <;> simp
    · show ParentChain (s'.tokens ++ _) _ parent
      rw [htokens]
      rcases hk with ⟨rfl, -⟩ | ⟨rfl, -⟩ <;> exact (hchain hle).append _
  · refine (check_outcome ?_ (nameSep_skip hnext ?_) (itemSep_skip hnext ?_) hnext hnext hnext
      rfl rfl).congr follows_iff.symm
    · rw [hbrackets]
      exact houtcome.congr hcond
    · rcases hk with ⟨rfl, -⟩ | ⟨rfl, -⟩ <;> decide
    · rcases hk with ⟨rfl, -⟩ | ⟨rfl, -⟩ <;> decide

theorem decided (h : Tracks s ks) (hadmissible : Admissible ks) (htype : tok.type = kindType k)
    (hparent : tok.parent = s.tokParent) : Decided s tok ks k := by
  cases k with
  | string => exact decided_value h htype (.inl rfl)
  | primitive => exact decided_value h htype (.inr rfl)
  | nameSeparator => exact decided_colon h htype hparent
  | valueSeparator => exact decided_comma h htype hparent
  | beginArray =>
    refine @decided_open s { s with arrDepth := s.arrDepth + 1 } tok ks .beginArray h
      hadmissible htype hparent (.inl rfl) rfl (by simp) (by simp) ?_
    unfold Turn.brackets
    rw [htype]
    rfl
  | beginObject =>
    refine @decided_open s { s with objDepth := s.objDepth + 1 } tok ks .beginObject h
      hadmissible htype hparent (.inr rfl) rfl (by simp) (by simp) ?_
    unfold Turn.brackets
    rw [htype]
    rfl
  | endArray =>
    refine @decided_close s { s with arrDepth := s.arrDepth - 1 } tok ks .endArray _ h
      hadmissible htype hparent (.inl ⟨rfl, rfl⟩) rfl (by simp) (by simp) ?_
    unfold Turn.brackets
    rw [htype]
    rfl
  | endObject =>
    refine @decided_close s { s with objDepth := s.objDepth - 1 } tok ks .endObject _ h
      hadmissible htype hparent (.inr ⟨rfl, rfl⟩) rfl (by simp) (by simp) ?_
    unfold Turn.brackets
    rw [htype]
    rfl

end Decided

theorem check_spec {s : Locals} {tok : Token} {ks : List Kind} {k : Kind} (h : Tracks s ks)
    (hadmissible : Admissible ks) (htype : tok.type = kindType k)
    (hparent : tok.parent = s.tokParent) :
    ∃ t, Turn.check { s := s, tok := tok } = some t ∧
      ((Follows ks k ∧ Kept s tok ks k t) ∨
        (¬ Follows ks k ∧ t.status ≠ .ok ∧ t.s.tokens = s.tokens)) := by
  obtain ⟨g, hkept, hg, t, ht, ⟨hfollows, rfl⟩ | ⟨hfollows, hstatus, htokens⟩⟩ :=
    decided h hadmissible htype hparent
  · exact ⟨t, ht, .inl ⟨hfollows, hkept hfollows⟩⟩
  · exact ⟨t, ht, .inr ⟨hfollows, hstatus, htokens.trans hg⟩⟩

theorem kindType_close_iff (k : Kind) :
    (kindType k = .objectEnd ∨ kindType k = .arrayEnd) ↔ isClose k = true := by
  cases k <;> decide

theorem objectCommas_eq_zero {ks : List Kind} (h : Admissible ks)
    (harrays : ks.count .beginArray = 0) (hobjects : ks.count .beginObject = 0) :
    objectCommas ks = 0 := by
  induction ks using List.reverseRecOn with
  | nil => rfl
  | append_singleton ks k ih =>
    rw [admissible_concat] at h
    rw [count_append] at harrays hobjects
    have hopen : openStack ks = [] := by
      obtain ⟨harray, hobject, hlength⟩ := length_openStack h.1
      rw [← length_eq_zero_iff]
      omega
    rw [objectCommas_concat, ih h.1 (by omega) (by omega), hopen]
    rfl

theorem finalStatus_spec {s : Locals} {ks : List Kind} (h : Tracks s ks)
    (hadmissible : Admissible ks) (hne : ks ≠ []) :
    ∃ status, finalStatus s = some status ∧ (status = .ok ↔ Lenient ks) := by
  have harrays := h.arrays
  have hobjects := h.objects
  have hstructures := h.structures
  unfold finalStatus
  by_cases hdepth : s.objDepth ≠ 0 ∨ s.arrDepth ≠ 0
  · rw [if_pos hdepth]
    refine ⟨_, rfl, fun habsurd => absurd habsurd (by decide), fun hlenient => ?_⟩
    have harray := hlenient.arrays
    have hobject := hlenient.objects
    omega
  · have harray : ks.count .endArray = ks.count .beginArray := by omega
    have hobject : ks.count .endObject = ks.count .beginObject := by omega
    rw [if_neg hdepth]
    by_cases hbrackets : 0 < s.nstructures
    · rw [if_pos hbrackets]
      rcases eq_nil_or_concat ks with rfl | ⟨front, a, rfl⟩
      · exact absurd rfl hne
      rw [concat_eq_append] at *
      have hmem : .beginArray ∈ front ++ [a] ∨ .beginObject ∈ front ++ [a] := by
        rw [← count_pos_iff, ← count_pos_iff]
        omega
      obtain ⟨tok, htok, htype⟩ : ∃ tok, s.tokens[s.tokens.length - 1]? = some tok ∧ tok.type =
          kindType a := by
        have hlast : (s.tokens.map Token.type).getLast? = some (kindType a) := by
          rw [h.types, map_append]
          exact List.getLast?_concat
        rw [List.getLast?_map, map_eq_some_iff] at hlast
        obtain ⟨tok, htok, htype⟩ := hlast
        exact ⟨tok, by rw [← List.getLast?_eq_getElem?]; exact htok, htype⟩
      rw [htok]
      simp only [bind_eq_bind, bind_some, htype]
      by_cases hclose : isClose a = true
      · have hkind := (kindType_close_iff a).mpr hclose
        rw [if_neg (by tauto)]
        by_cases hcommas : s.ncommas ≠ 0 ∧ s.ncolons ≤ s.ncommas
        · rw [if_pos hcommas]
          refine ⟨_, rfl, fun habsurd => absurd habsurd (by decide), fun hlenient => ?_⟩
          have hcount := hlenient.commas
          rw [← h.commas, ← h.colons] at hcount
          omega
        · rw [if_neg hcommas]
          refine ⟨_, rfl, fun _ => ?_, fun _ => rfl⟩
          refine ⟨hne, hadmissible, harray, hobject, fun _ => ⟨a, List.getLast?_concat, hclose⟩, ?_⟩
          rw [← h.commas, ← h.colons]
          omega
      · have hkind := mt (kindType_close_iff a).mp hclose
        rw [if_pos (by tauto)]
        refine ⟨_, rfl, fun habsurd => absurd habsurd (by decide), fun hlenient => ?_⟩
        obtain ⟨b, hb, hbclose⟩ := hlenient.last hmem
        rw [List.getLast?_concat] at hb
        rw [← some.inj hb] at hbclose
        exact absurd hbclose hclose
    · rw [if_neg hbrackets]
      have hnone : ks.count .beginArray = 0 ∧ ks.count .beginObject = 0 := by omega
      refine ⟨_, rfl, fun _ => ?_, fun _ => rfl⟩
      refine ⟨hne, hadmissible, harray, hobject, ?_, ?_⟩
      · rw [← count_pos_iff, ← count_pos_iff]
        intro hmem
        omega
      · exact .inl (objectCommas_eq_zero hadmissible hnone.1 hnone.2)

end Cj
end DeconzRest

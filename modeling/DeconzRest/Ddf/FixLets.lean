import DeconzRest.Ddf.BundleItems
import DeconzRest.Lib.Substring

/-!
# `DDF_TryCompileAndFixJavascript`

The loop looks for `let` from an index on, which moves behind a `let` that is replaced and stays at
one that is not.  Here the loop is the one of the source, turn by turn; `fixLets` passes over the
text once and has its results.
-/

namespace DeconzRest
namespace DeviceObject

open List Option

open QString (ofLatin1)

/-- `QString::indexOf`: the first place of a pattern at or behind an index -/
def indexOf (s pattern : QString) (start : Nat) : Option Nat :=
  (findFirst (s.drop start) pattern).map (· + start)

structure FixState where
  fix : QString
  idx : Nat := 0
  nfixes : Nat := 0

/-- One turn of the loop; `none` is its end. -/
def fixTurn (st : FixState) : Option FixState :=
  (indexOf st.fix letText st.idx).map fun idx =>
    if replaceable (st.fix.take idx).getLast? then
      { fix := ((st.fix.set idx (QString.unit 'v')).set (idx + 1) (QString.unit 'a')).set (idx + 2)
          (QString.unit 'r')
        idx := idx + 4
        nfixes := st.nfixes + 1 }
    else { st with idx }

inductive FixEnds : FixState → QString × Nat → Prop
  | ended {st : FixState} (h : fixTurn st = none) : FixEnds st (st.fix, st.nfixes)
  | next {st st' : FixState} {r : QString × Nat} (h : fixTurn st = some st')
      (rest : FixEnds st' r) : FixEnds st r

/-- `DDF_TryCompileAndFixJavascript` returns, with this expression. -/
inductive Returns (testCompile : QString → Bool) (expr : QString) : QString → Prop
  | compiles (h : testCompile expr = true) : Returns testCompile expr expr
  | searched {r : QString × Nat} (h : testCompile expr = false)
      (hends : FixEnds { fix := expr } r) :
      Returns testCompile expr (if 0 < r.2 && testCompile r.1 then r.1 else expr)

/-- A text with `var` in the place of some occurrences of `let` and a blank, all of them at the
start or behind white space or an opening parenthesis. -/
inductive Repaired : Option QChar → QString → QString → Prop
  | nil {prev : Option QChar} : Repaired prev [] []
  | keep {prev : Option QChar} {s s' : QString} (c : QChar) (h : Repaired (some c) s s') :
      Repaired prev (c :: s) (c :: s')
  | fix {prev : Option QChar} {s s' : QString} (hprev : replaceable prev = true)
      (h : Repaired (some (QString.unit ' ')) s s') :
      Repaired prev (letText ++ QString.unit ' ' :: s) (varText ++ QString.unit ' ' :: s')

/-- The function returns, and only documented occurrences of `let` are replaced then. -/
structure RepairsExactly (testCompile : QString → Bool) (expr : QString) : Prop where
  returns : ∃ new, Returns testCompile expr new
  exact : ∀ new, Returns testCompile expr new → new ≠ expr → Repaired none expr new

/-- The text with `var` for each `let` that the search meets. -/
def letsReplaced : QString → QString
  | l :: e :: t :: c :: rest =>
    if [l, e, t] = letText then varText ++ c :: letsReplaced rest
    else l :: letsReplaced (e :: t :: c :: rest)
  | [l, e, t] => if [l, e, t] = letText then varText else [l, e, t]
  | rest => rest

/-- Behind each `let` that the search meets there is a blank. -/
def LetsFollowed : QString → Prop
  | l :: e :: t :: c :: rest =>
    if [l, e, t] = letText then c = QString.unit ' ' ∧ LetsFollowed rest
    else LetsFollowed (e :: t :: c :: rest)
  | [l, e, t] => [l, e, t] ≠ letText
  | _ => True

/-! ## One turn -/

section Turns

variable {done rest : QString} {nfixes : Nat} {st st' : FixState} {r : QString × Nat}

theorem indexOf_append (done rest pattern : QString) :
    indexOf (done ++ rest) pattern done.length =
      (findFirst rest pattern).map (· + done.length) := by
  unfold indexOf
  rw [drop_left]

theorem indexOf_step {c : QChar} (h : ¬ letText <+: c :: rest) :
    indexOf (done ++ c :: rest) letText done.length =
      indexOf (done ++ [c] ++ rest) letText (done ++ [c]).length := by
  rw [indexOf_append, indexOf_append, findFirst_cons_of_not h, Option.map_map, List.length_append]
  congr 1
  funext i
  show i + 1 + done.length = i + (done.length + 1)
  omega

theorem fixTurn_step {c : QChar} (h : ¬ letText <+: c :: rest) :
    fixTurn ⟨done ++ c :: rest, done.length, nfixes⟩ =
      fixTurn ⟨done ++ [c] ++ rest, (done ++ [c]).length, nfixes⟩ := by
  unfold fixTurn
  simp only [indexOf_step h, append_assoc, cons_append, nil_append]

theorem set_let (done rest : QString) :
    (((done ++ (letText ++ rest)).set done.length (QString.unit 'v')).set (done.length + 1)
        (QString.unit 'a')).set (done.length + 2) (QString.unit 'r') =
      done ++ (varText ++ rest) := by
  induction done with
  | nil => rfl
  | cons c done ih =>
    simp only [cons_append, length_cons, set_cons_succ, Nat.add_right_comm _ 1]
    rw [ih]

theorem fixTurn_let (done rest : QString) (nfixes : Nat) :
    fixTurn ⟨done ++ (letText ++ rest), done.length, nfixes⟩ =
    if replaceable done.getLast? then
      some ⟨done ++ (varText ++ rest), done.length + 4, nfixes + 1⟩
    else some ⟨done ++ (letText ++ rest), done.length, nfixes⟩ := by
  unfold fixTurn
  simp only [indexOf_append, findFirst_of_prefix (prefix_append letText rest), map_some,
    Nat.zero_add, take_left, set_let]
  split
  · rfl
  · rfl

theorem fixTurn_none (h : ¬ letText <:+: rest) :
    fixTurn ⟨done ++ rest, done.length, nfixes⟩ = none := by
  unfold fixTurn
  rw [indexOf_append, Option.map_map, map_eq_none_iff]
  exact not_isSome_iff_eq_none.mp (mt isSome_findFirst_iff.mp h)

theorem fixEnds_next_iff (h : fixTurn st = some st') : FixEnds st r ↔ FixEnds st' r := by
  refine ⟨fun hends => ?_, .next h⟩
  cases hends with
  | ended hend => exact absurd (hend.symm.trans h) (some_ne_none _).symm
  | next hnext rest =>
    rw [some_inj.mp (h.symm.trans hnext)]
    exact rest

theorem fixEnds_ended_iff (h : fixTurn st = none) : FixEnds st r ↔ r = (st.fix, st.nfixes) := by
  constructor
  · intro hends
    cases hends with
    | ended _ => rfl
    | next hnext _ => exact absurd (h.symm.trans hnext) (some_ne_none _).symm
  · rintro rfl
    exact .ended h

theorem not_fixEnds_of_stuck (h : fixTurn st = some st) : ¬ FixEnds st r := by
  intro hends
  induction hends with
  | ended hend => exact absurd (hend.symm.trans h) (some_ne_none _).symm
  | next hnext _ ih =>
    obtain rfl := some_inj.mp (h.symm.trans hnext)
    exact ih h

theorem fixEnds_congr (h : fixTurn st = fixTurn st') (hfix : st.fix = st'.fix)
    (hnfixes : st.nfixes = st'.nfixes) : FixEnds st r ↔ FixEnds st' r := by
  cases hturn : fixTurn st with
  | none =>
    rw [fixEnds_ended_iff hturn, fixEnds_ended_iff (h.symm.trans hturn), hfix, hnfixes]
  | some next =>
    rw [fixEnds_next_iff hturn, fixEnds_next_iff (h.symm.trans hturn)]

theorem not_infix_of_ne {l e t : QChar} (h : [l, e, t] ≠ letText) : ¬ letText <:+: [l, e, t] :=
  fun hlet => h (hlet.eq_of_length rfl).symm

theorem not_infix_of_short {s : QString} (hfour : ∀ l e t c rest, s ≠ l :: e :: t :: c :: rest)
    (hthree : ∀ l e t, s ≠ [l, e, t]) : ¬ letText <:+: s := by
  intro hlet
  have hlength : 3 ≤ s.length := hlet.length_le
  match s with
  | [] | [_] | [_, _] => exact absurd hlength (by simp)
  | [l, e, t] => exact hthree l e t rfl
  | l :: e :: t :: c :: rest => exact hfour l e t c rest rfl

theorem fixEnds_iff (prev : Option QChar) (rest : QString) (hprev : done.getLast? = prev) :
    FixEnds ⟨done ++ rest, done.length, nfixes⟩ r ↔ ∃ q, fixLets prev rest = some q ∧ r =
      (done ++ q.1, nfixes + q.2) := by
  fun_induction fixLets prev rest generalizing done nfixes with
  | case1 prev l e t c rest hlet hstands ih =>
    have htext : l :: e :: t :: c :: rest = letText ++ c :: rest := by rw [← hlet]; rfl
    have hturn := fixTurn_let done (c :: rest) nfixes
    rw [hprev, if_pos hstands] at hturn
    have hnext : done ++ (varText ++ c :: rest) = done ++ (varText ++ [c]) ++ rest := by
      simp only [append_assoc, cons_append, nil_append]
    have hidx : done.length + 4 = (done ++ (varText ++ [c])).length := by
      rw [List.length_append]
      rfl
    have hlast : (done ++ (varText ++ [c])).getLast? = some c := by
      rw [← append_assoc, List.getLast?_concat]
    rw [htext, fixEnds_next_iff hturn, hnext, hidx, ih hlast]
    simp only [map_eq_some_iff, exists_exists_and_eq_and, append_assoc, cons_append,
      nil_append]
    simp only [Nat.add_assoc, Nat.add_comm 1]
  | case2 prev l e t c rest hlet hstands =>
    have htext : l :: e :: t :: c :: rest = letText ++ c :: rest := by rw [← hlet]; rfl
    have hturn := fixTurn_let done (c :: rest) nfixes
    rw [hprev, if_neg hstands] at hturn
    rw [htext]
    exact iff_of_false (not_fixEnds_of_stuck hturn) (by rintro ⟨_, ⟨⟩, _⟩)
  | case3 prev l e t c rest hlet ih =>
    have hno : ¬ letText <+: l :: e :: t :: c :: rest := by
      intro hprefix
      exact hlet (prefix_iff_eq_take.mp hprefix).symm
    rw [fixEnds_congr (fixTurn_step hno) (by simp) rfl, ih List.getLast?_concat]
    simp only [map_eq_some_iff, exists_exists_and_eq_and, append_assoc, cons_append,
      nil_append]
  | case4 prev l e t hlet hstands =>
    have hturn := fixTurn_let done [] nfixes
    rw [hprev, if_pos hstands] at hturn
    have hend : fixTurn ⟨done ++ (varText ++ []), done.length + 4, nfixes + 1⟩ = none := by
      unfold fixTurn indexOf
      rw [drop_eq_nil_of_le (by simp [varText, QString.ofLatin1])]
      rfl
    rw [hlet, ← append_nil letText, fixEnds_next_iff hturn, fixEnds_ended_iff hend]
    simp
  | case5 prev l e t hlet hstands =>
    have hturn := fixTurn_let done [] nfixes
    rw [hprev, if_neg hstands] at hturn
    rw [hlet, ← append_nil letText]
    exact iff_of_false (not_fixEnds_of_stuck hturn) (by rintro ⟨_, ⟨⟩, _⟩)
  | case6 prev l e t hlet =>
    rw [fixEnds_ended_iff (fixTurn_none (not_infix_of_ne hlet))]
    simp
  | case7 prev s hfour hthree =>
    rw [fixEnds_ended_iff (fixTurn_none (not_infix_of_short hfour hthree))]
    simp

end Turns

/-! ## What is replaced -/

section Repairs

variable {testCompile : QString → Bool} {expr new : QString}

theorem returns_iff {D : Type} (js : ScriptEnv D) :
    Returns js.testCompile expr new ↔ tryCompileAndFix js expr = some new := by
  have hends {r : QString × Nat} : FixEnds { fix := expr } r ↔ fixLets none expr = some r := by
    have h : FixEnds ⟨[] ++ expr, 0, 0⟩ r ↔ _ := fixEnds_iff none expr rfl
    simp only [nil_append, Nat.zero_add] at h
    exact h.trans ⟨fun ⟨q, hq, hr⟩ => hr ▸ hq, fun hr => ⟨r, hr, rfl⟩⟩
  unfold tryCompileAndFix
  cases hcompiles : js.testCompile expr with
  | true =>
    rw [if_pos rfl]
    constructor
    · intro h
      cases h with
      | compiles => rfl
      | searched hfails _ => exact absurd (hcompiles.symm.trans hfails) Bool.false_ne_true.symm
    · rintro ⟨⟩
      exact .compiles hcompiles
  | false =>
    rw [if_neg Bool.false_ne_true, map_eq_some_iff]
    constructor
    · intro h
      cases h with
      | compiles hcompiles' =>
        exact absurd (hcompiles.symm.trans hcompiles') Bool.false_ne_true
      | searched _ h => exact ⟨_, hends.mp h, rfl⟩
    · rintro ⟨r, hr, rfl⟩
      exact .searched hcompiles (hends.mpr hr)

def compiling (testCompile : QString → Bool) : ScriptEnv Unit := { toText := textOf, testCompile }

theorem repaired_refl : ∀ (prev : Option QChar) (s : QString), Repaired prev s s
  | _, [] => .nil
  | _, c :: s => .keep c (repaired_refl (some c) s)

variable {prev : Option QChar}

theorem fst_fixLets {s : QString} {r : QString × Nat} (h : fixLets prev s = some r) :
    r.1 = letsReplaced s := by
  fun_induction fixLets prev s generalizing r with
  | case1 prev l e t c rest hlet hstands ih =>
    obtain ⟨q, hq, rfl⟩ := map_eq_some_iff.mp h
    rw [letsReplaced, if_pos hlet, ih hq]
  | case2 prev l e t c rest hlet hstands => cases h
  | case3 prev l e t c rest hlet ih =>
    obtain ⟨q, hq, rfl⟩ := map_eq_some_iff.mp h
    rw [letsReplaced, if_neg hlet, ih hq]
  | case4 prev l e t hlet hstands =>
    rw [letsReplaced, if_pos hlet, ← some_inj.mp h]
  | case5 prev l e t hlet hstands => cases h
  | case6 prev l e t hlet =>
    rw [letsReplaced, if_neg hlet, ← some_inj.mp h]
  | case7 prev s hfour hthree =>
    rw [letsReplaced, ← some_inj.mp h]
    · exact hfour
    · exact hthree

theorem of_no_fix {s : QString} {r : QString × Nat} (h : fixLets prev s = some r) (hnone : r.2 = 0)
    : r.1 = s ∧ LetsFollowed s := by
  fun_induction fixLets prev s generalizing r with
  | case1 prev l e t c rest hlet hstands ih =>
    obtain ⟨q, hq, rfl⟩ := map_eq_some_iff.mp h
    exact absurd hnone (Nat.succ_ne_zero _)
  | case2 prev l e t c rest hlet hstands => cases h
  | case3 prev l e t c rest hlet ih =>
    obtain ⟨q, hq, rfl⟩ := map_eq_some_iff.mp h
    obtain ⟨heq, hfollowed⟩ := ih hq hnone
    rw [LetsFollowed, if_neg hlet, heq]
    exact ⟨rfl, hfollowed⟩
  | case4 prev l e t hlet hstands =>
    rw [← some_inj.mp h] at hnone
    exact absurd hnone Nat.one_ne_zero
  | case5 prev l e t hlet hstands => cases h
  | case6 prev l e t hlet =>
    rw [← some_inj.mp h]
    exact ⟨rfl, hlet⟩
  | case7 prev s hfour hthree =>
    rw [← some_inj.mp h, LetsFollowed]
    · exact ⟨rfl, trivial⟩
    · exact hfour
    · exact hthree

theorem repaired_cons_iff {c : QChar} {s s' : QString} (h : ¬ letText <+: c :: s) :
    Repaired prev (c :: s) (c :: s') ↔ Repaired (some c) s s' := by
  refine ⟨fun hrepaired => ?_, .keep c⟩
  generalize hold : c :: s = old at hrepaired
  generalize hnew : c :: s' = new at hrepaired
  cases hrepaired with
  | nil => cases hold
  | keep c' hrest =>
    cases hold
    cases hnew
    exact hrest
  | fix hprev hrest =>
    rw [hold] at h
    exact absurd (prefix_append _ _) h

theorem repaired_let_iff {c : QChar} {s s' : QString} (hprev : replaceable prev = true) :
    Repaired prev (letText ++ c :: s) (varText ++ c :: s') ↔ c = QString.unit ' ' ∧
      Repaired (some c) s s' := by
  constructor
  · intro h
    generalize hold : letText ++ c :: s = old at h
    generalize hnew : varText ++ c :: s' = new at h
    cases h with
    | nil => cases hold
    | keep c' hrest =>
      have hl := (List.cons.inj hold).1
      have hv := (List.cons.inj hnew).1
      exact absurd (hl.trans hv.symm) (by decide)
    | fix _ hrest =>
      obtain ⟨hc, hs⟩ := List.cons.inj (append_cancel_left hold)
      obtain ⟨-, hs'⟩ := List.cons.inj (append_cancel_left hnew)
      rw [hc, hs, hs']
      exact ⟨rfl, hrest⟩
  · rintro ⟨rfl, hrest⟩
    exact .fix hprev hrest

theorem not_repaired_end : ¬ Repaired prev letText varText := by
  intro h
  generalize hold : letText = old at h
  generalize hnew : varText = new at h
  cases h with
  | nil => cases hold
  | keep c' hrest =>
    have hl := (List.cons.inj hold).1
    have hv := (List.cons.inj hnew).1
    exact absurd (hl.trans hv.symm) (by decide)
  | fix _ _ => exact absurd (self_eq_append_right.mp hold) (cons_ne_nil _ _)

theorem repaired_letsReplaced_iff (prev : Option QChar) (s : QString) (h : LetsStand prev s) :
    Repaired prev s (letsReplaced s) ↔ LetsFollowed s := by
  fun_induction LetsStand prev s with
  | case1 prev l e t c rest hlet ih =>
    have htext : l :: e :: t :: c :: rest = letText ++ c :: rest := by rw [← hlet]; rfl
    rw [letsReplaced, if_pos hlet, LetsFollowed, if_pos hlet, ← ih h.2, htext, repaired_let_iff h.1]
  | case2 prev l e t c rest hlet ih =>
    have hno : ¬ letText <+: l :: e :: t :: c :: rest := by
      intro hprefix
      exact hlet (prefix_iff_eq_take.mp hprefix).symm
    rw [letsReplaced, if_neg hlet, LetsFollowed, if_neg hlet, ← ih h, repaired_cons_iff hno]
  | case3 prev l e t =>
    rw [letsReplaced, LetsFollowed]
    by_cases hlet : [l, e, t] = letText
    · rw [if_pos hlet, hlet]
      exact iff_of_false not_repaired_end fun hne => hne rfl
    · rw [if_neg hlet]
      exact iff_of_true (repaired_refl prev _) hlet
  | case4 prev s hfour hthree =>
    rw [letsReplaced, LetsFollowed]
    · exact iff_of_true (repaired_refl prev _) trivial
    all_goals assumption

/-- The search for `let` ends, and replaces what it is meant to replace, exactly if the expression
compiles already, or if every `let` that the search meets stands at the start or behind white space
or an opening parenthesis, and has its blank behind it unless the new text does not compile. -/
theorem repairsExactly_iff (testCompile : QString → Bool) (expr : QString) :
    RepairsExactly testCompile expr ↔ testCompile expr = true ∨
      (LetsStand none expr ∧ (testCompile (letsReplaced expr) = true → LetsFollowed expr)) := by
  have hreturns (new : QString) : Returns testCompile expr new ↔
      tryCompileAndFix (compiling testCompile) expr = some new :=
    returns_iff (compiling testCompile)
  cases hcompiles : testCompile expr with
  | true =>
    refine iff_of_true ⟨⟨expr, .compiles hcompiles⟩, fun new hnew hchanged => ?_⟩ (.inl rfl)
    cases hnew with
    | compiles => exact absurd rfl hchanged
    | searched hfails _ => exact absurd (hcompiles.symm.trans hfails) Bool.false_ne_true.symm
  | false =>
    have hresult (new : QString) : tryCompileAndFix (compiling testCompile) expr = some new ↔
        ∃ r, fixLets none expr = some r ∧ (if 0 < r.2 && testCompile r.1 then r.1 else expr) =
          new := by
      unfold tryCompileAndFix
      rw [show (compiling testCompile).testCompile expr = false from hcompiles,
        if_neg Bool.false_ne_true, map_eq_some_iff]
      rfl
    simp only [hresult] at hreturns
    constructor
    · intro hexact
      obtain ⟨new, hnew⟩ := hexact.returns
      obtain ⟨r, hr, hchosen⟩ := (hreturns new).mp hnew
      have hstand := (isSome_fixLets_iff none expr).mp (isSome_of_eq_some hr)
      refine .inr ⟨hstand, fun hfixed => ?_⟩
      by_cases hnone : r.2 = 0
      · exact (of_no_fix hr hnone).2
      · rw [← fst_fixLets hr] at hfixed
        rw [hfixed, Bool.and_true, if_pos (by simpa using Nat.pos_of_ne_zero hnone)] at hchosen
        have hchanged : new ≠ expr := by
          rintro rfl
          rw [← hchosen, hfixed] at hcompiles
          exact Bool.false_ne_true hcompiles.symm
        have hrepaired := hexact.exact new hnew hchanged
        rw [← hchosen, fst_fixLets hr] at hrepaired
        exact (repaired_letsReplaced_iff none expr hstand).mp hrepaired
    · rintro (hcompiles' | ⟨hstand, hfollowed⟩)
      · exact absurd hcompiles' Bool.false_ne_true
      · obtain ⟨r, hr⟩ := isSome_iff_exists.mp ((isSome_fixLets_iff none expr).mpr hstand)
        refine ⟨⟨_, (hreturns _).mpr ⟨r, hr, rfl⟩⟩, fun new hnew hchanged => ?_⟩
        obtain ⟨r', hr', hchosen⟩ := (hreturns new).mp hnew
        split at hchosen
        · rename_i hfixed
          have hcompiles' : testCompile (letsReplaced expr) = true := by
            rw [← fst_fixLets hr']
            exact (Bool.and_eq_true_iff.mp hfixed).2
          rw [← hchosen, fst_fixLets hr']
          exact (repaired_letsReplaced_iff none expr hstand).mpr (hfollowed hcompiles')
        · exact absurd hchosen.symm hchanged

theorem outlet_endless : ¬ ∃ new, Returns (fun _ => false) (ofLatin1 "outlet") new := by
  rintro ⟨new, hnew⟩
  have hresult : tryCompileAndFix (compiling fun _ => false) (ofLatin1 "outlet") = some new :=
    (returns_iff (compiling fun _ => false)).mp hnew
  have hendless : tryCompileAndFix (compiling fun _ => false) (ofLatin1 "outlet") = none := by
    decide
  exact absurd (hendless.symm.trans hresult) (some_ne_none new).symm

theorem letter_changed :
    Returns (· == ofLatin1 "varter") (ofLatin1 "letter") (ofLatin1 "varter") ∧
      ¬ Repaired none (ofLatin1 "letter") (ofLatin1 "varter") := by
  constructor
  · have hresult : tryCompileAndFix (compiling (· == ofLatin1 "varter")) (ofLatin1 "letter") =
        some (ofLatin1 "varter") := by decide
    exact (returns_iff (compiling (· == ofLatin1 "varter"))).mpr hresult
  · intro h
    have hrest : Repaired none (letText ++ QString.unit 't' :: ofLatin1 "er")
        (varText ++ QString.unit 't' :: ofLatin1 "er") := h
    exact absurd ((repaired_let_iff rfl).mp hrest).1 (by decide)

/-- The search does not always end, and a word that only begins with `let` is changed. -/
theorem outlet_and_letter :
    ¬ RepairsExactly (fun _ => false) (ofLatin1 "outlet") ∧
      ¬ RepairsExactly (· == ofLatin1 "varter") (ofLatin1 "letter") :=
  ⟨fun h => outlet_endless h.returns,
    fun h => letter_changed.2 (h.exact _ letter_changed.1 (by decide))⟩

end Repairs

end DeviceObject
end DeconzRest

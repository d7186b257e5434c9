import DeconzRest.Json.Text
import DeconzRest.Rule.Condition

/-!
# What a condition reads in its texts

The texts of a condition are compared with texts of the source, split at slashes and read
as clock times and week days.  None of this sees an unpaired surrogate, so a text behind
UTF-8 is read as the one before (`converts_withText`), and a condition is built alike from
its own value (`alike_build`).
-/

namespace DeconzRest

open Json
open QString (repair Repaired)

namespace QTime

theorem twoDigits_repaired {a a' b b' : QChar} (ha : Repaired a a') (hb : Repaired b b') :
    twoDigits a' b' = twoDigits a b := by
  unfold twoDigits
  rw [ha.digitValue_eq, hb.digitValue_eq]

theorem clockTime_of_length_ne {s : QString} (h : s.length ≠ 8) : clockTime s = null := by
  unfold clockTime
  split
  · exact absurd rfl h
  · rfl

theorem clockTime_repaired {s t : QString} (h : List.Forall₂ Repaired s t) :
    clockTime t = clockTime s := by
  by_cases hlength : s.length = 8
  · match s, t, hlength, h with
    | [_, _, _, _, _, _, _, _], _, _,
        .cons ha (.cons hb (.cons hcolon (.cons hc (.cons hd (.cons hcolon' (.cons he
          (.cons hf .nil))))))) =>
        unfold clockTime
        simp only [twoDigits_repaired ha hb, twoDigits_repaired hc hd, twoDigits_repaired he hf,
          hcolon.eq_plain_iff (c := QString.unit ':') (by decide),
          hcolon'.eq_plain_iff (c := QString.unit ':') (by decide)]
  · have hlength' : t.length ≠ 8 := by rwa [← h.length_eq]
    rw [clockTime_of_length_ne hlength, clockTime_of_length_ne hlength']

theorem fromString_repair {literal : String}
    (hliteral : (QString.ofLatin1 literal).all QString.isPlain = true) (s : QString) :
    fromString (repair s) literal = fromString s literal := by
  unfold fromString
  rw [QString.startsWith_repair hliteral,
    clockTime_repaired (List.forall₂_drop literal.length (QString.forall₂_repair s))]

end QTime

namespace Operator

/-- The texts that stand for an operator. -/
def texts : List String := ["eq", "ne", "gt", "lt", "dx", "ddx", "in", "not in", "stable"]

theorem mem_texts_of_ne_unknown {s : QString} (h : ofString s ≠ .unknown) :
    ∃ t ∈ texts, s = QString.ofLatin1 t := by
  by_contra hnot
  simp only [texts, List.mem_cons, List.not_mem_nil, or_false, exists_eq_or_imp, exists_eq_left,
    not_or] at hnot
  obtain ⟨heq, hne, hgt, hlt, hdx, hddx, hin, hnotIn, hstable⟩ := hnot
  apply h
  unfold ofString
  rw [if_neg heq, if_neg hne, if_neg hgt, if_neg hlt, if_neg hdx, if_neg hddx, if_neg hin,
    if_neg hnotIn, if_neg hstable]

theorem repair_eq_self {s : QString} (h : ofString s ≠ .unknown) : repair s = s := by
  obtain ⟨t, hmem, rfl⟩ := mem_texts_of_ne_unknown h
  have hplain : (texts.all fun t => (QString.ofLatin1 t).all QString.isPlain) = true := by decide
  exact (QString.repair_eq_iff (List.all_eq_true.mp hplain t hmem)).mpr rfl

end Operator

namespace RuleCondition

variable {D : Type}

theorem foldlM_digits_repaired {s t : QString} (h : List.Forall₂ Repaired s t) (n : Nat) :
    t.foldlM (fun n d => (QString.digitValue d).map fun v => 10 * n + v) n =
      s.foldlM (fun n d => (QString.digitValue d).map fun v => 10 * n + v) n := by
  induction h generalizing n with
  | nil => rfl
  | cons hunit _ ih =>
    rw [List.foldlM_cons, List.foldlM_cons, hunit.digitValue_eq]
    congr 1
    funext m
    exact ih m

theorem weekDaysOf_repair (s : QString) : weekDaysOf (repair s) = weekDaysOf s := by
  have hrepaired := QString.forall₂_repair s
  generalize repair s = t at hrepaired
  cases hrepaired with
  | nil => rfl
  | cons hunit hrest =>
    unfold weekDaysOf
    simp only [hunit.eq_plain_iff (c := QString.unit 'W') (by decide), ← hrest.length_eq,
      foldlM_digits_repaired hrest]

theorem panelStatusFromString_repair (s : QString) :
    panelStatusFromString (repair s) = panelStatusFromString s := by
  have hplain : ∀ p : PanelStatus, (QString.ofLatin1 p.name).all QString.isPlain = true := by
    intro p
    cases p <;> decide
  have hsame : (fun p : PanelStatus => decide (QString.ofLatin1 p.name = repair s)) =
      fun p => decide (QString.ofLatin1 p.name = s) := by
    funext p
    rw [decide_eq_decide, eq_comm, QString.repair_eq_iff (hplain p), eq_comm]
  unfold panelStatusFromString
  rw [hsame]

/-- The conditions are alike in all that a rule evaluates, but for the item. -/
structure Alike (c c' : RuleCondition D) : Prop where
  suffix : c'.suffix = c.suffix
  op : c'.op = c.op
  num : c'.num = c.num
  weekDays : c'.weekDays = c.weekDays
  time0 : c'.time0 = c.time0
  time1 : c'.time1 = c.time1

variable {c c' : RuleCondition D}

theorem Alike.withTimes (h : Alike c c') (interval : List QString) :
    Alike (withTimes c interval) (withTimes c' (interval.map repair)) := by
  have hunknown : Alike { c with op := .unknown } { c' with op := .unknown } :=
    ⟨h.suffix, rfl, h.num, h.weekDays, h.time0, h.time1⟩
  match interval with
  | [s0, s1] =>
    rw [List.map_cons, List.map_singleton]
    unfold RuleCondition.withTimes
    simp only [QTime.fromString_repair (by decide : (QString.ofLatin1 "T").all QString.isPlain)]
    split
    · exact ⟨h.suffix, h.op, h.num, h.weekDays, rfl, rfl⟩
    · exact hunknown
  | [] | [_] | _ :: _ :: _ :: _ => exact hunknown

theorem Alike.withInterval (h : Alike c c') (str : QString) :
    Alike (withInterval c str) (withInterval c' (repair str)) := by
  unfold RuleCondition.withInterval
  rw [QString.split_repair (by decide)]
  match QString.split str '/' with
  | [first, s0, s1] =>
    simp only [List.map_cons, List.map_nil, weekDaysOf_repair]
    cases weekDaysOf first with
    | none => exact h.withTimes [s0, s1]
    | some w =>
      simp only
      split
      · exact h
      · have hdays : Alike { c with weekDays := w } { c' with weekDays := w } :=
          ⟨h.suffix, h.op, h.num, rfl, h.time0, h.time1⟩
        exact hdays.withTimes [s0, s1]
  | [] => exact h.withTimes []
  | [s0] => exact h.withTimes [s0]
  | [s0, s1] => exact h.withTimes [s0, s1]
  | s0 :: s1 :: s2 :: s3 :: rest => exact h.withTimes (s0 :: s1 :: s2 :: s3 :: rest)

theorem Alike.withReference (h : Alike c c') (str : QString) :
    Alike (withReference c str) (withReference c' (repair str)) := by
  have hunknown : Alike { c with op := .unknown } { c' with op := .unknown } :=
    ⟨h.suffix, rfl, h.num, h.weekDays, h.time0, h.time1⟩
  unfold RuleCondition.withReference
  rw [QString.endsWith_repair (by decide), QString.startsWith_repair (by decide),
    QString.endsWith_repair (by decide), QString.split_repair (by decide)]
  split
  · exact ⟨h.suffix, h.op, h.num, h.weekDays, h.time0, h.time1⟩
  · split
    · match QString.split str '/' with
      | [_, _, _, _] => exact ⟨h.suffix, h.op, h.num, h.weekDays, h.time0, h.time1⟩
      | [] | [_] | [_, _] | [_, _, _] | _ :: _ :: _ :: _ :: _ :: _ => exact hunknown
    · exact hunknown

/-! ## The value -/

theorem value_withTimes (c : RuleCondition D) (interval : List QString) :
    (withTimes c interval).value = c.value := by
  unfold RuleCondition.withTimes
  split
  · simp only
    split <;> rfl
  · rfl

theorem value_withInterval (c : RuleCondition D) (str : QString) :
    (withInterval c str).value = c.value := by
  unfold RuleCondition.withInterval
  split
  · split
    · split
      · rfl
      · exact value_withTimes _ _
    · exact value_withTimes _ _
  · exact value_withTimes _ _

theorem value_withReference (c : RuleCondition D) (str : QString) :
    (withReference c str).value = c.value := by
  unfold RuleCondition.withReference
  split
  · rfl
  · split
    · split <;> rfl
    · rfl

theorem value_withNumber (env : RuleEnv D) (c : RuleCondition D) :
    (withNumber env c).value = c.value := by
  unfold withNumber
  split
  · split <;> rfl
  · split <;> rfl
  · rfl
  · rfl

/-- What a conversion does with a text: the value is a boolean or a number from then on, or
the text stays and is read again as it was. -/
inductive Converts (f : RuleCondition D → QString → RuleCondition D) (c : RuleCondition D)
    (str : QString) : Prop where
  | replaced (v : QVariant D) (hv : (∃ b, v = .bool b) ∨ ∃ d, v = .double d)
      (h : f c str = { c with value := v })
  | kept (hvalue : (f c str).value = c.value)
      (hagain : ∀ c', Alike c c' → Alike (f c str) (f c' (repair str)) ∧ (f c' (repair str)).value =
        c'.value)

variable (env : RuleEnv D)

theorem converts_withNumberText {str : QString}
    (hvalid : (withNumberText env c str).isValid = true) :
    Converts (withNumberText env) c str := by
  by_cases hsuffix : c.suffix = rStateArmState
  · refine .kept ?_ fun c' h => ?_
    · unfold withNumberText
      rw [if_pos hsuffix]
      simp only
      split <;> rfl
    · have hsuffix' : c'.suffix = rStateArmState := h.suffix.trans hsuffix
      unfold withNumberText
      rw [if_pos hsuffix, if_pos hsuffix']
      simp only [panelStatusFromString_repair]
      split
      · exact ⟨⟨h.suffix, h.op, rfl, h.weekDays, h.time0, h.time1⟩, rfl⟩
      · exact ⟨⟨h.suffix, rfl, h.num, h.weekDays, h.time0, h.time1⟩, rfl⟩
  · unfold withNumberText at hvalid
    rw [if_neg hsuffix] at hvalid
    cases hnum : env.stringToInt str with
    | none =>
      rw [hnum] at hvalid
      exact absurd hvalid (by simp [isValid])
    | some num =>
      refine .replaced (.double (env.qt.ofInt num)) (.inr ⟨_, rfl⟩) ?_
      unfold withNumberText
      rw [if_neg hsuffix, hnum]

/-- **The text of a valid condition is kept, or replaced for good.** -/
theorem converts_withText {str : QString} (hvalid : (withText env c str).isValid = true) :
    Converts (withText env) c str := by
  by_cases hduration : c.op = .ddx ∨ c.op = .stable
  · refine .kept ?_ fun c' h => ?_
    · unfold withText
      rw [if_pos hduration]
      simp only
      split <;> rfl
    · have hduration' : c'.op = .ddx ∨ c'.op = .stable := by rwa [h.op]
      unfold withText
      rw [if_pos hduration, if_pos hduration']
      simp only [QTime.fromString_repair
        (by decide : (QString.ofLatin1 "PT").all QString.isPlain)]
      split
      · exact ⟨⟨h.suffix, h.op, rfl, h.weekDays, rfl, h.time1⟩, rfl⟩
      · exact ⟨⟨h.suffix, rfl, h.num, h.weekDays, h.time0, h.time1⟩, rfl⟩
  by_cases hinterval : c.op = .isIn ∨ c.op = .notIn
  · refine .kept ?_ fun c' h => ?_
    · unfold withText
      rw [if_neg hduration, if_pos hinterval]
      exact value_withInterval c str
    · have hduration' : ¬ (c'.op = .ddx ∨ c'.op = .stable) := by rwa [h.op]
      have hinterval' : c'.op = .isIn ∨ c'.op = .notIn := by rwa [h.op]
      unfold withText
      rw [if_neg hduration, if_pos hinterval, if_neg hduration', if_pos hinterval']
      exact ⟨h.withInterval str, value_withInterval c' _⟩
  by_cases hbool : str = QString.ofLatin1 "true" ∨ str = QString.ofLatin1 "false"
  · refine .replaced (.bool (env.qt.toBool (.string str))) (.inl ⟨_, rfl⟩) ?_
    unfold withText
    rw [if_neg hduration, if_neg hinterval, if_pos hbool]
  -- the conditions behind these are the same ones for a repaired text
  have hbool' : ¬ (repair str = QString.ofLatin1 "true" ∨ repair str =
      QString.ofLatin1 "false") := by
    rwa [QString.repair_eq_iff (by decide), QString.repair_eq_iff (by decide)]
  have hagain : ∀ c', Alike c c' → withText env c' (repair str) =
      if (c.op = .greaterThan ∨ c.op = .lowerThan) ∧ c.suffix = rStateLocaltime ∧
          QString.endsWith str (QString.ofLatin1 "/localtime") = true then
        withReference c' (repair str)
      else if c.op = .equal ∨ c.op = .notEqual ∨ c.op = .greaterThan ∨ c.op = .lowerThan then
        withNumberText env c' (repair str)
      else
        c' := by
    intro c' h
    unfold withText
    rw [h.op, h.suffix, if_neg hduration, if_neg hinterval, if_neg hbool',
      QString.endsWith_repair (by decide)]
  by_cases hreference : (c.op = .greaterThan ∨ c.op = .lowerThan) ∧ c.suffix = rStateLocaltime ∧
      QString.endsWith str (QString.ofLatin1 "/localtime") = true
  · have hfirst : withText env c str = withReference c str := by
      unfold withText
      rw [if_neg hduration, if_neg hinterval, if_neg hbool, if_pos hreference]
    refine .kept ?_ fun c' h => ?_
    · rw [hfirst]
      exact value_withReference c str
    · rw [hfirst, hagain c' h, if_pos hreference]
      exact ⟨h.withReference str, value_withReference c' _⟩
  by_cases hcompared : c.op = .equal ∨ c.op = .notEqual ∨ c.op = .greaterThan ∨ c.op = .lowerThan
  · have hfirst : withText env c str = withNumberText env c str := by
      unfold withText
      rw [if_neg hduration, if_neg hinterval, if_neg hbool, if_neg hreference, if_pos hcompared]
    rw [hfirst] at hvalid
    cases converts_withNumberText env hvalid with
    | replaced v hv h => exact .replaced v hv (hfirst.trans h)
    | kept hvalue hnumber =>
      refine .kept (by rwa [hfirst]) fun c' h => ?_
      rw [hfirst, hagain c' h, if_neg hreference, if_pos hcompared]
      exact hnumber c' h
  · have hfirst : withText env c str = c := by
      unfold withText
      rw [if_neg hduration, if_neg hinterval, if_neg hbool, if_neg hreference, if_neg hcompared]
    refine .kept (by rw [hfirst]) fun c' h => ?_
    rw [hfirst, hagain c' h, if_neg hreference, if_neg hcompared]
    exact ⟨h, rfl⟩

/-! ## The constructor, once more -/

def build (c : RuleCondition D) : RuleCondition D :=
  match c.value with
  | .string str => withNumber env (withText env c str)
  | _ => withNumber env c

theorem ofMap_eq_build (map : List (QString × QVariant D)) :
    ofMap env map = build env (ofAddress env ((QVariant.value map "address").toString env.qt)
      ((QVariant.value map "operator").toString env.qt) (QVariant.value map "value")) := rfl

theorem Alike.withNumber (h : Alike c c') (hvalue : c'.value = c.value) :
    Alike (withNumber env c) (withNumber env c') := by
  unfold RuleCondition.withNumber
  rw [hvalue]
  cases c.value with
  | double _ | int _ =>
    simp only
    split
    · exact ⟨h.suffix, h.op, rfl, h.weekDays, h.time0, h.time1⟩
    · exact ⟨h.suffix, rfl, rfl, h.weekDays, h.time0, h.time1⟩
  | bool b => exact ⟨h.suffix, h.op, rfl, h.weekDays, h.time0, h.time1⟩
  | invalid | string _ | list _ | map _ => exact h

theorem withNumber_string {str : QString} (h : c.value = .string str) : withNumber env c = c := by
  unfold RuleCondition.withNumber
  rw [h]

theorem isValid_of_withNumber (h : (withNumber env c).isValid = true) : c.isValid = true := by
  unfold RuleCondition.withNumber at h
  split at h
  · split at h
    · exact h
    · exact absurd h (by simp [isValid])
  · split at h
    · exact h
    · exact absurd h (by simp [isValid])
  · exact h
  · exact h

/-- `QVariant::toInt` of an integer is that of the number in its text. -/
def ReadsInts (qt : Qt D) : Prop :=
  ∀ n : Int, -2 ^ 31 ≤ n → n < 2 ^ 32 → qt.toInt (.double (qt.toDouble (QString.number n))) =
    qt.toInt (.int n)

/-- The integer of a variant is an `int` or an `unsigned int`. -/
def IntSized (v : QVariant D) : Prop := ∀ n, v = .int n → -2 ^ 31 ≤ n ∧ n < 2 ^ 32

/-- **Building a condition from its own value, as that is read again, changes nothing.** -/
theorem alike_build (hints : ReadsInts env.qt) (h : Alike c c') (hsized : IntSized c.value)
    (hvalid : (build env c).isValid = true)
    (hvalue : c'.value = reread repair env.qt (build env c).value) :
    Alike (build env c) (build env c') := by
  cases hc : c.value with
  | string str =>
    have hfirst : build env c = withNumber env (withText env c str) := by
      unfold build
      rw [hc]
    rw [hfirst] at hvalid hvalue ⊢
    rw [value_withNumber] at hvalue
    cases converts_withText env (isValid_of_withNumber env hvalid) with
    | replaced v hv htext =>
      -- the value is no text any more
      have hread : reread repair env.qt v = v := by
        rcases hv with ⟨b, rfl⟩ | ⟨d, rfl⟩
        · rw [reread]
        · rw [reread]
      rw [htext] at hvalue ⊢
      replace hvalue : c'.value = v := hvalue.trans hread
      have hagain : build env c' = withNumber env c' := by
        unfold build
        rw [hvalue]
        rcases hv with ⟨b, rfl⟩ | ⟨d, rfl⟩
        · rfl
        · rfl
      have hsame : Alike { c with value := v } c' :=
        ⟨h.suffix, h.op, h.num, h.weekDays, h.time0, h.time1⟩
      rw [hagain]
      exact hsame.withNumber env hvalue
    | kept hkept hagain =>
      rw [hkept, hc, reread] at hvalue
      obtain ⟨halike, hsame⟩ := hagain c' h
      have hbuild : build env c' = withNumber env (withText env c' (repair str)) := by
        unfold build
        rw [hvalue]
      rw [hbuild, withNumber_string env (hkept.trans hc),
        withNumber_string env (hsame.trans hvalue)]
      exact halike
  | int n =>
    have hfirst : build env c = withNumber env c := by
      unfold build
      rw [hc]
    rw [hfirst, value_withNumber, hc, reread] at hvalue
    have hagain : build env c' = withNumber env c' := by
      unfold build
      rw [hvalue]
    obtain ⟨hlow, hhigh⟩ := hsized n hc
    rw [hfirst, hagain]
    unfold withNumber
    rw [hc, hvalue]
    simp only
    rw [hints n hlow hhigh]
    cases env.qt.toInt (.int n) with
    | none => exact ⟨h.suffix, rfl, rfl, h.weekDays, h.time0, h.time1⟩
    | some num => exact ⟨h.suffix, h.op, rfl, h.weekDays, h.time0, h.time1⟩
  | bool _ | double _ | invalid =>
    have hfirst : build env c = withNumber env c := by
      unfold build
      rw [hc]
    rw [hfirst, value_withNumber, hc, reread] at hvalue
    have hagain : build env c' = withNumber env c' := by
      unfold build
      rw [hvalue]
    rw [hfirst, hagain]
    exact h.withNumber env (hvalue.trans hc.symm)
  | list _ | map _ =>
    have hfirst : build env c = c := by
      unfold build withNumber
      rw [hc]
    rw [hfirst, hc, reread] at hvalue
    have hagain : build env c' = c' := by
      unfold build withNumber
      rw [hvalue]
    rw [hfirst, hagain]
    exact h

end RuleCondition
end DeconzRest

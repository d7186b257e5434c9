import DeconzRest.Rule.Index
import DeconzRest.Rule.Update

/-!
# The index over a history of rule requests

`IndexStep` is what happens to the rules: a request, or a turn of the timer.  The index
is exact when the items that list an enabled rule are the trigger items of its present
conditions.

Handles are new and the rules keep them (`Numbered`, whatever happens).  That an enabled
rule is listed by trigger items only, and by all of them unless it still waits in the
queue (`Covered`), is kept by every step but an update that leaves a rule enabled
without bringing that about (`KeepsIndex`).  `index_exact_iff` puts both together.
-/

namespace DeconzRest
namespace RuleRequest

open List QString

variable {D : Type}

/-- What happens to the rules. -/
inductive IndexStep where
  | create (apikey content : QString)
  | update (id content : QString)
  | delete (id : QString)
  | fired

namespace IndexStep

def step (env : RuleEnv D) (store : RuleStore D) : IndexStep → RuleStore D
  | .create apikey content => (createRule env store apikey content).1
  | .update id content => (updateRule env store id content).1
  | .delete id => (deleteRule env store id).1
  | .fired => store.fastRuleCheckTimerFired

end IndexStep

/-- **The index is exact**: what lists an enabled rule are its trigger items. -/
def IndexExact (store : RuleStore D) : Prop :=
  ∀ rule ∈ store.rules, rule.isEnabled = true → ∀ key, Lists store.res key rule.handle ↔
    IsTriggerItem store.res rule.conditions key

/-- Only trigger items list the handle, and all of them do unless it is queued. -/
def Covers (res : Resources) (cs : List (RuleCondition D)) (handle : Int) (queued : Prop) : Prop :=
  (∀ key, Lists res key handle → IsTriggerItem res cs key) ∧
    (queued ∨ ∀ key, IsTriggerItem res cs key → Lists res key handle)

/-! ## What an update leaves -/

/-- The status that a body which passes the first checks leaves is "enabled". -/
def LeavesEnabled (env : RuleEnv D) (res : Resources) (map : List (QString × QVariant D)) : Prop :=
  if QVariant.contains map "status" then
    (QVariant.value map "status").toString env.qt = ofLatin1 "enabled"
  else
    ¬ LateError env res map

def NewConditions (env : RuleEnv D) (res : Resources) (map : List (QString × QVariant D)) : Prop :=
  QVariant.contains map "conditions" = true ∧ ¬ LateError env res map

/-- An update that leaves the rule enabled leaves it covered: by the conditions of the
body, queued by it when it has a status, or by those before, in the queue of before. -/
def UpdateCovers (env : RuleEnv D) (store : RuleStore D) (map : List (QString × QVariant D))
    (rule : Rule D) : Prop :=
  LeavesEnabled env store.res map →
    (NewConditions env store.res map →
      Covers store.res (newConditions env (QVariant.value map "conditions").toList) rule.handle
        (QVariant.contains map "status" = true)) ∧
    (¬ NewConditions env store.res map →
      Covers store.res rule.conditions rule.handle (rule.handle ∈ store.fastRuleCheck))

def KeepsIndex (env : RuleEnv D) (store : RuleStore D) : IndexStep → Prop
  | .update id content =>
    ∀ i rule, findRule store.rules id = some (i, rule) → ¬ Refused env id content →
      UpdateCovers env store (bodyMap env content) rule
  | _ => True

section Update

variable {env : RuleEnv D} {res : Resources} {id content : QString}
  {map : List (QString × QVariant D)} {rule : Rule D}

theorem lateError_marked (h : LateError env res map) :
    (QVariant.contains map "actions" || QVariant.contains map "conditions") = true := by
  rcases h with h | h
  · rw [h.1, Bool.true_or]
  · rw [h.1, Bool.or_true]

theorem applyUpdate_of_lateError (h : LateError env res map) (id : QString) (rule : Rule D) :
    ((applyUpdate env res id map rule).rule = writeFields env map rule ∨
        (applyUpdate env res id map rule).rule =
          exchangeActions env map (writeFields env map rule)) ∧
      (applyUpdate env res id map rule).indexed = none := by
  by_cases hactions : ActionsFail env map
  · obtain ⟨hrule, hindexed, -⟩ := applyUpdate_of_actionsFail hactions res id rule
    exact ⟨.inl hrule, hindexed⟩
  · obtain ⟨hrule, hindexed, -⟩ :=
      applyUpdate_of_conditionsFail hactions (h.resolve_left hactions) id rule
    exact ⟨.inr hrule, hindexed⟩

theorem exchangeActions_eq (map : List (QString × QVariant D)) (rule : Rule D) :
    ∃ actions, exchangeActions env map rule = { rule with actions := actions } := by
  unfold exchangeActions
  split
  · exact ⟨_, rfl⟩
  · exact ⟨rule.actions, rfl⟩

theorem lateError_rule (h : LateError env res map) (id : QString) (rule : Rule D) :
    ((applyUpdate env res id map rule).rule.isEnabled = true ↔ LeavesEnabled env res map) ∧
      (applyUpdate env res id map rule).rule.conditions = rule.conditions ∧
      (applyUpdate env res id map rule).rule.handle = rule.handle := by
  have hmarked := lateError_marked h
  have hfields : ((writeFields env map rule).isEnabled = true ↔ LeavesEnabled env res map) ∧
      (writeFields env map rule).conditions = rule.conditions ∧
      (writeFields env map rule).handle = rule.handle := by
    rw [writeFields_eq, if_pos hmarked]
    refine ⟨?_, rfl, rfl⟩
    unfold Rule.isEnabled LeavesEnabled
    rw [decide_eq_true_eq]
    simp only
    cases QVariant.contains map "status" with
    | true => exact Iff.rfl
    | false =>
      -- without a status the mark stays
      have hne : ofLatin1 "disabled" ≠ ofLatin1 "enabled" := by decide
      exact ⟨fun heq => absurd heq hne, fun hnot => absurd h hnot⟩
  rcases (applyUpdate_of_lateError h id rule).1 with hrule | hrule
  · rw [hrule]
    exact hfields
  · obtain ⟨actions, hexchanged⟩ := @exchangeActions_eq D env map (writeFields env map rule)
    rw [hrule, hexchanged]
    exact hfields

theorem ok_rule (h : ¬ LateError env res map) (id : QString) (rule : Rule D) :
    ((applyUpdate env res id map rule).rule.isEnabled = true ↔ LeavesEnabled env res map) ∧
      (applyUpdate env res id map rule).rule.conditions =
        (if QVariant.contains map "conditions" then
          newConditions env (QVariant.value map "conditions").toList
        else rule.conditions) ∧
      (applyUpdate env res id map rule).rule.handle = rule.handle := by
  unfold LateError at h
  rw [not_or] at h
  rw [(applyUpdate_of_ok h.1 h.2 id rule).1, finished_eq]
  refine ⟨?_, rfl, rfl⟩
  unfold Rule.isEnabled LeavesEnabled
  rw [decide_eq_true_eq]
  simp only
  cases QVariant.contains map "status" with
  | true => exact Iff.rfl
  | false => exact ⟨fun _ hlate => hlate.elim h.1 h.2, fun _ => rfl⟩

theorem ok_indexed (h : ¬ LateError env res map) (id : QString) (rule : Rule D) :
    (QVariant.contains map "conditions" = true →
      ∃ indexed, (applyUpdate env res id map rule).indexed = some indexed ∧ indexed.handle =
        rule.handle ∧
        indexed.status = if QVariant.contains map "status" then
            (QVariant.value map "status").toString env.qt
          else ofLatin1 "disabled") ∧
      (QVariant.contains map "conditions" = false → (applyUpdate env res id map rule).indexed =
        none) := by
  unfold LateError at h
  rw [not_or] at h
  rw [(applyUpdate_of_ok h.1 h.2 id rule).2.1]
  constructor
  · intro hkey
    rw [if_pos hkey]
    refine ⟨_, rfl, ?_⟩
    obtain ⟨actions, hexchanged⟩ := @exchangeActions_eq D env map (writeFields env map rule)
    unfold exchangeConditions
    rw [if_pos hkey, hexchanged, writeFields_eq]
    simp [hkey]
  · intro hkey
    rw [hkey]
    rfl

end Update

/-! ## Handles -/

/-- Rules have handles of their own, counted up from one, and items list no others. -/
structure Numbered (store : RuleStore D) : Prop where
  distinct : ∀ (i j : Nat) (x y : Rule D), store.rules[i]? = some x → store.rules[j]? = some y →
    x.handle = y.handle → i = j
  positive : ∀ x ∈ store.rules, 0 < x.handle
  below : ∀ x ∈ store.rules, x.handle < store.ruleHandle
  listed : ∀ key handle, Lists store.res key handle → handle < store.ruleHandle
  started : 0 < store.ruleHandle

namespace Numbered

variable {store store' : RuleStore D}

theorem eq_of_handle (h : Numbered store) {x y : Rule D} (hx : x ∈ store.rules)
    (hy : y ∈ store.rules) (heq : x.handle = y.handle) : x = y := by
  obtain ⟨i, hi⟩ := mem_iff_getElem?.mp hx
  obtain ⟨j, hj⟩ := mem_iff_getElem?.mp hy
  have hij := h.distinct i j x y hi hj heq
  rw [hij, hj] at hi
  exact (Option.some.inj hi).symm

theorem set (h : Numbered store) {i : Nat} {rule rule' : Rule D}
    (hrule : store.rules[i]? = some rule) (hhandle : rule'.handle = rule.handle)
    (hrules : store'.rules = store.rules.set i rule') (hres : store'.res = store.res)
    (hcount : store'.ruleHandle = store.ruleHandle) : Numbered store' := by
  have hback : ∀ (j : Nat) (x : Rule D), store'.rules[j]? = some x → ∃ y, store.rules[j]? = some y ∧
      y.handle = x.handle := by
    intro j x hx
    rw [hrules] at hx
    by_cases hj : j = i
    · subst hj
      obtain ⟨hlt, -⟩ := List.getElem?_eq_some_iff.mp hrule
      rw [List.getElem?_set_self hlt] at hx
      rw [← Option.some.inj hx]
      exact ⟨rule, hrule, hhandle.symm⟩
    · rw [List.getElem?_set_ne (Ne.symm hj)] at hx
      exact ⟨x, hx, rfl⟩
  have hmem : ∀ x ∈ store'.rules, ∃ y ∈ store.rules, y.handle = x.handle := by
    intro x hx
    obtain ⟨j, hj⟩ := mem_iff_getElem?.mp hx
    obtain ⟨y, hy, heq⟩ := hback j x hj
    exact ⟨y, mem_of_getElem? hy, heq⟩
  refine ⟨fun j k x y hx hy heq => ?_, fun x hx => ?_, fun x hx => ?_, ?_, ?_⟩
  · obtain ⟨x', hx', hxx⟩ := hback j x hx
    obtain ⟨y', hy', hyy⟩ := hback k y hy
    exact h.distinct j k x' y' hx' hy' (by rw [hxx, hyy, heq])
  · obtain ⟨y, hy, heq⟩ := hmem x hx
    rw [← heq]
    exact h.positive y hy
  · obtain ⟨y, hy, heq⟩ := hmem x hx
    rw [← heq, hcount]
    exact h.below y hy
  · rw [hres, hcount]
    exact h.listed
  · rw [hcount]
    exact h.started

theorem append (h : Numbered store) {rule : Rule D} (hnew : store.ruleHandle ≤ rule.handle)
    (hrules : store'.rules = store.rules ++ [rule]) (hres : store'.res = store.res)
    (hcount : store'.ruleHandle = rule.handle + 1) : Numbered store' := by
  have hget : ∀ (i : Nat) (x : Rule D), store'.rules[i]? = some x → store.rules[i]? = some x ∨
      (i = store.rules.length ∧ x = rule) := by
    intro i x hx
    rw [hrules, List.getElem?_append] at hx
    split at hx
    · exact .inl hx
    · obtain ⟨hlt, heq⟩ := List.getElem?_eq_some_iff.mp hx
      rw [length_singleton] at hlt
      refine .inr ⟨by omega, ?_⟩
      rw [← heq, getElem_singleton]
  have hmem : ∀ x ∈ store'.rules, x ∈ store.rules ∨ x = rule := by
    intro x hx
    rw [hrules, mem_append, mem_singleton] at hx
    exact hx
  have hbelow : ∀ (i : Nat) (x : Rule D), store.rules[i]? = some x → x.handle < rule.handle := by
    intro i x hx
    have hlt := h.below x (mem_of_getElem? hx)
    omega
  have hstarted := h.started
  refine ⟨fun i j x y hx hy heq => ?_, fun x hx => ?_, fun x hx => ?_, fun key handle hl => ?_, ?_⟩
  · rcases hget i x hx with hx | ⟨hi, rfl⟩
    · rcases hget j y hy with hy | ⟨-, rfl⟩
      · exact h.distinct i j x y hx hy heq
      · have hlt := hbelow i x hx
        omega
    · rcases hget j y hy with hy | ⟨hj, -⟩
      · have hlt := hbelow j y hy
        omega
      · rw [hi, hj]
  · rcases hmem x hx with hx | rfl
    · exact h.positive x hx
    · omega
  · rw [hcount]
    rcases hmem x hx with hx | rfl
    · have hlt := h.below x hx
      omega
    · omega
  · rw [hres] at hl
    rw [hcount]
    have hlt := h.listed key handle hl
    omega
  · rw [hcount]
    omega

end Numbered

/-! ## The queue behind an update -/

section Update

variable {env : RuleEnv D} {store : RuleStore D} {id content : QString}
  {map : List (QString × QVariant D)} {i : Nat} {rule : Rule D}

theorem updateFound_handle (res : Resources) (id content : QString) (rule : Rule D) :
    (updateFound env res id content rule).rule.handle = rule.handle := by
  by_cases hrefused : Refused env id content
  · rw [(updateFound_of_refused hrefused res rule).1]
  · rw [updateFound_of_not_refused hrefused]
    by_cases hlate : LateError env res (bodyMap env content)
    · exact (lateError_rule hlate id rule).2.2
    · exact (ok_rule hlate id rule).2.2

theorem res_storeUpdated (store : RuleStore D) (i : Nat) (u : Updated D) :
    (storeUpdated store i u).res = store.res ∧ (storeUpdated store i u).ruleHandle =
      store.ruleHandle := by
  unfold storeUpdated
  split <;> exact ⟨rfl, rfl⟩

theorem mem_indexRulesTriggers (store : RuleStore D) (handle : Int) :
    handle ∈ store.indexRulesTriggers.fastRuleCheck ↔ ∃ x ∈
      store.rules, startsWith x.status (ofLatin1 "e") = true ∧ x.handle =
        handle := by
  show handle ∈ (store.rules.filter fun rule =>
    startsWith rule.status (ofLatin1 "e")).map Rule.handle ↔ _
  simp [and_assoc]

theorem startsWith_of_isEnabled {rule : Rule D} (h : rule.isEnabled = true) :
    startsWith rule.status (ofLatin1 "e") = true := by
  rw [of_decide_eq_true h]
  decide

theorem mem_queue_of_indexed (hnumbered : Numbered store) (hrule : store.rules[i]? = some rule)
    {u : Updated D} {indexed : Rule D} (hu : u.indexed = some indexed)
    (hhandle : indexed.handle = rule.handle) :
    rule.handle ∈ (storeUpdated store i u).fastRuleCheck ↔
      startsWith indexed.status (ofLatin1 "e") = true := by
  have hqueue : (storeUpdated store i u).fastRuleCheck =
      (store.setRule i indexed).indexRulesTriggers.fastRuleCheck := by
    unfold storeUpdated
    rw [hu]
    rfl
  have hmid : Numbered (store.setRule i indexed) := hnumbered.set hrule hhandle rfl rfl rfl
  obtain ⟨hlt, -⟩ := List.getElem?_eq_some_iff.mp hrule
  have hmem : indexed ∈ (store.setRule i indexed).rules :=
    mem_of_getElem? (List.getElem?_set_self hlt)
  rw [hqueue, mem_indexRulesTriggers]
  constructor
  · rintro ⟨x, hx, hstatus, heq⟩
    have hsame : x = indexed := hmid.eq_of_handle hx hmem (heq.trans hhandle.symm)
    rw [← hsame]
    exact hstatus
  · intro hstatus
    exact ⟨indexed, hmem, hstatus, hhandle⟩

theorem updateCovers_iff (hnumbered : Numbered store) (hrule : store.rules[i]? = some rule)
    (id : QString) :
    UpdateCovers env store map rule ↔
      ((applyUpdate env store.res id map rule).rule.isEnabled = true →
        Covers store.res (applyUpdate env store.res id map rule).rule.conditions
          (applyUpdate env store.res id map rule).rule.handle
          ((applyUpdate env store.res id map rule).rule.handle ∈
            (storeUpdated store i (applyUpdate env store.res id map rule)).fastRuleCheck)) := by
  have hkept : (applyUpdate env store.res id map rule).indexed = none →
      (storeUpdated store i (applyUpdate env store.res id map rule)).fastRuleCheck =
        store.fastRuleCheck := by
    intro hnone
    unfold storeUpdated
    rw [hnone]
    rfl
  unfold UpdateCovers NewConditions
  by_cases hlate : LateError env store.res map
  · -- an error: the conditions and the queue stay
    obtain ⟨henabled, hconditions, hhandle⟩ := lateError_rule hlate id rule
    rw [henabled, hconditions, hhandle, hkept (applyUpdate_of_lateError hlate id rule).2]
    simp [hlate]
  · obtain ⟨henabled, hconditions, hhandle⟩ := ok_rule hlate id rule
    obtain ⟨hwith, hwithout⟩ := ok_indexed hlate id rule
    rw [henabled, hconditions, hhandle]
    cases hkey : QVariant.contains map "conditions" with
    | false =>
      rw [hkept (hwithout hkey)]
      simp
    | true =>
      -- new conditions: the queue is made anew
      obtain ⟨indexed, hindexed, hsame, hstatus⟩ := hwith hkey
      rw [mem_queue_of_indexed hnumbered hrule hindexed hsame, hstatus]
      simp only [hlate, not_false_eq_true, and_self, true_implies, not_true_eq_false, false_implies,
        and_true, if_true]
      apply forall_congr'
      intro hleaves
      unfold LeavesEnabled at hleaves
      cases hhas : QVariant.contains map "status" with
      | true =>
        rw [hhas, if_pos rfl] at hleaves
        have hqueued : startsWith (ofLatin1 "enabled")
            (ofLatin1 "e") = true := by decide
        rw [if_pos rfl, hleaves, hqueued]
      | false =>
        have hqueued : startsWith (ofLatin1 "disabled")
            (ofLatin1 "e") = false := by decide
        rw [if_neg Bool.false_ne_true, hqueued]

end Update

theorem lists_fired {store : RuleStore D} {key : ItemKey} {handle : Int}
    (h : Lists store.fastRuleCheckTimerFired.res key handle) :
    Lists store.res key handle ∨ handle ∈ store.fastRuleCheck := by
  rcases store.fired_cases with ⟨heq, -⟩ | ⟨rule, -, queue', hmem, -, heq, -⟩
  · rw [heq] at h
    exact .inl h
  · rw [heq] at h
    rcases (lists_indexRuleTriggers store.res rule key handle).mp h with hold | ⟨rfl, -⟩
    · exact .inl hold
    · exact .inr hmem

theorem numbered_step (env : RuleEnv D) (store : RuleStore D) (a : IndexStep)
    (h : Numbered store) : Numbered (a.step env store) := by
  cases a with
  | create apikey content =>
    show Numbered (createRule env store apikey content).1
    rcases @createRule_cases D env store apikey content with
      ⟨⟨ruleHandle, hle, heq⟩, -⟩ | ⟨⟨rule, hle, heq⟩, -⟩
    · rw [heq]
      have hstarted := h.started
      exact ⟨h.distinct, h.positive, fun x hx => Int.lt_of_lt_of_le (h.below x hx) hle,
        fun key handle hl => Int.lt_of_lt_of_le (h.listed key handle hl) hle,
        Int.lt_of_lt_of_le hstarted hle⟩
    · rw [heq]
      exact h.append hle rfl rfl rfl
  | update id content =>
    show Numbered (updateRule env store id content).1
    cases hfind : findRule store.rules id with
    | none =>
      unfold updateRule
      rw [hfind]
      exact h
    | some found =>
      obtain ⟨i, rule⟩ := found
      rw [updateRule_found hfind]
      obtain ⟨hres, hcount⟩ :=
        res_storeUpdated store i (updateFound env store.res id content rule)
      exact h.set (findRule_eq_some hfind).1 (updateFound_handle store.res id content rule)
        (rules_storeUpdated _ _ _) hres hcount
  | delete id =>
    show Numbered (deleteRule env store id).1
    unfold deleteRule
    cases hfind : findRule store.rules id with
    | none => exact h
    | some found =>
      obtain ⟨i, rule⟩ := found
      exact @Numbered.set D store _ h i rule { rule with
        state := .deleted, status := ofLatin1 "disabled" }
        (findRule_eq_some hfind).1 rfl rfl rfl rfl
  | fired =>
    show Numbered store.fastRuleCheckTimerFired
    rcases store.fired_cases with ⟨heq, -⟩ | ⟨rule, hrule, queue', -, -, heq, -⟩
    · rw [heq]
      exact ⟨h.distinct, h.positive, h.below, h.listed, h.started⟩
    · rw [heq]
      refine ⟨h.distinct, h.positive, h.below, fun key handle hl => ?_, h.started⟩
      rcases (lists_indexRuleTriggers store.res rule key handle).mp hl with hold | ⟨rfl, -⟩
      · exact h.listed key handle hold
      · exact h.below rule hrule

/-! ## What a step does to the covered rules -/

def Covered (store : RuleStore D) : Prop :=
  ∀ rule ∈ store.rules, rule.isEnabled = true →
    Covers store.res rule.conditions rule.handle (rule.handle ∈ store.fastRuleCheck)

theorem Covers.mono {res : Resources} {cs : List (RuleCondition D)} {handle : Int}
    {queued queued' : Prop} (h : Covers res cs handle queued) (himp : queued → queued') :
    Covers res cs handle queued' :=
  ⟨h.1, h.2.imp_left himp⟩

theorem covers_other {store : RuleStore D} (hcovered : Covered store) {i j : Nat} (hij : j ≠ i)
    (u : Updated D) {x : Rule D} (hx : store.rules[j]? = some x) (henabled : x.isEnabled = true) :
    Covers store.res x.conditions x.handle
      (x.handle ∈ (storeUpdated store i u).fastRuleCheck) := by
  have hold := hcovered x (mem_of_getElem? hx) henabled
  unfold storeUpdated
  cases hindexed : u.indexed with
  | none => exact hold
  | some indexed =>
    refine hold.mono fun _ => ?_
    show x.handle ∈ (store.setRule i indexed).indexRulesTriggers.fastRuleCheck
    rw [mem_indexRulesTriggers]
    refine ⟨x, ?_, startsWith_of_isEnabled henabled, rfl⟩
    apply mem_of_getElem?
    show (store.rules.set i indexed)[j]? = some x
    rw [List.getElem?_set_ne (Ne.symm hij), hx]

theorem covered_update {env : RuleEnv D} {store : RuleStore D} (hnumbered : Numbered store)
    (hcovered : Covered store) {id content : QString} {i : Nat} {rule : Rule D}
    (hfind : findRule store.rules id = some (i, rule))
    (hkeeps : ¬ Refused env id content → UpdateCovers env store (bodyMap env content) rule) :
    Covered (storeUpdated store i (updateFound env store.res id content rule)) := by
  obtain ⟨hrule, -⟩ := findRule_eq_some hfind
  intro x hx henabled
  rw [(res_storeUpdated store i _).1]
  rw [rules_storeUpdated] at hx
  obtain ⟨j, hj⟩ := mem_iff_getElem?.mp hx
  by_cases hij : j = i
  · subst hij
    obtain ⟨hlt, -⟩ := List.getElem?_eq_some_iff.mp hrule
    rw [List.getElem?_set_self hlt] at hj
    have hself := Option.some.inj hj
    subst hself
    by_cases hrefused : Refused env id content
    · obtain ⟨hsame, hnone, -⟩ := updateFound_of_refused hrefused store.res rule
      have hqueue : (storeUpdated store j
          (updateFound env store.res id content rule)).fastRuleCheck = store.fastRuleCheck := by
        unfold storeUpdated
        rw [hnone]
        rfl
      rw [hsame] at henabled
      rw [hqueue, hsame]
      exact hcovered rule (mem_of_getElem? hrule) henabled
    · have hcovers := (updateCovers_iff hnumbered hrule id).mp (hkeeps hrefused)
      rw [updateFound_of_not_refused hrefused] at henabled ⊢
      exact hcovers henabled
  · rw [List.getElem?_set_ne (Ne.symm hij)] at hj
    exact covers_other hcovered hij _ hj henabled

theorem covered_fired {store : RuleStore D} (hnumbered : Numbered store)
    (hcovered : Covered store) : Covered store.fastRuleCheckTimerFired := by
  have hbusy : ∀ x ∈ store.rules, ¬ RuleStore.Idle store.rules x.handle := by
    intro x hx hidle
    rcases hidle with hzero | hnone
    · have hpos := hnumbered.positive x hx
      omega
    · exact hnone x hx rfl
  rcases store.fired_cases with ⟨heq, hidle⟩ | ⟨rule, hrule, queue', -, -, heq, hkept, -⟩
  · rw [heq]
    intro x hx henabled
    have hold := hcovered x hx henabled
    exact hold.mono fun hqueued => absurd (hidle _ hqueued) (hbusy x hx)
  · rw [heq]
    intro x hx henabled
    obtain ⟨hsub, hall⟩ := hcovered x hx henabled
    have hsame := sameItems_indexRuleTriggers store.res rule
    constructor
    · intro key hlists
      rw [hsame.isTriggerItem_iff]
      rcases (lists_indexRuleTriggers store.res rule key x.handle).mp hlists with
        hold | ⟨hhandle, htrigger⟩
      · exact hsub key hold
      · have hself : x = rule := hnumbered.eq_of_handle hx hrule hhandle
        rw [hself]
        exact htrigger
    · by_cases hhandle : x.handle = rule.handle
      · have hself : x = rule := hnumbered.eq_of_handle hx hrule hhandle
        refine .inr fun key htrigger => ?_
        rw [hsame.isTriggerItem_iff] at htrigger
        rw [hself] at htrigger ⊢
        exact (lists_indexRuleTriggers store.res rule key rule.handle).mpr
          (.inr ⟨rfl, htrigger⟩)
      · rcases hall with hqueued | hall
        · rcases hkept x.handle hqueued with hin | heq' | hidle
          · exact .inl hin
          · exact absurd heq' hhandle
          · exact absurd hidle (hbusy x hx)
        · refine .inr fun key htrigger => ?_
          rw [hsame.isTriggerItem_iff] at htrigger
          exact (lists_indexRuleTriggers store.res rule key x.handle).mpr
            (.inl (hall key htrigger))

theorem covered_step (env : RuleEnv D) (store : RuleStore D) (a : IndexStep)
    (hkeeps : KeepsIndex env store a) (h : Numbered store ∧ Covered store) :
    Numbered (a.step env store) ∧ Covered (a.step env store) := by
  obtain ⟨hnumbered, hcovered⟩ := h
  refine ⟨numbered_step env store a hnumbered, ?_⟩
  cases a with
  | create apikey content =>
    show Covered (createRule env store apikey content).1
    rcases @createRule_cases D env store apikey content with
      ⟨⟨ruleHandle, -, heq⟩, -⟩ | ⟨⟨rule, hle, heq⟩, -⟩
    · rw [heq]
      exact hcovered
    · rw [heq]
      intro x hx henabled
      have hqueued : x.handle ∈ (RuleStore.indexRulesTriggers { store with
          ruleHandle := rule.handle + 1, rules := store.rules ++ [rule] }).fastRuleCheck := by
        rw [mem_indexRulesTriggers]
        exact ⟨x, hx, startsWith_of_isEnabled henabled, rfl⟩
      refine ⟨fun key hlists => ?_, .inl hqueued⟩
      rcases mem_append.mp hx with hx | hx
      · exact (hcovered x hx henabled).1 key hlists
      · -- nothing lists the new handle
        have hlt := hnumbered.listed key x.handle hlists
        rw [mem_singleton.mp hx] at hlt
        omega
  | update id content =>
    show Covered (updateRule env store id content).1
    cases hfind : findRule store.rules id with
    | none =>
      unfold updateRule
      rw [hfind]
      exact hcovered
    | some found =>
      obtain ⟨i, rule⟩ := found
      rw [updateRule_found hfind]
      exact covered_update hnumbered hcovered hfind (hkeeps i rule hfind)
  | delete id =>
    show Covered (deleteRule env store id).1
    unfold deleteRule
    cases hfind : findRule store.rules id with
    | none => exact hcovered
    | some found =>
      obtain ⟨i, rule⟩ := found
      intro x hx henabled
      rcases mem_or_eq_of_mem_set hx with hx | rfl
      · exact hcovered x hx henabled
      · have hoff : ofLatin1 "disabled" ≠ ofLatin1 "enabled" := by decide
        exact absurd (of_decide_eq_true henabled) hoff
  | fired => exact covered_fired hnumbered hcovered

/-! ## The drained queue -/

theorem fire_spec (n : Nat) (store : RuleStore D) :
    (store.fire n).rules = store.rules ∧ SameItems store.res (store.fire n).res ∧
      (∀ key handle, Lists store.res key handle → Lists (store.fire n).res key handle) ∧
      ∀ key handle, handle ≠ 0 → Lists (store.fire n).res key handle → Lists store.res key handle ∨
        handle ∈ store.fastRuleCheck := by
  induction n generalizing store with
  | zero => exact ⟨rfl, SameItems.refl _, fun _ _ h => h, fun _ _ _ h => .inl h⟩
  | succ n ih =>
    obtain ⟨hrules, hsame, hkeep, hnew⟩ := ih store.fastRuleCheckTimerFired
    have hnext : store.fastRuleCheckTimerFired.rules = store.rules ∧
        SameItems store.res store.fastRuleCheckTimerFired.res ∧
        (∀ key handle, Lists store.res key handle →
          Lists store.fastRuleCheckTimerFired.res key handle) ∧
        ∀ handle ∈ store.fastRuleCheckTimerFired.fastRuleCheck, handle = 0 ∨ handle ∈
          store.fastRuleCheck := by
      rcases store.fired_cases with ⟨heq, -⟩ | ⟨rule, -, queue', -, -, heq, -, hsub, -⟩
      · rw [heq]
        exact ⟨rfl, SameItems.refl _, fun _ _ h => h, fun _ h => absurd h not_mem_nil⟩
      · rw [heq]
        exact ⟨rfl, sameItems_indexRuleTriggers _ _, fun key handle h =>
          (lists_indexRuleTriggers store.res rule key handle).mpr (.inl h), hsub⟩
    obtain ⟨hrules', hsame', hkeep', hsub⟩ := hnext
    refine ⟨hrules.trans hrules', hsame'.trans hsame,
      fun key handle h => hkeep key handle (hkeep' key handle h), fun key handle hne h => ?_⟩
    rcases hnew key handle hne h with hlists | hqueued
    · exact lists_fired hlists
    · exact .inr ((hsub handle hqueued).resolve_left hne)

theorem exact_of_covered {store : RuleStore D} (hnumbered : Numbered store)
    (hcovered : Covered store) (hdrained : store.Drained) : IndexExact store := by
  intro rule hrule henabled key
  obtain ⟨hsub, hall⟩ := hcovered rule hrule henabled
  have hnot : rule.handle ∉ store.fastRuleCheck := by
    intro hqueued
    have hzero := hdrained rule.handle hqueued
    have hpos := hnumbered.positive rule hrule
    omega
  exact ⟨hsub key, hall.resolve_left hnot key⟩

theorem covers_of_exact {store : RuleStore D} {n : Nat} (hexact : IndexExact (store.fire n))
    {rule : Rule D} (hrule : rule ∈ store.rules) (hhandle : rule.handle ≠ 0)
    (henabled : rule.isEnabled = true) :
    Covers store.res rule.conditions rule.handle (rule.handle ∈ store.fastRuleCheck) := by
  obtain ⟨hrules, hsame, hkeep, hnew⟩ := fire_spec n store
  have hiff := hexact rule (by rw [hrules]; exact hrule) henabled
  simp only [hsame.isTriggerItem_iff] at hiff
  refine ⟨fun key hlists => (hiff key).mp (hkeep key _ hlists), ?_⟩
  by_cases hqueued : rule.handle ∈ store.fastRuleCheck
  · exact .inl hqueued
  · refine .inr fun key htrigger => ?_
    exact (hnew key _ hhandle ((hiff key).mpr htrigger)).resolve_right hqueued

theorem keepsIndex_of_exact {env : RuleEnv D} {store : RuleStore D} (hnumbered : Numbered store)
    {a : IndexStep} {n : Nat} (hexact : IndexExact ((a.step env store).fire n)) :
    KeepsIndex env store a := by
  cases a with
  | create apikey content => exact trivial
  | delete id => exact trivial
  | fired => exact trivial
  | update id content =>
    intro i rule hfind hrefused
    have hrule := (findRule_eq_some hfind).1
    rw [updateCovers_iff hnumbered hrule id]
    intro henabled
    have hstep : IndexStep.step env store (.update id content) =
        storeUpdated store i (applyUpdate env store.res id (bodyMap env content) rule) := by
      show (updateRule env store id content).1 = _
      rw [updateRule_found hfind, updateFound_of_not_refused hrefused]
    rw [hstep] at hexact
    obtain ⟨hlt, -⟩ := List.getElem?_eq_some_iff.mp hrule
    have hmem : (applyUpdate env store.res id (bodyMap env content) rule).rule ∈
        (storeUpdated store i
          (applyUpdate env store.res id (bodyMap env content) rule)).rules := by
      rw [rules_storeUpdated]
      exact mem_of_getElem? (List.getElem?_set_self hlt)
    have hhandle : (applyUpdate env store.res id (bodyMap env content) rule).rule.handle ≠ 0 := by
      have hsame := @updateFound_handle D env store.res id content rule
      rw [updateFound_of_not_refused hrefused] at hsame
      have hpos := hnumbered.positive rule (mem_of_getElem? hrule)
      omega
    have hcovers := covers_of_exact hexact hmem hhandle henabled
    rw [(res_storeUpdated store i _).1] at hcovers
    exact hcovers

theorem numbered_start {res : Resources}
    (hres : ∀ key it, res.items key = some it → it.rulesInvolved = []) :
    Numbered ({ res := res } : RuleStore D) := by
  refine ⟨fun i j x y hx => ?_, fun x hx => absurd hx not_mem_nil,
    fun x hx => absurd hx not_mem_nil, fun key handle hlists => ?_, Int.one_pos⟩
  · cases hx
  · obtain ⟨it, hitem, hmem⟩ := hlists
    rw [hres key it hitem] at hmem
    exact absurd hmem not_mem_nil

/-- **When the index is exact.**  Over every history that starts without rules: whenever
the queue is drained the index is exact, if and only if every step keeps it. -/
theorem index_exact_iff (env : RuleEnv D) {res : Resources}
    (hres : ∀ key it, res.items key = some it → it.rulesInvolved = []) (acts : List IndexStep) :
    (∀ k n, k ≤ acts.length →
        ((Transition.stateAt (IndexStep.step env) { res := res } acts k).fire n).Drained →
        IndexExact ((Transition.stateAt (IndexStep.step env) { res := res } acts k).fire n)) ↔
      Transition.AllSteps (IndexStep.step env) (KeepsIndex env) { res := res } acts := by
  have hstart : Numbered ({ res := res } : RuleStore D) := numbered_start hres
  constructor
  · intro hexact k hk
    have hnumbered : Numbered (Transition.stateAt (IndexStep.step env) { res := res } acts k) :=
      Transition.run_invariant (numbered_step env) hstart (acts.take k)
    -- drain the queue behind the step
    have hdrain := hexact (k + 1) _ hk (RuleStore.drained_fire _ _ (Nat.lt_succ_self _))
    rw [Transition.stateAt_succ _ _ _ hk] at hdrain
    exact keepsIndex_of_exact hnumbered hdrain
  · intro hkeeps k n hk hdrained
    have hcovered0 : Covered ({ res := res } : RuleStore D) :=
      fun rule hrule => absurd hrule not_mem_nil
    have hinv : Numbered (Transition.stateAt (IndexStep.step env) { res := res } acts k) ∧
        Covered (Transition.stateAt (IndexStep.step env) { res := res } acts k) := by
      refine @Transition.stateAt_induction _ _ (IndexStep.step env) { res := res } acts
        (fun _ store => Numbered store ∧ Covered store) ⟨hstart, hcovered0⟩ ?_ k hk
      exact fun k hk h => covered_step env _ _ (hkeeps k hk) h
    have hfire : ∀ m (store : RuleStore D), Numbered store ∧ Covered store →
        Numbered (store.fire m) ∧ Covered (store.fire m) := by
      intro m
      induction m with
      | zero => exact fun _ h => h
      | succ m ih =>
        intro store h
        exact ih _ ⟨numbered_step env store .fired h.1, covered_fired h.1 h.2⟩
    obtain ⟨hnumbered, hcovered⟩ := hfire n _ hinv
    exact exact_of_covered hnumbered hcovered hdrained

theorem res_run_requests (env : RuleEnv D) (store : RuleStore D) (acts : List IndexStep)
    (hrequests : ∀ a ∈ acts, a ≠ .fired) :
    (Transition.run (IndexStep.step env) store acts).res = store.res := by
  induction acts generalizing store with
  | nil => rfl
  | cons a acts ih =>
    rw [Transition.run_cons, ih _ fun b hb => hrequests b (.tail a hb)]
    cases a with
    | create apikey content =>
      show (createRule env store apikey content).1.res = store.res
      rcases @createRule_cases D env store apikey content with
        ⟨⟨ruleHandle, -, heq⟩, -⟩ | ⟨⟨rule, -, heq⟩, -⟩
      · rw [heq]
      · rw [heq]
        rfl
    | update id content =>
      show (updateRule env store id content).1.res = store.res
      unfold updateRule
      split
      · rfl
      · exact (res_storeUpdated store _ _).1
    | delete id =>
      show (deleteRule env store id).1.res = store.res
      unfold deleteRule
      split <;> rfl
    | fired => exact absurd rfl (hrequests _ mem_cons_self)

def buttonRule : QString := ofLatin1
  ("\x7b\"name\":\"a\",\"conditions\":[\x7b\"address\":\"/sensors/1/state/buttonevent\"," ++
    "\"operator\":\"dx\"\x7d],\"actions\":[\x7b\"address\":\"/lights/1/state\",\"method\":\"PUT\"," ++
    "\"body\":\x7b\x7d\x7d]\x7d")

def buttonConditions : QString := ofLatin1
  ("\x7b\"conditions\":[\x7b\"address\":\"/sensors/1/state/buttonevent\"," ++
    "\"operator\":\"dx\"\x7d]\x7d")

def quickUpdate : List IndexStep :=
  [.create [] buttonRule, .update (ofLatin1 "1") buttonConditions]

theorem oneSensor_unlisted :
    ∀ key it, (Resources.oneSensor {}).items key = some it → it.rulesInvolved = [] := by
  intro key it h
  unfold Resources.oneSensor at h
  simp only at h
  split_ifs at h
  · cases h
    rfl
  · cases h
    rfl

theorem index_exact_iff_quickUpdate :
    (∀ k n, k ≤ quickUpdate.length →
        ((Transition.stateAt (IndexStep.step RuleEnv.utc) { res := Resources.oneSensor {} }
          quickUpdate k).fire n).Drained →
        IndexExact ((Transition.stateAt (IndexStep.step RuleEnv.utc)
          { res := Resources.oneSensor {} } quickUpdate k).fire n)) ↔
      Transition.AllSteps (IndexStep.step RuleEnv.utc) (KeepsIndex RuleEnv.utc)
        { res := Resources.oneSensor {} } quickUpdate :=
  index_exact_iff RuleEnv.utc oneSensor_unlisted quickUpdate

def quickUpdated : RuleStore Int :=
  Transition.run (IndexStep.step RuleEnv.utc) { res := Resources.oneSensor {} } quickUpdate

theorem quickUpdated_state :
    (quickUpdated.fastRuleCheck, quickUpdated.rules.map (fun rule =>
      (rule.isEnabled, indexItems (Resources.oneSensor {}) rule.conditions))) =
        ([], [(true, [(1, "state/buttonevent")])]) := by
  decide +kernel

/-- **Updated conditions are never indexed.**  The queue is empty, the rule is enabled, and
its button does not list it. -/
theorem quickUpdate_not_indexed :
    (∀ key it, (Resources.oneSensor {}).items key = some it → it.rulesInvolved = []) ∧
      quickUpdated.Drained ∧ ¬ IndexExact quickUpdated := by
  obtain ⟨hqueue, hrules⟩ := Prod.mk.inj quickUpdated_state
  refine ⟨oneSensor_unlisted, fun handle hhandle => ?_, fun hexact => ?_⟩
  · rw [hqueue] at hhandle
    exact absurd hhandle not_mem_nil
  · have hres : quickUpdated.res = Resources.oneSensor {} :=
      res_run_requests RuleEnv.utc _ quickUpdate (by simp [quickUpdate])
    have hmem : ((true, [(1, "state/buttonevent")]) : Bool × List ItemKey) ∈
        quickUpdated.rules.map (fun rule =>
          (rule.isEnabled, indexItems (Resources.oneSensor {}) rule.conditions)) := by
      rw [hrules]
      exact mem_cons_self
    obtain ⟨rule, hrule, hpair⟩ := mem_map.mp hmem
    obtain ⟨henabled, hitems⟩ := Prod.mk.inj hpair
    have htrigger : IsTriggerItem quickUpdated.res rule.conditions (1, "state/buttonevent") := by
      rw [hres, ← mem_indexItems, hitems]
      exact mem_cons_self
    obtain ⟨it, hitem, hlisted⟩ := (hexact rule hrule henabled _).mpr htrigger
    rw [hres] at hitem
    rw [oneSensor_unlisted _ it hitem] at hlisted
    exact absurd hlisted not_mem_nil

end RuleRequest
end DeconzRest

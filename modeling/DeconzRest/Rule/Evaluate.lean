import DeconzRest.Rule.Rule

/-!
# `evaluateRule` and `handleRuleEvent`

A rule is evaluated for an event: every condition has to hold, in their order.  A
condition looks at the present value of its item; when the item is the one of the
event, the numbers that the event carries are looked at as well.

The time is that of the item `config/localtime`, and the time before is its
previous value.  `evaluateRule` returns the rule as well: a condition whose
resource is gone disables it.
-/

namespace DeconzRest

open QDateTime

def rAttrLastAnnounced : String := "attr/lastannounced"
def rStateLastUpdated : String := "state/lastupdated"
def rConfigOn : String := "config/on"

namespace Event

/-- The conversion of a `qint64` to an `int`. -/
def toInt (n : Int) : Int := (n + 2 ^ 31) % 2 ^ 32 - 2 ^ 31

/-- `Event::Event` for an item: the event keeps the numbers of that moment. -/
def ofItem (resource what : String) (id : QString) (item : RuleItem) : Event where
  resource := resource
  what := what
  id := id
  num := toInt item.num
  numPrevious := toInt item.numPrev

end Event

namespace RuleEngine

variable {D : Type}

structure Occasion where
  event : Event
  eItem : ItemKey
  now : Int
  previousNow : Int

inductive Verdict where
  | holds | fails | noResource
deriving DecidableEq, Repr

def valueItem (res : Resources) (c : RuleCondition D) : Option (String × RuleItem) :=
  match c.valueResource, c.valueSuffix with
  | some resource, some suffix =>
    match res.getResource (some resource) c.valueId with
    | some r => (res.item r suffix).map fun it => (suffix, it)
    | none => none
  | _, _ => none

/-- The branches for a local time that is compared to another one; `later` is `gt`. -/
def localtimeHolds (env : RuleEnv D) (res : Resources) (o : Occasion) (c : RuleCondition D)
    (item : RuleItem) (later : Bool) : Bool :=
  match valueItem res c with
  | some (suffix, other) =>
    if suffix = rStateLocaltime then
      if later then decide (item.num ≤ other.num) else decide (other.num ≤ item.num)
    else if suffix = rConfigLocalTime then
      let now := time env.zone o.now
      let t1 := time env.zone item.num
      if later then decide (t1 ≤ now) else decide (now ≤ t1)
    else
      true
  | none => true

/-- `ddx`: the item changed `seconds` before a time between the last tick and this one. -/
def ddxHolds (o : Occasion) (c : RuleCondition D) (item : RuleItem) : Bool :=
  decide (o.eItem.2 = rConfigLocalTime) &&
    match item.lastChanged with
    | none => false
    | some changed =>
      let dt := addSecs changed c.num
      decide (o.previousNow < dt ∧ dt ≤ o.now)

/-- `stable`: the item has not changed for `seconds`. -/
def stableHolds (o : Occasion) (c : RuleCondition D) (item : RuleItem) : Bool :=
  match item.lastChanged with
  | none => true
  | some changed => decide (secsTo o.now (addSecs changed c.num) ≤ 0)

/-- `in`: from start to end, and at a tick only when the start has just been passed. -/
def inHolds (env : RuleEnv D) (o : Occasion) (c : RuleCondition D) : Bool :=
  let t := time env.zone o.now
  let pt := time env.zone o.previousNow
  if o.eItem.2 = rConfigLocalTime ∧ (c.time0 ≤ pt ∨ t < c.time0) then
    false
  else if c.weekDayEnabled (dayOfWeek env.zone o.now) = false then
    false
  else
    decide (c.time0 < c.time1 ∧ (c.time0 ≤ t ∧ t ≤ c.time1)) ||
      decide (c.time1 < c.time0 ∧ (c.time0 ≤ t ∨ t ≤ c.time1))

/-- `not in`: from end to start, and at a tick only when the end has just been passed. -/
def notInHolds (env : RuleEnv D) (o : Occasion) (c : RuleCondition D) : Bool :=
  let t := time env.zone o.now
  let pt := time env.zone o.previousNow
  if o.eItem.2 = rConfigLocalTime ∧ (c.time1 ≤ pt ∨ t < c.time1) then
    false
  else if c.weekDayEnabled (dayOfWeek env.zone o.now) = false then
    false
  else
    decide (c.time0 < c.time1 ∧ (t ≤ c.time0 ∨ c.time1 ≤ t)) ||
      decide (c.time1 < c.time0 ∧ (t ≤ c.time0 ∧ c.time1 ≤ t))

/-- `dx`: the event is about the item, and a change unless the item is a time stamp. -/
def dxHolds (o : Occasion) (key : ItemKey) : Bool :=
  decide (key = o.eItem) &&
    (decide (o.eItem.2 = rStateLastUpdated ∨ o.eItem.2 = rAttrLastAnnounced ∨ o.eItem.2 =
        rConfigLocalTime) ||
      decide (o.event.num ≠ o.event.numPrevious))

/-- The operators of `evaluateRule`, for a condition whose item is there. -/
def operatorHolds (env : RuleEnv D) (res : Resources) (o : Occasion) (c : RuleCondition D)
    (key : ItemKey) (item : RuleItem) : Bool :=
  match c.op with
  | .equal =>
    decide (c.num = item.num) && !(decide (key = o.eItem) && o.event.num == o.event.numPrevious)
  | .notEqual =>
    decide (c.num ≠ item.num) && !(decide (key = o.eItem) && o.event.num == o.event.numPrevious)
  | .greaterThan =>
    if key.2 = rStateLocaltime then
      localtimeHolds env res o c item true
    else
      decide (c.num < item.num) && !(decide (key = o.eItem ∧ c.num < o.event.numPrevious))
  | .lowerThan =>
    if key.2 = rStateLocaltime then
      localtimeHolds env res o c item false
    else
      decide (item.num < c.num) && !(decide (key = o.eItem ∧ o.event.numPrevious < c.num))
  | .dx => dxHolds o key
  | .ddx => ddxHolds o c item
  | .stable => stableHolds o c item
  | .isIn => decide (c.suffix = rConfigLocalTime) && inHolds env o c
  | .notIn => decide (c.suffix = rConfigLocalTime) && notInHolds env o c
  | .notStable | .unknown => false

/-- The sensor of an item is switched off; `config/on` itself is looked at anyway. -/
def sensorOff (res : Resources) (key : ItemKey) : Bool :=
  decide (res.resourcePrefix key.1 = rSensors ∧ key.2 ≠ rConfigOn) &&
    match res.item key.1 rConfigOn with
    | some on => decide (on.num = 0)
    | none => false

/-- One turn of the loop over the conditions. -/
def evaluateCondition (env : RuleEnv D) (res : Resources) (o : Occasion) (c : RuleCondition D) :
    Verdict :=
  match res.getResource c.resource c.id with
  | none => .noResource
  | some r =>
    match res.item r c.suffix with
    | none => .fails
    | some item =>
      if item.isSet = false then .fails
      else if sensorOff res (r, c.suffix) then .fails
      else if operatorHolds env res o c (r, c.suffix) item then .holds
      else .fails

def evaluateConditions (env : RuleEnv D) (res : Resources) (o : Occasion) (rule : Rule D) :
    List (RuleCondition D) → Bool × Rule D
  | [] => (true, rule)
  | c :: cs =>
    match evaluateCondition env res o c with
    | .holds => evaluateConditions env res o rule cs
    | .fails => (false, rule)
    | .noResource => (false, { rule with status := QString.ofLatin1 "disabled" })

/-- A periodic rule waits for its period, and one with a negative period for ever. -/
def periodElapsed (rule : Rule D) (now : Int) : Bool :=
  decide (0 ≤ rule.triggerPeriodic) &&
    !(decide (0 < rule.triggerPeriodic) &&
      match rule.lastTriggered with
      | some triggered => decide (now < triggered + rule.triggerPeriodic)
      | none => false)

/-- `DeRestPluginPrivate::evaluateRule` for an event whose item is there; `inNetwork` is
the state of the controller. -/
def evaluateRule (env : RuleEnv D) (inNetwork : Bool) (res : Resources) (o : Occasion)
    (rule : Rule D) : Bool × Rule D :=
  if inNetwork = false then
    (false, rule)
  else if rule.state ≠ .normal ∨ rule.isEnabled = false then
    (false, rule)
  else if periodElapsed rule o.now = false then
    (false, rule)
  else
    evaluateConditions env res o rule rule.conditions

section Single

variable {env : RuleEnv D} {res : Resources} {o : Occasion} {c : RuleCondition D} {r : Nat}
  {item : RuleItem}

theorem evaluateCondition_found (hresource : res.getResource c.resource c.id = some r)
    (hitem : res.item r c.suffix = some item) (hset : item.isSet = true)
    (hsensor : sensorOff res (r, c.suffix) = false) :
    evaluateCondition env res o c =
      if operatorHolds env res o c (r, c.suffix) item then .holds else .fails := by
  unfold evaluateCondition
  simp only [hresource, hitem]
  rw [if_neg (by rw [hset]; decide), if_neg (by rw [hsensor]; decide)]

theorem evaluateRule_single {rule : Rule D} (hconditions : rule.conditions = [c])
    (hresource : res.getResource c.resource c.id = some r)
    (hitem : res.item r c.suffix = some item) (hset : item.isSet = true)
    (hsensor : sensorOff res (r, c.suffix) = false) (inNetwork : Bool) :
    (evaluateRule env inNetwork res o rule).1 = true ↔
      (inNetwork = true ∧ rule.state = .normal ∧ rule.isEnabled = true ∧ periodElapsed rule o.now =
        true) ∧
        operatorHolds env res o c (r, c.suffix) item = true := by
  have hverdict := @evaluateCondition_found D env res o c r item hresource hitem hset hsensor
  have hloop : (evaluateConditions env res o rule [c]).1 =
      operatorHolds env res o c (r, c.suffix) item := by
    unfold evaluateConditions
    rw [hverdict]
    cases operatorHolds env res o c (r, c.suffix) item <;> rfl
  unfold evaluateRule
  rw [hconditions, ← hloop]
  by_cases hnetwork : inNetwork = true
  · by_cases hstate : rule.state = .normal ∧ rule.isEnabled = true
    · cases hperiod : periodElapsed rule o.now <;> simp [hnetwork, hstate]
    · rw [not_and] at hstate
      by_cases hnormal : rule.state = .normal <;> simp [hnetwork, hnormal, hstate]
  · simp [hnetwork]

end Single

/-- The time of `handleRuleEvent`; without an item the clock is read. -/
def now (localTime : Option RuleItem) (currentDateTime : Int) : Int :=
  match localTime with
  | some it => it.num
  | none => currentDateTime

/-- The time before; a previous value that is not positive counts as none. -/
def previousNow (localTime : Option RuleItem) (currentDateTime : Int) : Int :=
  match localTime with
  | some it =>
    if 0 < it.numPrev then it.numPrev
    else addSecs (now localTime currentDateTime) (-1)
  | none => addSecs (now localTime currentDateTime) (-1)

/-- The rules with a handle are evaluated at their places `i`, and those that hold
collected. -/
def evaluateHandle (env : RuleEnv D) (inNetwork : Bool) (res : Resources) (o : Occasion)
    (handle : Int) (st : List Nat × List (Rule D)) (i : Nat) : List Nat × List (Rule D) :=
  match st.2[i]? with
  | none => st
  | some rule =>
    if rule.handle ≠ handle then
      st
    else
      let r := evaluateRule env inNetwork res o rule
      (if r.1 then st.1 ++ [i] else st.1, st.2.set i r.2)

/-- The loops of `handleRuleEvent` over the handles of the item and over all rules. -/
def evaluateHandles (env : RuleEnv D) (inNetwork : Bool) (res : Resources) (o : Occasion)
    (handles : List Int) (rules : List (Rule D)) : List Nat × List (Rule D) :=
  handles.foldl
    (fun st handle =>
      (List.range rules.length).foldl (evaluateHandle env inNetwork res o handle) st)
    ([], rules)

/-- The part of `handleRuleEvent` in front of the triggers: the places of the rules to
trigger, and the rules. -/
def rulesToTrigger (env : RuleEnv D) (inNetwork : Bool) (currentDateTime : Int)
    (res : Resources) (rules : List (Rule D)) (e : Event) : List Nat × List (Rule D) :=
  if e.resource = rDevices then
    ([], rules)
  else
    match res.getResource (some e.resource) e.id with
    | none => ([], rules)
    | some r =>
      match res.item r e.what with
      | none => ([], rules)
      | some item =>
        evaluateHandles env inNetwork res
          ⟨e, (r, e.what), now res.localTime currentDateTime,
            previousNow res.localTime currentDateTime⟩
          item.rulesInvolved rules

/-! ### The rules that are collected -/

section Collected

variable {env : RuleEnv D} {inNetwork : Bool} {res : Resources} {o : Occasion}

theorem evaluateConditions_cases (rule : Rule D) (cs : List (RuleCondition D)) :
    (evaluateConditions env res o rule cs).2 = rule ∨
      ((evaluateConditions env res o rule cs).1 = false ∧
        (evaluateConditions env res o rule cs).2 =
          { rule with status := QString.ofLatin1 "disabled" }) := by
  induction cs with
  | nil => exact .inl rfl
  | cons c cs ih =>
    unfold evaluateConditions
    cases evaluateCondition env res o c with
    | holds => exact ih
    | fails => exact .inl rfl
    | noResource => exact .inr ⟨rfl, rfl⟩

theorem evaluateRule_cases (rule : Rule D) :
    (evaluateRule env inNetwork res o rule).2 = rule ∨
      ((evaluateRule env inNetwork res o rule).1 = false ∧
        (evaluateRule env inNetwork res o rule).2 =
          { rule with status := QString.ofLatin1 "disabled" }) := by
  unfold evaluateRule
  split
  · exact .inl rfl
  · split
    · exact .inl rfl
    · split
      · exact .inl rfl
      · exact evaluateConditions_cases rule rule.conditions

def Reviewed (env : RuleEnv D) (inNetwork : Bool) (res : Resources) (o : Occasion)
    (rules rules' : List (Rule D)) : Prop :=
  ∀ i : Nat, rules'[i]? = rules[i]? ∨ rules'[i]? =
    rules[i]?.map fun rule => (evaluateRule env inNetwork res o rule).2

/-- The rule at a place has the handle and holds. -/
def Collects (env : RuleEnv D) (inNetwork : Bool) (res : Resources) (o : Occasion)
    (rules : List (Rule D)) (handle : Int) (i : Nat) : Prop :=
  ∃ rule, rules[i]? = some rule ∧ rule.handle = handle ∧ (evaluateRule env inNetwork res o rule).1 =
    true

theorem Reviewed.refl (rules : List (Rule D)) : Reviewed env inNetwork res o rules rules :=
  fun _ => .inl rfl

theorem evaluateRule_again (rule : Rule D) :
    evaluateRule env inNetwork res o (evaluateRule env inNetwork res o rule).2 =
      ((evaluateRule env inNetwork res o rule).1, (evaluateRule env inNetwork res o rule).2) := by
  rcases @evaluateRule_cases D env inNetwork res o rule with hsame | ⟨hfalse, hdisabled⟩
  · rw [hsame]
    exact Prod.ext rfl hsame
  · have hoff : ({ rule with status := QString.ofLatin1 "disabled" } : Rule D).isEnabled = false :=
      rfl
    rw [hfalse, hdisabled]
    unfold evaluateRule
    split
    · rfl
    · rw [if_pos (.inr hoff)]

theorem Reviewed.collects_iff {rules rules' : List (Rule D)}
    (h : Reviewed env inNetwork res o rules rules') (handle : Int) (i : Nat) :
    Collects env inNetwork res o rules' handle i ↔ Collects env inNetwork res o rules handle i := by
  unfold Collects
  rcases h i with hsame | hevaluated
  · rw [hsame]
  · rw [hevaluated]
    cases rules[i]? with
    | none => simp
    | some rule =>
      have hhandle : (evaluateRule env inNetwork res o rule).2.handle = rule.handle := by
        rcases @evaluateRule_cases D env inNetwork res o rule with hsame | ⟨-, hdisabled⟩
        · rw [hsame]
        · rw [hdisabled]
      simp [evaluateRule_again, hhandle]

theorem evaluateHandle_spec (handle : Int) (st : List Nat × List (Rule D)) (i : Nat) :
    (∀ j, j ∈ (evaluateHandle env inNetwork res o handle st i).1 ↔ j ∈ st.1 ∨
        (j = i ∧ Collects env inNetwork res o st.2 handle i)) ∧
      Reviewed env inNetwork res o st.2 (evaluateHandle env inNetwork res o handle st i).2 := by
  unfold evaluateHandle Collects
  cases hrule : st.2[i]? with
  | none => exact ⟨fun j => by simp, Reviewed.refl _⟩
  | some rule =>
    by_cases hhandle : rule.handle = handle
    · simp only [hhandle, ne_eq, not_true_eq_false, if_false]
      refine ⟨fun j => ?_, fun j => ?_⟩
      · cases hholds : (evaluateRule env inNetwork res o rule).1 <;> simp [hhandle, hholds]
      · by_cases hj : j = i
        · subst hj
          refine .inr ?_
          obtain ⟨hlt, -⟩ := List.getElem?_eq_some_iff.mp hrule
          rw [List.getElem?_set_self hlt, hrule]
          rfl
        · exact .inl (List.getElem?_set_ne (Ne.symm hj))
    · simp only [hhandle, ne_eq, not_false_eq_true, if_true]
      exact ⟨fun j => by simp [hhandle], Reviewed.refl _⟩

theorem Reviewed.trans {rules rules' rules'' : List (Rule D)}
    (h : Reviewed env inNetwork res o rules rules')
    (h' : Reviewed env inNetwork res o rules' rules'') :
    Reviewed env inNetwork res o rules rules'' := by
  intro i
  rcases h' i with hsame | hevaluated
  · rw [hsame]
    exact h i
  · refine .inr ?_
    rw [hevaluated]
    rcases h i with hsame' | hevaluated'
    · rw [hsame']
    · rw [hevaluated']
      cases rules[i]? <;> simp [evaluateRule_again]

theorem evaluateHandle_foldl (handle : Int) (is : List Nat) (st : List Nat × List (Rule D)) :
    (∀ j, j ∈ (is.foldl (evaluateHandle env inNetwork res o handle) st).1 ↔ j ∈ st.1 ∨
        (j ∈ is ∧ Collects env inNetwork res o st.2 handle j)) ∧
      Reviewed env inNetwork res o st.2
        (is.foldl (evaluateHandle env inNetwork res o handle) st).2 := by
  induction is generalizing st with
  | nil => exact ⟨fun j => by simp, Reviewed.refl _⟩
  | cons i is ih =>
    obtain ⟨hmem, hreviewed⟩ := @evaluateHandle_spec D env inNetwork res o handle st i
    obtain ⟨hmemRest, hreviewedRest⟩ := ih (evaluateHandle env inNetwork res o handle st i)
    refine ⟨fun j => ?_, hreviewed.trans hreviewedRest⟩
    rw [List.foldl_cons, hmemRest, hmem, hreviewed.collects_iff, List.mem_cons]
    constructor
    · rintro ((h | ⟨rfl, h⟩) | ⟨hj, h⟩)
      · exact .inl h
      · exact .inr ⟨.inl rfl, h⟩
      · exact .inr ⟨.inr hj, h⟩
    · rintro (h | ⟨rfl | hj, h⟩)
      · exact .inl (.inl h)
      · exact .inl (.inr ⟨rfl, h⟩)
      · exact .inr ⟨hj, h⟩

theorem evaluateHandles_foldl (n : Nat) (handles : List Int) (st : List Nat × List (Rule D)) :
    (∀ j, j ∈ (handles.foldl (fun st handle =>
          (List.range n).foldl (evaluateHandle env inNetwork res o handle) st) st).1 ↔
        j ∈ st.1 ∨ (j < n ∧ ∃ handle ∈ handles, Collects env inNetwork res o st.2 handle j)) ∧
      Reviewed env inNetwork res o st.2 (handles.foldl (fun st handle =>
          (List.range n).foldl (evaluateHandle env inNetwork res o handle) st) st).2 := by
  induction handles generalizing st with
  | nil => exact ⟨fun j => by simp, Reviewed.refl _⟩
  | cons handle handles ih =>
    obtain ⟨hmem, hreviewed⟩ :=
      @evaluateHandle_foldl D env inNetwork res o handle (List.range n) st
    obtain ⟨hmemRest, hreviewedRest⟩ :=
      ih ((List.range n).foldl (evaluateHandle env inNetwork res o handle) st)
    refine ⟨fun j => ?_, hreviewed.trans hreviewedRest⟩
    rw [List.foldl_cons, hmemRest, hmem, List.mem_range]
    simp only [hreviewed.collects_iff]
    constructor
    · rintro ((h | ⟨hj, h⟩) | ⟨hj, other, hother, h⟩)
      · exact .inl h
      · exact .inr ⟨hj, handle, List.mem_cons_self, h⟩
      · exact .inr ⟨hj, other, List.mem_cons_of_mem handle hother, h⟩
    · rintro (h | ⟨hj, other, hother, h⟩)
      · exact .inl (.inl h)
      · rcases List.mem_cons.mp hother with rfl | hother
        · exact .inl (.inr ⟨hj, h⟩)
        · exact .inr ⟨hj, other, hother, h⟩

/-- **What `handleRuleEvent` triggers**: the rules whose handle is listed and that hold. -/
theorem mem_evaluateHandles (handles : List Int) (rules : List (Rule D)) (i : Nat) :
    i ∈ (evaluateHandles env inNetwork res o handles rules).1 ↔ ∃ rule, rules[i]? = some rule ∧
      rule.handle ∈ handles ∧ (evaluateRule env inNetwork res o rule).1 = true := by
  have hmem := (@evaluateHandles_foldl D env inNetwork res o rules.length handles ([], rules)).1 i
  unfold evaluateHandles
  rw [hmem]
  constructor
  · rintro (h | ⟨-, handle, hhandle, rule, hrule, rfl, hholds⟩)
    · exact absurd h List.not_mem_nil
    · exact ⟨rule, hrule, hhandle, hholds⟩
  · rintro ⟨rule, hrule, hhandle, hholds⟩
    obtain ⟨hlt, -⟩ := List.getElem?_eq_some_iff.mp hrule
    exact .inr ⟨hlt, rule.handle, hhandle, rule, hrule, rfl, hholds⟩

theorem getElem?_evaluateHandles (handles : List Int) {rules : List (Rule D)} {i : Nat}
    {rule : Rule D} (hrule : rules[i]? = some rule)
    (hkept : (evaluateRule env inNetwork res o rule).2 = rule) :
    (evaluateHandles env inNetwork res o handles rules).2[i]? = some rule := by
  have hreviewed :=
    (@evaluateHandles_foldl D env inNetwork res o rules.length handles ([], rules)).2
  rcases hreviewed i with hsame | hevaluated
  · exact hsame.trans hrule
  · refine hevaluated.trans ?_
    show rules[i]?.map _ = some rule
    rw [hrule, Option.map_some, hkept]

end Collected

end RuleEngine
end DeconzRest

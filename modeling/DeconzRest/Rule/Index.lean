import DeconzRest.Rule.Store

/-!
# What the index of the rule triggers holds

`IsTriggerItem` says which items a rule reacts to.  `indexRuleTriggers` comes to exactly
these (`mem_indexItems`), and adds the handle of the rule to them (`lists_indexRuleTriggers`).
A turn of the timer does that for one queued rule (`fired_cases`); the handles that
wait get fewer with each turn (`drained_fire`).
-/

namespace DeconzRest

open List

variable {D : Type}

def Lists (res : Resources) (key : ItemKey) (handle : Int) : Prop :=
  ∃ it, res.items key = some it ∧ handle ∈ it.rulesInvolved

/-- The items of the conditions with the operators `ops`, as far as they are there. -/
def itemsOf (res : Resources) (ops : Operator → Bool) (cs : List (RuleCondition D)) :
    List ItemKey :=
  (cs.filter fun c => ops c.op).filterMap fun c => c.itemKey? res

variable (res : Resources)

/-- The trigger items of conditions: the last `dx` item if there is one, else the local
time if there is a `ddx` item, else all items but those of `stable` and `not stable`. -/
def IsTriggerItem (res : Resources) (cs : List (RuleCondition D)) (key : ItemKey) : Prop :=
  match (itemsOf res (fun op => op == .dx) cs).getLast? with
  | some item => key = item
  | none =>
    if itemsOf res (fun op => op == .ddx) cs = [] then
      key ∈ itemsOf res (fun op => op != .stable && op != .notStable) cs
    else
      res.localTime.isSome = true ∧ key = (res.config, rConfigLocalTime)

theorem itemsOf_concat (ops : Operator → Bool) (cs : List (RuleCondition D)) (c : RuleCondition D) :
    itemsOf res ops (cs ++ [c]) = itemsOf res ops cs ++
      if ops c.op then (c.itemKey? res).toList else [] := by
  unfold itemsOf
  rw [filter_append, filterMap_append]
  cases hop : ops c.op <;> cases hkey : c.itemKey? res <;> simp [hop, hkey]

theorem foundItems_spec (cs : List (RuleCondition D)) :
    (cs.foldl (FoundItems.add res) {}).itemDx = (itemsOf res (fun op => op == .dx) cs).getLast? ∧
      (cs.foldl (FoundItems.add res) {}).itemDdx =
        (itemsOf res (fun op => op == .ddx) cs).getLast? ∧
      (cs.foldl (FoundItems.add res) {}).items =
        itemsOf res (fun op => op != .stable && op != .notStable && op != .dx && op != .ddx) cs := by
  induction cs using List.reverseRecOn with
  | nil => exact ⟨rfl, rfl, rfl⟩
  | append_singleton cs c ih =>
    obtain ⟨hdx, hddx, hitems⟩ := ih
    rw [foldl_append, foldl_cons, foldl_nil]
    simp only [itemsOf_concat]
    generalize cs.foldl (FoundItems.add res) {} = f at hdx hddx hitems
    rw [← hitems]
    unfold FoundItems.add
    cases hkey : c.itemKey? res with
    | none => simp [hdx, hddx]
    | some key => cases hop : c.op <;> simp [hdx, hddx]

variable {cs : List (RuleCondition D)}

theorem itemsOf_rest {res : Resources} (hdx : itemsOf res (fun op => op == .dx) cs = [])
    (hddx : itemsOf res (fun op => op == .ddx) cs = []) :
    itemsOf res (fun op => op != .stable && op != .notStable && op != .dx && op != .ddx) cs =
      itemsOf res (fun op => op != .stable && op != .notStable) cs := by
  induction cs using List.reverseRecOn with
  | nil => rfl
  | append_singleton cs c ih =>
    rw [itemsOf_concat] at hdx hddx
    obtain ⟨hdx, hdxc⟩ := append_eq_nil_iff.mp hdx
    obtain ⟨hddx, hddxc⟩ := append_eq_nil_iff.mp hddx
    rw [itemsOf_concat, itemsOf_concat, ih hdx hddx]
    apply congrArg
    cases hop : c.op <;> simp_all

/-- **`indexRuleTriggers` comes to the trigger items.** -/
theorem mem_indexItems (cs : List (RuleCondition D)) (key : ItemKey) :
    key ∈ indexItems res cs ↔ IsTriggerItem res cs key := by
  obtain ⟨hdx, hddx, hitems⟩ := foundItems_spec res cs
  unfold indexItems FoundItems.triggers IsTriggerItem
  rw [hdx, hddx, hitems]
  cases hlast : (itemsOf res (fun op => op == .dx) cs).getLast? with
  | some item => exact mem_singleton
  | none =>
    have hnil := List.getLast?_eq_none_iff.mp hlast
    cases hlast' : (itemsOf res (fun op => op == .ddx) cs).getLast? with
    | none =>
      have hnil' := List.getLast?_eq_none_iff.mp hlast'
      simp only [hnil', if_true]
      rw [itemsOf_rest hnil hnil']
    | some item =>
      have hne : itemsOf res (fun op => op == .ddx) cs ≠ [] := by
        intro hnil'
        rw [hnil'] at hlast'
        cases hlast'
      simp only [hne, if_false]
      by_cases hlocal : res.localTime.isSome = true <;> simp [hlocal]

/-- The same resources, and items at the same places. -/
structure SameItems (res res' : Resources) : Prop where
  getResource : res'.getResource = res.getResource
  config : res'.config = res.config
  items : ∀ key, (res'.items key).isSome = (res.items key).isSome

namespace SameItems

variable {res res' res'' : Resources}

theorem refl (res : Resources) : SameItems res res := ⟨rfl, rfl, fun _ => rfl⟩

theorem trans (h : SameItems res res') (h' : SameItems res' res'') : SameItems res res'' :=
  ⟨h'.getResource.trans h.getResource, h'.config.trans h.config,
    fun key => (h'.items key).trans (h.items key)⟩

theorem itemKey?_eq (h : SameItems res res') (c : RuleCondition D) :
    c.itemKey? res' = c.itemKey? res := by
  unfold RuleCondition.itemKey? Resources.item
  rw [h.getResource]
  simp only [h.items]

theorem isTriggerItem_iff (h : SameItems res res') (cs : List (RuleCondition D)) (key : ItemKey) :
    IsTriggerItem res' cs key ↔ IsTriggerItem res cs key := by
  have hof : ∀ ops : Operator → Bool, itemsOf res' ops cs = itemsOf res ops cs := by
    intro ops
    unfold itemsOf
    simp only [h.itemKey?_eq]
  have hlocal : res'.localTime.isSome = res.localTime.isSome := by
    unfold Resources.localTime Resources.item
    rw [h.config, h.items]
  unfold IsTriggerItem
  rw [hof, hof, hof, hlocal, h.config]

end SameItems

theorem sameItems_inRule (handle : Int) (key : ItemKey) :
    SameItems res (res.inRule handle key) := by
  refine ⟨rfl, rfl, fun k => ?_⟩
  show (if k = key then _ else _ : Option RuleItem).isSome = _
  by_cases hk : k = key
  · rw [if_pos hk, Option.isSome_map]
  · rw [if_neg hk]

theorem lists_inRule (handle h : Int) (key k : ItemKey) :
    Lists (res.inRule handle key) k h ↔ Lists res k h ∨
      (h = handle ∧ k = key ∧ (res.items k).isSome = true) := by
  unfold Lists
  show (∃ it, (if k = key then (res.items k).map fun it => it.inRule handle
    else res.items k) = some it ∧ _) ↔ _
  by_cases hk : k = key
  · rw [if_pos hk]
    cases hitem : res.items k with
    | none => simp
    | some it =>
      simp only [Option.map_some, Option.some.injEq, exists_eq_left', RuleItem.mem_inRule,
        Option.isSome_some, hk, and_true]
  · rw [if_neg hk]
    simp [hk]

theorem foldl_inRule_spec (handle : Int) (keys : List ItemKey) (res : Resources) :
    SameItems res (keys.foldl (fun res key => res.inRule handle key) res) ∧
      ∀ k h, Lists (keys.foldl (fun res key => res.inRule handle key) res) k h ↔ Lists res k h ∨
        (h = handle ∧ k ∈ keys ∧ (res.items k).isSome = true) := by
  induction keys generalizing res with
  | nil => exact ⟨SameItems.refl res, fun k h => by simp⟩
  | cons key keys ih =>
    obtain ⟨hsame, hlists⟩ := ih (res.inRule handle key)
    refine ⟨(sameItems_inRule res handle key).trans hsame, fun k h => ?_⟩
    rw [foldl_cons, hlists, lists_inRule, (sameItems_inRule res handle key).items, mem_cons]
    constructor
    · rintro ((hold | ⟨hh, hk, hsome⟩) | ⟨hh, hk, hsome⟩)
      · exact .inl hold
      · exact .inr ⟨hh, .inl hk, hsome⟩
      · exact .inr ⟨hh, .inr hk, hsome⟩
    · rintro (hold | ⟨hh, hk | hk, hsome⟩)
      · exact .inl (.inl hold)
      · exact .inl (.inr ⟨hh, hk, hsome⟩)
      · exact .inr ⟨hh, hk, hsome⟩

theorem sameItems_indexRuleTriggers (rule : Rule D) : SameItems res (indexRuleTriggers res rule) :=
  (foldl_inRule_spec rule.handle _ res).1

variable {key : ItemKey}

theorem isSome_of_itemKey? {res : Resources} {c : RuleCondition D} (h : c.itemKey? res = some key) :
    (res.items key).isSome = true := by
  unfold RuleCondition.itemKey? at h
  split at h
  · cases h
  · split at h
    · rename_i hsome
      cases h
      exact hsome
    · cases h

theorem isSome_of_mem_itemsOf {res : Resources} {ops : Operator → Bool}
    (h : key ∈ itemsOf res ops cs) :
    (res.items key).isSome = true := by
  obtain ⟨c, -, hc⟩ := mem_filterMap.mp h
  exact isSome_of_itemKey? hc

theorem IsTriggerItem.isSome {res : Resources} (h : IsTriggerItem res cs key) :
    (res.items key).isSome = true := by
  unfold IsTriggerItem at h
  split at h
  · rename_i item hlast
    rw [h]
    exact isSome_of_mem_itemsOf (mem_of_getLast? hlast)
  · split at h
    · exact isSome_of_mem_itemsOf h
    · rw [h.2]
      exact h.1

/-- **Indexing a rule** adds its handle to its trigger items, and changes nothing else. -/
theorem lists_indexRuleTriggers (rule : Rule D) (key : ItemKey) (h : Int) :
    Lists (indexRuleTriggers res rule) key h ↔ Lists res key h ∨
      (h = rule.handle ∧ IsTriggerItem res rule.conditions key) := by
  unfold indexRuleTriggers
  rw [(foldl_inRule_spec rule.handle _ res).2, mem_indexItems]
  constructor
  · rintro (hold | ⟨hh, htrigger, -⟩)
    · exact .inl hold
    · exact .inr ⟨hh, htrigger⟩
  · rintro (hold | ⟨hh, htrigger⟩)
    · exact .inl hold
    · exact .inr ⟨hh, htrigger, htrigger.isSome⟩

/-! ## The timer -/

namespace RuleStore

def Drained (store : RuleStore D) : Prop := ∀ handle ∈ store.fastRuleCheck, handle = 0

/-- No rule has the handle, or it is the mark of a rule that is done. -/
def Idle (rules : List (Rule D)) (handle : Int) : Prop :=
  handle = 0 ∨ ∀ rule ∈ rules, rule.handle ≠ handle

/-- What the loop over the queue finds: nothing, and then no entry has a rule; or a rule
whose entry is marked, and the entries behind it are kept. -/
theorem fastCheck_spec (rules : List (Rule D)) (res : Resources) (queue : List Int) :
    (fastCheck rules res queue = none ∧ ∀ handle ∈ queue, Idle rules handle) ∨ ∃ rule ∈
      rules, ∃ queue', rule.handle ∈ queue ∧ rule.handle ≠ 0 ∧ fastCheck rules res queue =
        some (queue', indexRuleTriggers res rule) ∧
        (∀ handle ∈ queue, handle ∈ queue' ∨ handle = rule.handle ∨ Idle rules handle) ∧
        (∀ handle ∈ queue', handle = 0 ∨ handle ∈ queue) ∧
        (queue'.filter fun handle => handle ≠ 0).length <
          (queue.filter fun handle => handle ≠ 0).length := by
  induction queue with
  | nil => exact .inl ⟨rfl, fun _ h => absurd h not_mem_nil⟩
  | cons handle queue ih =>
    -- an entry without a rule is marked, and the loop goes on
    have hskip : Idle rules handle →
        fastCheck rules res (handle :: queue) =
          (fastCheck rules res queue).map (fun r => (0 :: r.1, r.2)) := by
      intro hidle
      rw [fastCheck]
      by_cases hzero : handle = 0
      · rw [if_pos hzero]
      · have hnone : rules.find? (fun rule => decide (rule.handle = handle)) = none := by
          rw [List.find?_eq_none]
          intro rule hrule hhandle
          exact hidle.resolve_left hzero rule hrule (of_decide_eq_true hhandle)
        rw [if_neg hzero]
        simp only [hnone]
    by_cases hidle : Idle rules handle
    · rw [hskip hidle]
      rcases ih with ⟨hnone, hall⟩ |
        ⟨rule, hrule, queue', hmem, hzero, hsome, hkept, hsub, hlt⟩
      · refine .inl ⟨by rw [hnone]; rfl, fun h hh => ?_⟩
        rcases mem_cons.mp hh with rfl | hh
        · exact hidle
        · exact hall h hh
      · refine .inr ⟨rule, hrule, 0 :: queue', .tail handle hmem, hzero, by rw [hsome]; rfl,
          fun h hh => ?_, fun h hh => ?_, ?_⟩
        · rcases mem_cons.mp hh with rfl | hh
          · exact .inr (.inr hidle)
          · rcases hkept h hh with hin | hrest
            · exact .inl (.tail 0 hin)
            · exact .inr hrest
        · rcases mem_cons.mp hh with rfl | hh
          · exact .inl rfl
          · exact (hsub h hh).imp_right fun hin => .tail handle hin
        · have hle : (queue.filter fun handle => handle ≠ 0).length ≤
              ((handle :: queue).filter fun handle => handle ≠ 0).length :=
            (List.Sublist.filter _ (sublist_cons_self handle queue)).length_le
          have hmark : ((0 :: queue').filter fun handle : Int => handle ≠ 0) =
              queue'.filter fun handle => handle ≠ 0 := rfl
          rw [hmark]
          omega
    · unfold Idle at hidle
      rw [not_or] at hidle
      obtain ⟨hzero, hfound⟩ := hidle
      cases hfind : rules.find? fun rule => decide (rule.handle = handle) with
      | none =>
        rw [List.find?_eq_none] at hfind
        refine absurd (fun rule hrule hhandle => ?_) hfound
        exact hfind rule hrule (decide_eq_true hhandle)
      | some rule =>
        have hhandle : rule.handle = handle := by
          simpa using List.find?_some hfind
        refine .inr ⟨rule, mem_of_find?_eq_some hfind, 0 :: queue, ?_, ?_, ?_,
          fun h hh => ?_, fun h hh => ?_, ?_⟩
        · rw [hhandle]
          exact mem_cons_self
        · rw [hhandle]
          exact hzero
        · rw [fastCheck, if_neg hzero]
          simp only [hfind]
        · rcases mem_cons.mp hh with rfl | hh
          · exact .inr (.inl hhandle.symm)
          · exact .inl (.tail 0 hh)
        · rcases mem_cons.mp hh with rfl | hh
          · exact .inl rfl
          · exact .inr (.tail handle hh)
        · have hmark : ((0 :: queue).filter fun handle : Int => handle ≠ 0) =
              queue.filter fun handle => handle ≠ 0 := rfl
          rw [hmark, filter_cons_of_pos (by simpa using hzero), length_cons]
          omega

theorem fired_cases (store : RuleStore D) :
    (store.fastRuleCheckTimerFired = { store with fastRuleCheck := [], timerActive := false } ∧
        ∀ handle ∈ store.fastRuleCheck, Idle store.rules handle) ∨
      ∃ rule ∈ store.rules, ∃ queue', rule.handle ∈ store.fastRuleCheck ∧ rule.handle ≠ 0 ∧
        store.fastRuleCheckTimerFired =
          { store with
              fastRuleCheck := queue'
              res := indexRuleTriggers store.res rule
              timerActive := true } ∧
        (∀ handle ∈ store.fastRuleCheck, handle ∈ queue' ∨ handle = rule.handle ∨
          Idle store.rules handle) ∧
        (∀ handle ∈ queue', handle = 0 ∨ handle ∈ store.fastRuleCheck) ∧
        (queue'.filter fun handle => handle ≠ 0).length <
          (store.fastRuleCheck.filter fun handle => handle ≠ 0).length := by
  unfold fastRuleCheckTimerFired
  rcases fastCheck_spec store.rules store.res store.fastRuleCheck with ⟨hnone, hidle⟩ |
    ⟨rule, hrule, queue', hmem, hzero, hsome, hkept, hsub, hlt⟩
  · exact .inl ⟨by rw [hnone], hidle⟩
  · exact .inr ⟨rule, hrule, queue', hmem, hzero, by rw [hsome], hkept, hsub, hlt⟩

def fire (store : RuleStore D) : Nat → RuleStore D
  | 0 => store
  | n + 1 => fire store.fastRuleCheckTimerFired n

/-- **The queue is drained** after as many turns as it has entries that wait, and one. -/
theorem drained_fire (n : Nat) (store : RuleStore D)
    (h : (store.fastRuleCheck.filter fun handle => handle ≠ 0).length < n) :
    (store.fire n).Drained := by
  induction n generalizing store with
  | zero => omega
  | succ n ih =>
    rcases fired_cases store with ⟨heq, -⟩ | ⟨rule, -, queue', -, -, heq, -, -, hlt⟩
    · -- the queue is empty from here on
      have hkeep : ∀ m (s : RuleStore D), s.fastRuleCheck = [] → (s.fire m).fastRuleCheck = [] := by
        intro m
        induction m with
        | zero => exact fun s hs => hs
        | succ m ihm =>
          intro s hs
          refine ihm _ ?_
          unfold fastRuleCheckTimerFired
          rw [hs]
          rfl
      intro handle hhandle
      rw [fire, heq, hkeep n _ rfl] at hhandle
      exact absurd hhandle not_mem_nil
    · refine ih _ ?_
      rw [heq]
      exact Nat.lt_of_lt_of_le hlt (Nat.lt_succ_iff.mp h)

end RuleStore
end DeconzRest

import DeconzRest.Rule.Evaluate

/-!
# Rules about one number

A rule with a single condition `eq`, `ne`, `gt` or `lt` over a number is meant to react to
a change of that number.  An event keeps the numbers of the moment when it was
queued, but `evaluateRule` looks at the item as it is when the event is delivered.

`Watched` is such an item, the events about it that wait, and the rules.  A run
interleaves sets and deliveries.  `reacts_iff` says which deliveries do what the
numbers of their event ask for: those where the present value stands to the number
of the condition as the value of the event does (`Agrees`).  An event that is
delivered before the item is set again always does (`agrees_of_prompt`).
-/

namespace DeconzRest
namespace RuleEngine

open Transition

variable {D : Type}

/-- A condition of the constructor that compares a number, which is no local time. -/
structure ComparesNumber (env : RuleEnv D) (res : Resources) (c : RuleCondition D)
    (resource : String) (key : ItemKey) : Prop where
  built : ∃ map, c = RuleCondition.ofMap env map
  op : c.op = .equal ∨ c.op = .notEqual ∨ c.op = .greaterThan ∨ c.op = .lowerThan
  address : c.resource = some resource
  found : res.getResource (some resource) c.id = some key.1
  suffix : key.2 = c.suffix
  number : c.suffix ≠ rStateLocaltime
  sensorOn : sensorOff res key = false

/-- The numbers of an event are a change that the operator waits for. -/
def IsChange (op : Operator) (v : Int) (e : Event) : Prop :=
  match op with
  | .equal => e.num = v ∧ e.numPrevious ≠ v
  | .notEqual => e.num ≠ v ∧ e.num ≠ e.numPrevious
  | .greaterThan => e.numPrevious ≤ v ∧ v < e.num
  | .lowerThan => e.num < v ∧ v ≤ e.numPrevious
  | _ => False

/-- As far as the previous number leaves it open, the present value `num` is on the same
side of `v` as the number of the event. -/
def Agrees (op : Operator) (v num : Int) (e : Event) : Prop :=
  match op with
  | .equal | .notEqual => e.num ≠ e.numPrevious → (num = v ↔ e.num = v)
  | .greaterThan => e.numPrevious ≤ v → (v < num ↔ v < e.num)
  | .lowerThan => v ≤ e.numPrevious → (num < v ↔ e.num < v)
  | _ => True

theorem operatorHolds_iff_isChange {env : RuleEnv D} {res res' : Resources} {o : Occasion}
    {c : RuleCondition D} {resource : String} {key : ItemKey} {item : RuleItem}
    (hc : ComparesNumber env res c resource key) (hkey : o.eItem = key) :
    (operatorHolds env res' o c key item = true ↔ IsChange c.op c.num o.event) ↔
      Agrees c.op c.num item.num o.event := by
  have hnumber : key.2 ≠ rStateLocaltime := by
    rw [hc.suffix]
    exact hc.number
  unfold operatorHolds
  rcases hc.op with h | h | h | h <;>
    simp only [h, hkey, hnumber, IsChange, Agrees, decide_true, Bool.true_and, true_and, if_false,
      Bool.and_eq_true, Bool.not_eq_true', decide_eq_true_eq, decide_eq_false_iff_not,
      beq_eq_false_iff_ne, ne_eq] <;>
    omega

/-! ## Sets and deliveries -/

/-- The item of a rule, the events about it that are not delivered, and the rules. -/
structure Watched (D : Type) where
  item : RuleItem
  queue : List Event
  rules : List (Rule D)

inductive WatchedAction where
  | set (now val : Int)
  | deliver (currentDateTime : Int)

namespace Watched

variable (env : RuleEnv D) (res : Resources) (rid : ResourceItemDescriptor)
  (c : RuleCondition D) (resource : String) (key : ItemKey)

/-- `item->setValue(val)`, and an event about it when the value was taken. -/
def set (s : Watched D) (now val : Int) : Watched D :=
  let r := s.item.setNumber rid now val
  if r.2 then
    { s with
        item := r.1
        queue := EventEmitter.enqueueEvent s.queue (Event.ofItem resource c.suffix c.id r.1) }
  else
    s

/-- What `handleRuleEvent` triggers for an event, and the rules behind it. -/
def handled (s : Watched D) (currentDateTime : Int) (e : Event) : List Nat × List (Rule D) :=
  rulesToTrigger env true currentDateTime (res.setItem key s.item) s.rules e

def step (s : Watched D) : WatchedAction → Watched D
  | .set now val => set rid c resource s now val
  | .deliver currentDateTime =>
    match s.queue with
    | [] => s
    | e :: queue =>
      { s with queue := queue, rules := (handled env res key s currentDateTime e).2 }

/-- The rule at place `i` is enabled, not periodic, has the one condition, and is listed
by its item, which is set; every event that waits is about the item. -/
structure Ready (i : Nat) (rule : Rule D) (s : Watched D) : Prop where
  place : s.rules[i]? = some rule
  enabled : rule.isEnabled = true
  normal : rule.state = .normal
  periodic : rule.triggerPeriodic = 0
  conditions : rule.conditions = [c]
  listed : rule.handle ∈ s.item.rulesInvolved
  isSet : s.item.isSet = true
  about : ∀ e ∈ s.queue, e.resource = resource ∧ e.what = c.suffix ∧ e.id = c.id

variable {env res rid c resource key} {i : Nat} {rule : Rule D} {s : Watched D}

theorem setNumber_accepted {it : RuleItem} {now val : Int}
    (h : (it.setNumber rid now val).2 = true) :
    (it.setNumber rid now val).1.isSet = true ∧ (it.setNumber rid now val).1.num = val ∧
      (it.setNumber rid now val).1.rulesInvolved = it.rulesInvolved := by
  unfold RuleItem.setNumber at h ⊢
  split at h
  · rename_i hrange
    rw [if_pos hrange]
    exact ⟨rfl, rfl, rfl⟩
  · cases h

theorem mem_enqueueEvent {queue : List Event} {e x : Event}
    (h : x ∈ EventEmitter.enqueueEvent queue e) : x ∈ queue ∨ x = e := by
  unfold EventEmitter.enqueueEvent at h
  split at h
  · exact .inl h
  · simpa using h

theorem evaluateRule_ready (hc : ComparesNumber env res c resource key)
    (hready : Ready c resource i rule s) (o : Occasion) :
    ((evaluateRule env true (res.setItem key s.item) o rule).1 = true ↔
        operatorHolds env (res.setItem key s.item) o c key s.item = true) ∧
      (evaluateRule env true (res.setItem key s.item) o rule).2 = rule := by
  have hfound : (res.setItem key s.item).getResource c.resource c.id = some key.1 := by
    rw [Resources.getResource_setItem, hc.address]
    exact hc.found
  have hkey : (key.1, c.suffix) = key := Prod.ext rfl hc.suffix.symm
  have hitem : (res.setItem key s.item).item key.1 c.suffix = some s.item := by
    rw [Resources.item_setItem, if_pos hkey]
  have hsensor : sensorOff (res.setItem key s.item) (key.1, c.suffix) = false := by
    rw [hkey]
    have hon := hc.sensorOn
    unfold sensorOff at hon ⊢
    rw [Resources.resourcePrefix_setItem, Resources.item_setItem]
    by_cases hself : (key.1, rConfigOn) = key
    · -- the switch of the sensor is looked at wherever it stands
      have hsuffix : key.2 = rConfigOn := (congrArg Prod.snd hself).symm
      simp [hsuffix]
    · rw [if_neg hself]
      exact hon
  have hperiod : periodElapsed rule o.now = true := by
    simp [periodElapsed, hready.periodic]
  constructor
  · rw [evaluateRule_single hready.conditions hfound hitem hready.isSet hsensor, hkey]
    exact and_iff_right ⟨rfl, hready.normal, hready.enabled, hperiod⟩
  · rcases @evaluateRule_cases D env true (res.setItem key s.item) o rule with hsame | ⟨-, hoff⟩
    · exact hsame
    · -- its resource is there, so the loop over the conditions does not disable it
      have hverdict := @evaluateCondition_found D env (res.setItem key s.item) o c key.1 s.item
        hfound hitem hready.isSet hsensor
      unfold evaluateRule at hoff ⊢
      simp only [hready.conditions, evaluateConditions, hverdict] at hoff ⊢
      split_ifs at hoff ⊢ <;> rfl

theorem handled_eq (hc : ComparesNumber env res c resource key)
    (currentDateTime : Int) {e : Event}
    (habout : e.resource = resource ∧ e.what = c.suffix ∧ e.id = c.id) :
    ∃ o : Occasion, o.event = e ∧ o.eItem = key ∧
      handled env res key s currentDateTime e =
        evaluateHandles env true (res.setItem key s.item) o s.item.rulesInvolved s.rules := by
  obtain ⟨hresource, hwhat, hid⟩ := habout
  have hfound : (res.setItem key s.item).getResource (some e.resource) e.id = some key.1 := by
    rw [Resources.getResource_setItem, hresource, hid]
    exact hc.found
  have hkey : (key.1, e.what) = key := Prod.ext rfl (hwhat.trans hc.suffix.symm)
  have hitem : (res.setItem key s.item).item key.1 e.what = some s.item := by
    rw [Resources.item_setItem, if_pos hkey]
  refine ⟨⟨e, key, now (res.setItem key s.item).localTime currentDateTime,
    previousNow (res.setItem key s.item).localTime currentDateTime⟩, rfl, rfl, ?_⟩
  unfold handled rulesToTrigger
  have hdevices : resource ≠ rDevices := by
    obtain ⟨map, rfl⟩ := hc.built
    intro h
    exact RuleCondition.resource_ofMap_ne_devices env map (by rw [← h]; exact hc.address)
  rw [hresource, if_neg hdevices, ← hresource]
  simp only [hfound, hitem, hkey]

theorem mem_handled_iff (hc : ComparesNumber env res c resource key)
    (hready : Ready c resource i rule s) (currentDateTime : Int) {e : Event}
    (habout : e.resource = resource ∧ e.what = c.suffix ∧ e.id = c.id) :
    (i ∈ (handled env res key s currentDateTime e).1 ↔ IsChange c.op c.num e) ↔
      Agrees c.op c.num s.item.num e := by
  obtain ⟨o, hevent, hkey, heq⟩ :=
    @handled_eq D env res c resource key s hc currentDateTime e habout
  have hholds : i ∈ (handled env res key s currentDateTime e).1 ↔
      operatorHolds env (res.setItem key s.item) o c key s.item = true := by
    rw [heq, mem_evaluateHandles, ← (evaluateRule_ready hc hready o).1]
    constructor
    · rintro ⟨other, hother, -, hholds⟩
      rw [hready.place] at hother
      rw [Option.some.inj hother]
      exact hholds
    · intro hholds
      exact ⟨rule, hready.place, hready.listed, hholds⟩
  rw [hholds, ← hevent]
  exact operatorHolds_iff_isChange hc hkey

theorem ready_step (hc : ComparesNumber env res c resource key)
    (a : WatchedAction) (hready : Ready c resource i rule s) :
    Ready c resource i rule (step env res rid c resource key s a) := by
  cases a with
  | set now val =>
    show Ready c resource i rule (set rid c resource s now val)
    unfold set
    simp only
    split
    · rename_i haccepted
      obtain ⟨hset, -, hinvolved⟩ := setNumber_accepted haccepted
      refine { hready with listed := ?_, isSet := hset, about := ?_ }
      · rw [hinvolved]
        exact hready.listed
      · intro x hx
        rcases mem_enqueueEvent hx with hx | rfl
        · exact hready.about x hx
        · exact ⟨rfl, rfl, rfl⟩
    · exact hready
  | deliver currentDateTime =>
    unfold step
    cases hqueue : s.queue with
    | nil => exact hready
    | cons e queue =>
      have habout := hready.about
      rw [hqueue] at habout
      obtain ⟨o, -, -, heq⟩ := @handled_eq D env res c resource key s hc
        currentDateTime e (habout e List.mem_cons_self)
      simp only
      refine { hready with place := ?_, about := fun x hx => habout x (.tail e hx) }
      show (handled env res key s currentDateTime e).2[i]? = some rule
      rw [heq]
      exact getElem?_evaluateHandles _ hready.place (evaluateRule_ready hc hready o).2

/-- **Which events a rule reacts to.**  Over every run of sets and deliveries, the rule is
triggered for exactly those delivered events that are a change themselves, if and only if
at each delivery the present value agrees with that of the event. -/
theorem reacts_iff (hc : ComparesNumber env res c resource key)
    (hready : Ready c resource i rule s) (acts : List WatchedAction) :
    (∀ k currentDateTime e queue, acts[k]? = some (.deliver currentDateTime) →
        (stateAt (step env res rid c resource key) s acts k).queue = e :: queue →
        (i ∈ (handled env res key (stateAt (step env res rid c resource key) s acts k)
            currentDateTime e).1 ↔ IsChange c.op c.num e)) ↔
      ∀ k currentDateTime e queue, acts[k]? = some (.deliver currentDateTime) →
        (stateAt (step env res rid c resource key) s acts k).queue = e :: queue →
        Agrees c.op c.num
          (stateAt (step env res rid c resource key) s acts k).item.num e := by
  apply forall_congr'
  intro k
  have hnow : Ready c resource i rule
      (stateAt (step env res rid c resource key) s acts k) :=
    run_invariant (fun s a h => ready_step hc a h) hready (acts.take k)
  apply forall_congr'
  intro currentDateTime
  apply forall_congr'
  intro e
  apply forall_congr'
  intro queue
  apply forall_congr'
  intro _
  apply forall_congr'
  intro hqueue
  have habout := hnow.about e (by rw [hqueue]; exact List.mem_cons_self)
  exact mem_handled_iff hc hnow currentDateTime habout

/-- `/sensors/1/state/buttonevent eq 1002` -/
def pressed : RuleCondition Int :=
  RuleCondition.ofMap RuleEnv.utc
    (RuleCondition.requestMap "/sensors/1/state/buttonevent" "eq" (.double 1002))

theorem pressed_comparesNumber :
    ComparesNumber RuleEnv.utc (Resources.oneSensor {}) pressed rSensors
      (1, "state/buttonevent") where
  built := ⟨_, rfl⟩
  op := by decide +kernel
  address := by decide +kernel
  found := by decide +kernel
  suffix := by decide +kernel
  number := by decide +kernel
  sensorOn := by decide +kernel

def pressedRule : Rule Int where
  handle := 5
  conditions := [pressed]

def button : Watched Int where
  item := { num := 1000, isSet := true, rulesInvolved := [5] }
  queue := []
  rules := [pressedRule]

theorem button_ready : Ready pressed rSensors 0 pressedRule button where
  place := rfl
  enabled := by decide
  normal := rfl
  periodic := rfl
  conditions := rfl
  listed := List.mem_cons_self
  isSet := rfl
  about := fun _ h => absurd h List.not_mem_nil

def quickPress : List WatchedAction := [.set 0 1002, .set 0 1003, .deliver 0, .deliver 0]

def buttonStep : Watched Int → WatchedAction → Watched Int :=
  step RuleEnv.utc (Resources.oneSensor {}) ⟨.uint32, "state/buttonevent", 0, 0⟩ pressed rSensors
    (1, "state/buttonevent")

theorem reacts_iff_quickPress :
    (∀ k currentDateTime e queue, quickPress[k]? = some (.deliver currentDateTime) →
        (stateAt buttonStep button quickPress k).queue = e :: queue →
        (0 ∈ (handled RuleEnv.utc (Resources.oneSensor {}) (1, "state/buttonevent")
            (stateAt buttonStep button quickPress k) currentDateTime e).1 ↔
          IsChange pressed.op pressed.num e)) ↔
      ∀ k currentDateTime e queue, quickPress[k]? = some (.deliver currentDateTime) →
        (stateAt buttonStep button quickPress k).queue = e :: queue →
        Agrees pressed.op pressed.num
          (stateAt buttonStep button quickPress k).item.num e :=
  reacts_iff pressed_comparesNumber button_ready quickPress

def pressEvent : Event where
  resource := rSensors
  what := "state/buttonevent"
  id := QString.ofLatin1 "1"
  num := 1002
  numPrevious := 1000

/-- **The first of two quick events is lost.**  The event about the press is a change to
1002, and when it is delivered the rule is not triggered. -/
theorem quickPress_lost :
    ComparesNumber RuleEnv.utc (Resources.oneSensor {}) pressed rSensors
        (1, "state/buttonevent") ∧
      Ready pressed rSensors 0 pressedRule button ∧
      (stateAt buttonStep button quickPress 2).queue.head? = some pressEvent ∧
      IsChange pressed.op pressed.num pressEvent ∧
      0 ∉ (handled RuleEnv.utc (Resources.oneSensor {}) (1, "state/buttonevent")
        (stateAt buttonStep button quickPress 2) 0 pressEvent).1 := by
  have hop : pressed.op = .equal := by decide +kernel
  have hnum : pressed.num = 1002 := by decide +kernel
  refine ⟨pressed_comparesNumber, button_ready, by decide +kernel, ?_, by decide +kernel⟩
  rw [hop, hnum]
  exact ⟨rfl, by decide⟩

end Watched
end RuleEngine
end DeconzRest

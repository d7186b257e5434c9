import DeconzRest.Lib.Transition
import DeconzRest.Qt.Text

/-!
# `StateChange`

A state change sends a command to a device and waits until the device has reported the
target value of every item.  `tick` is called at certain events of the device,
`verifyItemChange` whenever an item was set; both work on the `verified` flags.

What `tick` finds outside of the state change is its argument: the time, the load of the
APS queue, and what the change function and the read functions of the items return.
-/

namespace DeconzRest

/-- `ResourceItem::ValueSource` -/
inductive ValueSource where
  | unknown | device | api
deriving DecidableEq, Repr

/-- `StateChange::SyncResult` -/
inductive SyncResult where
  | unknown | synced | notSynced
deriving DecidableEq, Repr

/-- `StateChange::State` -/
inductive StateChangeState where
  | callFunction | waitSync | read | finished | failed
deriving DecidableEq, Repr

/-- `StateChange::Item` -/
structure TargetItem (D : Type) where
  suffix : String
  targetValue : QVariant D
  verified : SyncResult := .unknown

/-- `StateChange`; a timer is the time at which it was started. -/
structure StateChange (D : Type) where
  state : StateChangeState := .callFunction
  stateTimeoutMs : Int := 1000 * 5
  changeTimeoutMs : Int := 1000 * 180
  stateTimer : Int
  changeTimer : Int
  items : List (TargetItem D)

/-- What `tick` finds for an item that is to be read: no such item, an item without a
valid read function, or the read function and whether it enqueued a request. -/
inductive ReadOutcome where
  | noItem | noFunction | called (isEnqueued : Bool)
deriving DecidableEq, Repr

/-- What a `tick` finds: time, `DA_ApsUnconfirmedRequests`,
`DA_ApsUnconfirmedRequestsForExtAddress`, the result of the change function, and what comes
of reading an item. -/
structure Tick where
  now : Int
  unconfirmed : Nat := 0
  unconfirmedFor : Nat := 0
  changeResult : Int := 0
  read : String → ReadOutcome := fun _ => .called true

/-- The `ResourceItem` that was set. -/
structure ItemValue (D : Type) where
  suffix : String
  valueSource : ValueSource := .device
  value : QVariant D

/-- What a call of `tick` or `verifyItemChange` calls in turn. -/
inductive Sent where
  | nothing
  | function (result : Int)
  | read (suffix : String) (isEnqueued : Bool)
deriving DecidableEq, Repr

/-- The result of `tick`: 1 if an APS request was enqueued. -/
def Sent.result : Sent → Nat
  | .nothing => 0
  | .function r => if r = 0 then 1 else 0
  | .read _ isEnqueued => if isEnqueued then 1 else 0

/-- A call of `tick` or of `verifyItemChange`. -/
inductive StateChangeAction (D : Type) where
  | tick (t : Tick)
  | verify (item : ItemValue D)

namespace StateChange

variable {D : Type}

/-- No ZCL attribute read or report command was received for the item. -/
def unanswered (i : TargetItem D) : Bool := decide (i.verified = .unknown)

/-- `StateWaitSync` is left when the state timeout has passed. -/
def leaveWaitSync (c : StateChange D) (now : Int) : StateChange D :=
  if c.state = .waitSync ∧ c.stateTimeoutMs < now - c.stateTimer then
    { c with state := if c.items.any unanswered then .read else .callFunction }
  else
    c

def readAgain (i : TargetItem D) : TargetItem D :=
  if i.verified = .notSynced then { i with verified := .unknown } else i

/-- `StateRead`: the first item without an answer is read. -/
def readItem (c : StateChange D) (t : Tick) : StateChange D × Sent :=
  match c.items.find? unanswered with
  | none => ({ c with state := .failed }, .nothing)
  | some i =>
    match t.read i.suffix with
    | .noItem | .noFunction => ({ c with state := .failed }, .nothing)
    | .called isEnqueued =>
      ({ c with stateTimer := t.now, state := .waitSync }, .read i.suffix isEnqueued)

def TimeUp (c : StateChange D) (now : Int) : Prop :=
  0 < c.changeTimeoutMs ∧ c.changeTimeoutMs < now - c.changeTimer

instance (c : StateChange D) (now : Int) : Decidable (c.TimeUp now) :=
  inferInstanceAs (Decidable (_ ∧ _))

/-- `StateChange::tick` behind the check of `StateWaitSync`. -/
def act (c : StateChange D) (t : Tick) : StateChange D × Sent :=
  if c.TimeUp t.now then ({ c with state := .failed }, .nothing)
  else if 5 < t.unconfirmed then (c, .nothing)
  else if c.state = .callFunction then
    if t.changeResult = 0 then
      ({ c with items := c.items.map readAgain, stateTimer := t.now, state := .waitSync },
        .function t.changeResult)
    else
      (c, .function t.changeResult)
  else if c.state = .read ∧ t.unconfirmedFor = 0 then readItem c t
  else (c, .nothing)

/-- `StateChange::tick` -/
def tick (c : StateChange D) (t : Tick) : StateChange D × Sent :=
  if c.state = .finished ∨ c.state = .failed then (c, .nothing)
  else act (c.leaveWaitSync t.now) t

/-- The flag of an item after a value was received. -/
def verify (qt : Qt D) (item : ItemValue D) (i : TargetItem D) : TargetItem D :=
  if i.suffix = item.suffix then
    { i with verified := if qt.eqv i.targetValue item.value then .synced else .notSynced }
  else
    i

/-- `StateChange::verifyItemChange` -/
def verifyItemChange (qt : Qt D) (c : StateChange D) (item : ItemValue D) : StateChange D :=
  if item.valueSource ≠ .device then c
  else
    let items := c.items.map (verify qt item)
    if items.countP (fun i => i.verified = .synced) = items.length ∧ c.state ≠ .finished then
      { c with items := items, state := .finished }
    else
      { c with items := items }

def step (qt : Qt D) (c : StateChange D) : StateChangeAction D → StateChange D
  | .tick t => (c.tick t).1
  | .verify item => verifyItemChange qt c item

def sent (c : StateChange D) : StateChangeAction D → Sent
  | .tick t => (c.tick t).2
  | .verify _ => .nothing

/-- A state change as the constructor and `addTargetValue` leave it. -/
structure Fresh (c : StateChange D) : Prop where
  state : c.state = .callFunction ∨ c.state = .waitSync
  items : ∀ i ∈ c.items, i.verified = .unknown

def targets (c : StateChange D) : List (String × QVariant D) :=
  c.items.map fun i => (i.suffix, i.targetValue)

/-- No call changes the time limits and the targets. -/
structure Frame (c c' : StateChange D) : Prop where
  targets : c'.targets = c.targets
  stateTimeoutMs : c'.stateTimeoutMs = c.stateTimeoutMs
  changeTimeoutMs : c'.changeTimeoutMs = c.changeTimeoutMs
  changeTimer : c'.changeTimer = c.changeTimer

variable (c : StateChange D)

theorem Frame.refl : Frame c c := ⟨rfl, rfl, rfl, rfl⟩

theorem Frame.trans {c c' c'' : StateChange D} (h : Frame c c') (h' : Frame c' c'') : Frame c c'' :=
  ⟨h'.targets.trans h.targets, h'.stateTimeoutMs.trans h.stateTimeoutMs,
    h'.changeTimeoutMs.trans h.changeTimeoutMs, h'.changeTimer.trans h.changeTimer⟩

theorem Frame.length {c c' : StateChange D} (h : Frame c c') :
    c'.items.length = c.items.length := by
  have hlength := congrArg List.length h.targets
  unfold StateChange.targets at hlength
  rwa [List.length_map, List.length_map] at hlength

theorem items_leaveWaitSync (now : Int) : (c.leaveWaitSync now).items = c.items := by
  unfold leaveWaitSync
  split <;> rfl

theorem frame_leaveWaitSync (now : Int) : Frame c (c.leaveWaitSync now) := by
  unfold leaveWaitSync
  split
  · exact ⟨rfl, rfl, rfl, rfl⟩
  · exact Frame.refl c

theorem frame_act (t : Tick) : Frame c (c.act t).1 := by
  have hread : Frame c (readItem c t).1 := by
    unfold readItem
    split
    · exact ⟨rfl, rfl, rfl, rfl⟩
    · split <;> exact ⟨rfl, rfl, rfl, rfl⟩
  have hagain : (c.items.map readAgain).map (fun i => (i.suffix, i.targetValue)) = c.targets := by
    rw [List.map_map]
    apply List.map_congr_left
    intro i _
    show ((readAgain i).suffix, (readAgain i).targetValue) = _
    unfold readAgain
    split <;> rfl
  unfold act
  split
  · exact ⟨rfl, rfl, rfl, rfl⟩
  · split
    · exact Frame.refl c
    · split
      · split
        · exact ⟨hagain, rfl, rfl, rfl⟩
        · exact Frame.refl c
      · split
        · exact hread
        · exact Frame.refl c

theorem frame_step (qt : Qt D) (c : StateChange D) (a : StateChangeAction D) :
    Frame c (step qt c a) := by
  cases a with
  | tick t =>
    unfold step tick
    simp only
    split
    · exact Frame.refl c
    · exact (frame_leaveWaitSync c t.now).trans (frame_act _ t)
  | verify item =>
    have hitems : (c.items.map (verify qt item)).map (fun i => (i.suffix, i.targetValue)) =
        c.targets := by
      rw [List.map_map]
      apply List.map_congr_left
      intro i _
      show ((verify qt item i).suffix, (verify qt item i).targetValue) = _
      unfold verify
      split <;> rfl
    unfold step verifyItemChange
    simp only
    split
    · exact Frame.refl c
    · split
      · exact ⟨hitems, rfl, rfl, rfl⟩
      · exact ⟨hitems, rfl, rfl, rfl⟩

/-! ## What a tick can do -/

def Live (c : StateChange D) : Prop := c.state ≠ .finished ∧ c.state ≠ .failed

/-- The outcomes of a `tick`, each with what was found. -/
inductive Ticks (c : StateChange D) (t : Tick) : StateChange D × Sent → Prop where
  | ended (h : ¬ c.Live) : Ticks c t (c, .nothing)
  | timeUp (hlive : c.Live) (h : c.TimeUp t.now) :
      Ticks c t ({ c.leaveWaitSync t.now with state := .failed }, .nothing)
  | waits (hlive : c.Live) (htime : ¬ c.TimeUp t.now)
      (h : 5 < t.unconfirmed ∨ (c.leaveWaitSync t.now).state = .waitSync ∨
        ((c.leaveWaitSync t.now).state = .read ∧ t.unconfirmedFor ≠ 0)) :
      Ticks c t (c.leaveWaitSync t.now, .nothing)
  | calls (hlive : c.Live) (htime : ¬ c.TimeUp t.now) (hfree : t.unconfirmed ≤ 5)
      (hstate : (c.leaveWaitSync t.now).state = .callFunction) (h : t.changeResult = 0) :
      Ticks c t ({ c.leaveWaitSync t.now with
        items := c.items.map readAgain, stateTimer := t.now, state := .waitSync },
        .function t.changeResult)
  | refused (hlive : c.Live) (htime : ¬ c.TimeUp t.now) (hfree : t.unconfirmed ≤ 5)
      (hstate : (c.leaveWaitSync t.now).state = .callFunction) (h : t.changeResult ≠ 0) :
      Ticks c t (c.leaveWaitSync t.now, .function t.changeResult)
  | stuck (hlive : c.Live) (htime : ¬ c.TimeUp t.now) (hfree : t.unconfirmed ≤ 5)
      (hstate : (c.leaveWaitSync t.now).state = .read) (hfor : t.unconfirmedFor = 0)
      (h : c.items.find? unanswered = none) :
      Ticks c t ({ c.leaveWaitSync t.now with state := .failed }, .nothing)
  | unreadable (hlive : c.Live) (htime : ¬ c.TimeUp t.now) (hfree : t.unconfirmed ≤ 5)
      (hstate : (c.leaveWaitSync t.now).state = .read) (hfor : t.unconfirmedFor = 0)
      {i : TargetItem D} (h : c.items.find? unanswered = some i)
      (hread : t.read i.suffix = .noItem ∨ t.read i.suffix = .noFunction) :
      Ticks c t ({ c.leaveWaitSync t.now with state := .failed }, .nothing)
  | reads (hlive : c.Live) (htime : ¬ c.TimeUp t.now) (hfree : t.unconfirmed ≤ 5)
      (hstate : (c.leaveWaitSync t.now).state = .read) (hfor : t.unconfirmedFor = 0)
      {i : TargetItem D} (h : c.items.find? unanswered = some i) {isEnqueued : Bool}
      (hread : t.read i.suffix = .called isEnqueued) :
      Ticks c t ({ c.leaveWaitSync t.now with stateTimer := t.now, state := .waitSync },
        .read i.suffix isEnqueued)

theorem leaveWaitSync_live {c : StateChange D} (h : c.Live) (now : Int) :
    (c.leaveWaitSync now).Live := by
  unfold leaveWaitSync
  split
  · refine ⟨?_, ?_⟩
    · show (if _ then StateChangeState.read else .callFunction) ≠ _
      split <;> decide
    · show (if _ then StateChangeState.read else .callFunction) ≠ _
      split <;> decide
  · exact h

theorem timeUp_leaveWaitSync (now : Int) : (c.leaveWaitSync now).TimeUp now ↔ c.TimeUp now := by
  have hframe := frame_leaveWaitSync c now
  unfold TimeUp
  rw [hframe.changeTimeoutMs, hframe.changeTimer]

/-- **A tick does one of these.** -/
theorem tick_outcome (t : Tick) : Ticks c t (c.tick t) := by
  by_cases hended : c.state = .finished ∨ c.state = .failed
  · unfold tick
    rw [if_pos hended]
    exact .ended fun hlive => hended.elim hlive.1 hlive.2
  have hlive : c.Live := by
    rw [not_or] at hended
    exact hended
  have hitems := items_leaveWaitSync c t.now
  unfold tick act
  rw [if_neg hended]
  by_cases htime : c.TimeUp t.now
  · rw [if_pos ((timeUp_leaveWaitSync c t.now).mpr htime)]
    exact .timeUp hlive htime
  rw [if_neg (fun h => htime ((timeUp_leaveWaitSync c t.now).mp h))]
  by_cases hbusy : 5 < t.unconfirmed
  · rw [if_pos hbusy]
    exact .waits hlive htime (.inl hbusy)
  rw [if_neg hbusy]
  have hfree : t.unconfirmed ≤ 5 := by omega
  by_cases hcall : (c.leaveWaitSync t.now).state = .callFunction
  · rw [if_pos hcall]
    by_cases hresult : t.changeResult = 0
    · rw [if_pos hresult, hitems]
      exact .calls hlive htime hfree hcall hresult
    · rw [if_neg hresult]
      exact .refused hlive htime hfree hcall hresult
  rw [if_neg hcall]
  by_cases hread : (c.leaveWaitSync t.now).state = .read ∧ t.unconfirmedFor = 0
  · rw [if_pos hread]
    unfold readItem
    cases hfind : (c.leaveWaitSync t.now).items.find? unanswered with
    | none =>
      rw [hitems] at hfind
      exact .stuck hlive htime hfree hread.1 hread.2 hfind
    | some i =>
      rw [hitems] at hfind
      simp only
      cases houtcome : t.read i.suffix with
      | noItem => exact .unreadable hlive htime hfree hread.1 hread.2 hfind (.inl houtcome)
      | noFunction => exact .unreadable hlive htime hfree hread.1 hread.2 hfind (.inr houtcome)
      | called isEnqueued => exact .reads hlive htime hfree hread.1 hread.2 hfind houtcome
  · rw [if_neg hread]
    -- of the five states only these two are left
    have hlive' := leaveWaitSync_live hlive t.now
    refine .waits hlive htime (.inr ?_)
    cases hstate : (c.leaveWaitSync t.now).state with
    | callFunction => exact absurd hstate hcall
    | waitSync => exact .inl rfl
    | read => exact .inr ⟨rfl, fun hfor => hread ⟨hstate, hfor⟩⟩
    | finished => exact absurd hstate hlive'.1
    | failed => exact absurd hstate hlive'.2

end StateChange
end DeconzRest

import DeconzRest.Lib.Transition

/-!
# The poll states of a device

A device that is idle runs a machine of three states: `DEV_PollIdleStateHandler` collects what is
due, `DEV_PollNextStateHandler` calls the read function of the next item and
`DEV_PollBusyStateHandler` waits for its answer.

The queue is kept with the item that is read next in front (the vector keeps it at its back).  A
place in the queue is named by the number of items behind it, and `log` keeps what the machine
does, the last entry in front.
-/

namespace DeconzRest

open Transition List

/-- `DEV_PollIdleStateHandler`, `DEV_PollNextStateHandler` and `DEV_PollBusyStateHandler`. -/
inductive PollState where
  | idle | next | busy
deriving DecidableEq, Repr

/-- `DA_ReadResult` -/
structure ReadResult where
  isEnqueued : Bool := false
  ignoreResponseSequenceNumber : Bool := false
  apsReqId : UInt8 := 0
  sequenceNumber : UInt8 := 0
  clusterId : UInt16 := 0
deriving DecidableEq, Repr

/-- `DEV_PollItem`; `item` stands for the resource, the resource item and the read parameters. -/
structure PollItem (κ : Type*) where
  item : κ
  retry : Nat := 0
deriving DecidableEq, Repr

/-- What a handler asks for: `DA_ApsUnconfirmedRequests`, the random delay, whether the device
is reachable and a sleeper, what `DEV_GetPollItems` collects, and what the read function of an
item returns (`none` when there is no read function). -/
structure PollWorld (κ : Type*) where
  unconfirmed : Nat := 0
  randomDelay : Nat := 0
  reachable : Bool := true
  sleeper : Bool := false
  items : List κ := []
  read : κ → Option ReadResult := fun _ => none

/-- What comes to the poll states.  A timeout of `StateLevel0` is handed down by
`DEV_IdleStateHandler`. -/
inductive PollEvent (κ : Type*) where
  | poll (w : PollWorld κ)
  | awake (w : PollWorld κ)
  | stateEnter (w : PollWorld κ)
  | apsConfirm (id status : UInt8)
  | zclResponse (clusterId : UInt16) (sequenceNumber status : UInt8)
  | timeout (w : PollWorld κ)
  | parentTimeout (w : PollWorld κ)

inductive PollOutput (κ : Type*) where
  /-- `DEV_GetPollItems` was called on `REventAwake` or on `REventPoll`. -/
  | built (awake : Bool) (items : List κ)
  /-- A read function was called for the item with `place` items behind it. -/
  | read (item : κ) (place : Nat) (result : ReadResult)
  /-- `REventPollDone` -/
  | pollDone
  /-- `REventZdpReload` -/
  | zdpReload
  /-- `setZclUnsupportedAttribute` -/
  | unsupported (item : κ)
deriving DecidableEq, Repr

/-- What `DevicePrivate` keeps for `STATE_LEVEL_POLL`; `enters` counts the `REventStateEnter` that
are not delivered yet. -/
structure PollMachine (κ : Type*) where
  deviceKey : Nat
  state : PollState := .idle
  pollItems : List (PollItem κ) := []
  readResult : ReadResult := {}
  stateEnterLock : Bool := true
  enters : Nat := 1
  timer : Option Nat := none
  needZDPMaintenanceOnce : Bool := false
  maxResponseTime : Nat := 8000
  log : List (PollOutput κ) := []
deriving DecidableEq, Repr

namespace PollMachine

variable {κ : Type*}

/-- `MaxPollItemRetries` -/
def maxPollItemRetries : Nat := 3

/-- `MaxConfirmTimeout` -/
def maxConfirmTimeout : Nat := 20000

/-- `DevicePrivate::startStateTimer` -/
def startStateTimer (d : PollMachine κ) (intervalMs : Nat) : PollMachine κ :=
  { d with timer := some intervalMs }

/-- `REventStateLeave` -/
def leave (d : PollMachine κ) : PollMachine κ :=
  match d.state with
  | .idle => d
  | .next | .busy => { d with timer := none }

/-- `DevicePrivate::setState` -/
def setState (d : PollMachine κ) (newState : PollState) : PollMachine κ :=
  if d.state ≠ newState then
    { d.leave with state := newState, stateEnterLock := true, enters := d.enters + 1 }
  else d

/-- `DEV_EnqueueEvent`, and what else is done to others. -/
def output (d : PollMachine κ) (o : PollOutput κ) : PollMachine κ := { d with log := o :: d.log }

/-! ## The handlers -/

/-- The one time refresh of ZDP data is due. -/
def maintenanceDue (d : PollMachine κ) (w : PollWorld κ) : Bool :=
  d.needZDPMaintenanceOnce && decide (d.deviceKey % 256 < w.randomDelay + 1)

/-- `DEV_GetPollItems` and what follows it. -/
def collect (d : PollMachine κ) (w : PollWorld κ) (awake : Bool) : PollMachine κ :=
  let d := { d with pollItems := w.items.map fun item => { item } }.output (.built awake w.items)
  if ¬ w.items.isEmpty then d.setState .next
  else if ¬ awake then d.output .pollDone -- notify DeviceTick to proceed
  else d

/-- `DEV_PollIdleStateHandler` on `REventPoll` and `REventAwake` -/
def collectIdle (d : PollMachine κ) (w : PollWorld κ) (awake : Bool) : PollMachine κ :=
  if 4 < w.unconfirmed then d -- wait
  else if d.maintenanceDue w then
    let d := { d with needZDPMaintenanceOnce := false }
    if ¬ w.sleeper ∧ w.reachable then d.output .zdpReload else d.collect w awake
  else d.collect w awake

/-- `DEV_PollIdleStateHandler` -/
def pollIdle (d : PollMachine κ) : PollEvent κ → PollMachine κ
  | .poll w => d.collectIdle w false
  | .awake w => d.collectIdle w true
  | _ => d

/-- `checkPollItemRetry` -/
def checkPollItemRetry : List (PollItem κ) → List (PollItem κ)
  | [] => []
  | pollItem :: rest =>
    if maxPollItemRetries ≤ pollItem.retry + 1 then rest
    else { pollItem with retry := pollItem.retry + 1 } :: rest

/-- `DEV_PollNextStateHandler` on `REventStateEnter` and `REventStateTimeout` -/
def readNext (d : PollMachine κ) (w : PollWorld κ) : PollMachine κ :=
  match if w.reachable then d.pollItems else [] with
  | [] => ({ d with pollItems := [] }.setState .idle).output .pollDone
  | poll :: rest =>
    match w.read poll.item with
    | none => -- no read function, try next
        { d with readResult := {}, pollItems := rest }.startStateTimer 5
    | some result =>
      let d := { d with readResult := result }.output (.read poll.item rest.length result)
      if result.isEnqueued then d.setState .busy
      else -- the retry counter as in checkPollItemRetry, try again
        { d with pollItems := checkPollItemRetry (poll :: rest) }.startStateTimer
          d.maxResponseTime

/-- `DEV_PollNextStateHandler` -/
def pollNext (d : PollMachine κ) : PollEvent κ → PollMachine κ
  | .stateEnter w | .timeout w | .parentTimeout w => d.readNext w
  | _ => d

def answers (result : ReadResult) (clusterId : UInt16) (sequenceNumber : UInt8) : Bool :=
  result.clusterId == clusterId &&
    (result.sequenceNumber == sequenceNumber || result.ignoreResponseSequenceNumber)

/-- The front item is finished; `ZclUnsupportedAttributeStatus` marks its resource item. -/
def finish (d : PollMachine κ) (status : UInt8) : PollMachine κ :=
  match d.pollItems with
  | [] => d
  | poll :: rest =>
    let d := { d with pollItems := rest }
    if status = 0x86 then d.output (.unsupported poll.item) else d

/-- `DEV_PollBusyStateHandler` -/
def pollBusy (d : PollMachine κ) : PollEvent κ → PollMachine κ
  | .stateEnter _ => d.startStateTimer maxConfirmTimeout
  | .apsConfirm id status =>
    if id = d.readResult.apsReqId then
      if status = 0 then d.startStateTimer d.maxResponseTime
      else { d with pollItems := checkPollItemRetry d.pollItems }.setState .next
    else d
  | .zclResponse clusterId sequenceNumber status =>
    if answers d.readResult clusterId sequenceNumber then (d.finish status).setState .next
    else d
  | .timeout _ | .parentTimeout _ =>
    { d with pollItems := checkPollItemRetry d.pollItems }.setState .next
  | _ => d

def handle (d : PollMachine κ) (e : PollEvent κ) : PollMachine κ :=
  match d.state with
  | .idle => d.pollIdle e
  | .next => d.pollNext e
  | .busy => d.pollBusy e

/-- One event: `Device::handleEvent` and `Device::timerEvent`. -/
def step (d : PollMachine κ) (e : PollEvent κ) : PollMachine κ :=
  match e with
  | .stateEnter w =>
    if d.enters = 0 then d
    else { d with enters := d.enters - 1, stateEnterLock := false }.handle (.stateEnter w)
  | .timeout w =>
    if d.timer.isSome then { d with timer := none }.handle (.timeout w) else d
  | e => if d.stateEnterLock then d else d.handle e

/-- `DEV_IdleStateHandler` on `REventStateEnter`: the poll states start, whatever an earlier run
has left behind. -/
def entered (d : PollMachine κ) : PollMachine κ :=
  { d with state := .idle, stateEnterLock := true, enters := d.enters + 1, log := [] }

/-- How often a read function was called for a place of the last queue. -/
def readsAt (place : Nat) : List (PollOutput κ) → Nat
  | [] => 0
  | .built _ _ :: _ => 0
  | .read _ p _ :: log => readsAt place log + if p = place then 1 else 0
  | .pollDone :: log | .zdpReload :: log | .unsupported _ :: log => readsAt place log

def lastBuilt : List (PollOutput κ) → Option (List κ)
  | [] => none
  | .built _ items :: _ => some items
  | .read _ _ _ :: log | .pollDone :: log | .zdpReload :: log | .unsupported _ :: log =>
    lastBuilt log

def lastRead : List (PollOutput κ) → Option (κ × Nat × ReadResult)
  | [] => none
  | .read item place result :: _ => some (item, place, result)
  | .built _ _ :: log | .pollDone :: log | .zdpReload :: log | .unsupported _ :: log =>
    lastRead log

/-- `REventPollDone` was enqueued since the last queue was built, if there was one; with
`awakeEmpty`, or that queue was built empty on `REventAwake`. -/
def doneSince (awakeEmpty : Bool) : List (PollOutput κ) → Bool
  | [] => true
  | .built awake items :: _ => awakeEmpty && awake && items.isEmpty
  | .pollDone :: _ => true
  | .read _ _ _ :: log | .zdpReload :: log | .unsupported _ :: log => doneSince awakeEmpty log

def queues (log : List (PollOutput κ)) : Nat :=
  log.countP fun
    | .built _ _ => true
    | _ => false

theorem queues_built (awake : Bool) (items : List κ) (log : List (PollOutput κ)) :
    queues (.built awake items :: log) = queues log + 1 :=
  countP_cons_of_pos rfl

/-- The log says the same about the queue. -/
structure SameLog (log log' : List (PollOutput κ)) : Prop where
  reads : ∀ place, readsAt place log' = readsAt place log
  built : lastBuilt log' = lastBuilt log
  read : lastRead log' = lastRead log
  done : ∀ awakeEmpty, doneSince awakeEmpty log' = doneSince awakeEmpty log
  queues : queues log' = queues log

variable (log : List (PollOutput κ))

theorem SameLog.refl : SameLog log log :=
  ⟨fun _ => rfl, rfl, rfl, fun _ => rfl, rfl⟩

theorem SameLog.zdpReload : SameLog log (.zdpReload :: log) :=
  ⟨fun _ => rfl, rfl, rfl, fun _ => rfl, rfl⟩

theorem SameLog.unsupported (item : κ) : SameLog log (.unsupported item :: log) :=
  ⟨fun _ => rfl, rfl, rfl, fun _ => rfl, rfl⟩

/-! ## What an event does -/

inductive Outcome (d : PollMachine κ) : PollEvent κ → PollMachine κ → Prop
  /-- Nothing, or a reload is asked for. -/
  | stays {e : PollEvent κ} {d' : PollMachine κ} (hstate : d'.state = d.state)
      (hitems : d'.pollItems = d.pollItems) (hresult : d'.readResult = d.readResult)
      (hlog : SameLog d.log d'.log) : Outcome d e d'
  /-- A queue with items is built. -/
  | builds {e : PollEvent κ} {d' : PollMachine κ} {awake : Bool} {items : List κ}
      (hidle : d.state = .idle) (hsome : items ≠ []) (hstate : d'.state = .next)
      (hitems : d'.pollItems = items.map fun item => { item })
      (hlog : d'.log = .built awake items :: d.log) : Outcome d e d'
  /-- There is nothing to poll. -/
  | buildsNone {e : PollEvent κ} {d' : PollMachine κ} {awake : Bool} (hidle : d.state = .idle)
      (hstate : d'.state = .idle) (hitems : d'.pollItems = [])
      (hlog : d'.log = if awake then .built awake [] :: d.log
        else .pollDone :: .built awake [] :: d.log) : Outcome d e d'
  /-- The queue is empty or dropped. -/
  | ends {e : PollEvent κ} {d' : PollMachine κ} (hnext : d.state = .next)
      (hstate : d'.state = .idle) (hitems : d'.pollItems = [])
      (hlog : d'.log = .pollDone :: d.log) : Outcome d e d'
  /-- The front item has no read function. -/
  | skips {e : PollEvent κ} {d' : PollMachine κ} (hnext : d.state = .next)
      (hstate : d'.state = .next) {poll : PollItem κ} (hitems : d.pollItems = poll :: d'.pollItems)
      (hlog : d'.log = d.log) : Outcome d e d'
  /-- A request for the front item is sent. -/
  | sends {e : PollEvent κ} {d' : PollMachine κ} (hnext : d.state = .next)
      (hstate : d'.state = .busy) (hsame : d'.pollItems = d.pollItems) {poll : PollItem κ}
      {rest : List (PollItem κ)} (hitems : d.pollItems = poll :: rest)
      (hlog : d'.log = .read poll.item rest.length d'.readResult :: d.log) : Outcome d e d'
  /-- No request for the front item could be sent. -/
  | fails {e : PollEvent κ} {d' : PollMachine κ} (hnext : d.state = .next)
      (hstate : d'.state = .next) {poll : PollItem κ} {rest : List (PollItem κ)}
      (hitems : d.pollItems = poll :: rest)
      (hretry : d'.pollItems = checkPollItemRetry (poll :: rest))
      (hlog : d'.log = .read poll.item rest.length d'.readResult :: d.log) : Outcome d e d'
  /-- The request got no answer. -/
  | retries {e : PollEvent κ} {d' : PollMachine κ} (hbusy : d.state = .busy)
      (hstate : d'.state = .next) (hitems : d'.pollItems = checkPollItemRetry d.pollItems)
      (hlog : d'.log = d.log) (he : ∀ c s t, e ≠ .zclResponse c s t) : Outcome d e d'
  /-- The response to the request has arrived. -/
  | responds {clusterId : UInt16} {sequenceNumber status : UInt8} {d' : PollMachine κ}
      (hbusy : d.state = .busy) (hstate : d'.state = .next)
      (hitems : d'.pollItems = d.pollItems.tail)
      (hanswers : answers d.readResult clusterId sequenceNumber = true)
      (hlog : SameLog d.log d'.log) : Outcome d (.zclResponse clusterId sequenceNumber status) d'

theorem Outcome.congr {d₀ d d' : PollMachine κ} {e : PollEvent κ} (h : Outcome d₀ e d')
    (hstate : d₀.state = d.state) (hitems : d₀.pollItems = d.pollItems)
    (hresult : d₀.readResult = d.readResult) (hlog : d₀.log = d.log) : Outcome d e d' := by
  cases d₀
  cases d
  subst hstate hitems hresult hlog
  cases h with
  | stays hstate hitems hresult hlog => exact .stays hstate hitems hresult hlog
  | builds hidle hsome hstate hitems hlog => exact .builds hidle hsome hstate hitems hlog
  | buildsNone hidle hstate hitems hlog => exact .buildsNone hidle hstate hitems hlog
  | ends hnext hstate hitems hlog => exact .ends hnext hstate hitems hlog
  | skips hnext hstate hitems hlog => exact .skips hnext hstate hitems hlog
  | sends hnext hstate hsame hitems hlog => exact .sends hnext hstate hsame hitems hlog
  | fails hnext hstate hitems hretry hlog => exact .fails hnext hstate hitems hretry hlog
  | retries hbusy hstate hitems hlog he => exact .retries hbusy hstate hitems hlog he
  | responds hbusy hstate hitems hanswers hlog =>
    exact .responds hbusy hstate hitems hanswers hlog

variable (d : PollMachine κ)

theorem setState_state (s : PollState) : (d.setState s).state = s := by
  unfold setState
  split
  · rfl
  · rename_i hsame
    exact not_not.mp hsame

theorem leave_keeps : d.leave.pollItems = d.pollItems ∧ d.leave.readResult = d.readResult ∧
    d.leave.log = d.log := by
  unfold leave
  split <;> exact ⟨rfl, rfl, rfl⟩

theorem setState_keeps (s : PollState) :
    (d.setState s).pollItems = d.pollItems ∧ (d.setState s).readResult = d.readResult ∧
      (d.setState s).log = d.log := by
  unfold setState
  split
  · exact leave_keeps d
  · exact ⟨rfl, rfl, rfl⟩

@[simp] theorem setState_pollItems (s : PollState) :
    (d.setState s).pollItems = d.pollItems := (setState_keeps d s).1

@[simp] theorem setState_readResult (s : PollState) :
    (d.setState s).readResult = d.readResult := (setState_keeps d s).2.1

@[simp] theorem setState_log (s : PollState) :
    (d.setState s).log = d.log := (setState_keeps d s).2.2

theorem collect_outcome {d : PollMachine κ} (hidle : d.state = .idle) (w : PollWorld κ)
    (awake : Bool) (e : PollEvent κ) : Outcome d e (d.collect w awake) := by
  unfold collect
  simp only
  split
  · rename_i hsome
    have hne : w.items ≠ [] := fun hnil => hsome (List.isEmpty_iff.mpr hnil)
    exact .builds hidle hne (setState_state _ _) (setState_pollItems _ _) (setState_log _ _)
  · rename_i hnone
    have hnil : w.items = [] := List.isEmpty_iff.mp (not_not.mp hnone)
    rw [hnil]
    cases awake with
    | true => exact .buildsNone hidle hidle rfl (if_pos rfl).symm
    | false => exact .buildsNone hidle hidle rfl (if_neg Bool.false_ne_true).symm

theorem collectIdle_outcome {d : PollMachine κ} (hidle : d.state = .idle) (w : PollWorld κ)
    (awake : Bool) (e : PollEvent κ) : Outcome d e (d.collectIdle w awake) := by
  unfold collectIdle
  split
  · exact .stays rfl rfl rfl (.refl _)
  · split
    · simp only
      split
      · exact .stays rfl rfl rfl (.zdpReload _)
      · have hcollect := collect_outcome (d := { d with needZDPMaintenanceOnce := false }) hidle w
          awake e
        exact hcollect.congr rfl rfl rfl rfl
    · exact collect_outcome hidle w awake e

theorem readNext_outcome {d : PollMachine κ} (hnext : d.state = .next) (w : PollWorld κ)
    (e : PollEvent κ) : Outcome d e (d.readNext w) := by
  unfold readNext
  split
  · exact .ends hnext (setState_state _ _) (setState_pollItems _ _)
      (congrArg (PollOutput.pollDone :: ·) (setState_log _ _))
  · rename_i poll rest hitems
    have hitems : d.pollItems = poll :: rest := by
      split at hitems
      · exact hitems
      · exact absurd hitems (by simp)
    split
    · exact .skips hnext hnext hitems rfl
    · simp only
      split
      · exact .sends hnext (setState_state _ _) (setState_pollItems _ _) hitems
          (by rw [setState_log, setState_readResult]; rfl)
      · exact .fails hnext hnext hitems rfl rfl

theorem finish_keeps (status : UInt8) :
    (d.finish status).pollItems = d.pollItems.tail ∧ SameLog d.log (d.finish status).log := by
  unfold finish
  split
  · rename_i hnil
    rw [hnil]
    exact ⟨rfl, .refl _⟩
  · rename_i poll rest hitems
    rw [hitems]
    simp only
    split
    · exact ⟨rfl, .unsupported _ _⟩
    · exact ⟨rfl, .refl _⟩

theorem pollBusy_outcome {d : PollMachine κ} (hbusy : d.state = .busy) (e : PollEvent κ) :
    Outcome d e (d.pollBusy e) := by
  cases e with
  | poll w | awake w => exact .stays rfl rfl rfl (.refl _)
  | stateEnter w => exact .stays rfl rfl rfl (.refl _)
  | timeout w | parentTimeout w =>
    exact .retries hbusy (setState_state _ _) (setState_pollItems _ _) (setState_log _ _) nofun
  | apsConfirm id status =>
    unfold pollBusy
    simp only
    split
    · split
      · exact .stays rfl rfl rfl (.refl _)
      · exact .retries hbusy (setState_state _ _) (setState_pollItems _ _) (setState_log _ _)
          nofun
    · exact .stays rfl rfl rfl (.refl _)
  | zclResponse clusterId sequenceNumber status =>
    unfold pollBusy
    simp only
    split
    · rename_i hanswers
      have hkeeps := finish_keeps d status
      refine .responds hbusy (setState_state _ _) ?_ hanswers ?_
      · rw [setState_pollItems, hkeeps.1]
      · rw [setState_log]
        exact hkeeps.2
    · exact .stays rfl rfl rfl (.refl _)

theorem handle_outcome (e : PollEvent κ) : Outcome d e (d.handle e) := by
  unfold handle
  cases hstate : d.state with
  | idle =>
    cases e with
    | poll w => exact collectIdle_outcome hstate w false _
    | awake w => exact collectIdle_outcome hstate w true _
    | stateEnter | apsConfirm | zclResponse | timeout | parentTimeout =>
      exact .stays rfl rfl rfl (.refl _)
  | next =>
    cases e with
    | stateEnter w | timeout w | parentTimeout w => exact readNext_outcome hstate w _
    | poll | awake | apsConfirm | zclResponse => exact .stays rfl rfl rfl (.refl _)
  | busy => exact pollBusy_outcome hstate e

/-- **What an event does**, by the handler it reaches. -/
theorem step_outcome (e : PollEvent κ) : Outcome d e (d.step e) := by
  have hnothing : Outcome d e d := .stays rfl rfl rfl (.refl _)
  unfold step
  split
  · split
    · exact hnothing
    · exact Outcome.congr (handle_outcome _ _) rfl rfl rfl rfl
  · split
    · exact Outcome.congr (handle_outcome _ _) rfl rfl rfl rfl
    · exact hnothing
  · split
    · exact hnothing
    · exact handle_outcome d _

/-- The front item was read once for each of its retries, and once more while its answer is
waited for; the items behind it were not read. -/
def Counted (waiting : Bool) (log : List (PollOutput κ)) : List (PollItem κ) → Prop
  | [] => True
  | poll :: rest =>
    poll.retry < maxPollItemRetries ∧ readsAt rest.length log = poll.retry + waiting.toNat ∧
      (∀ place < rest.length, readsAt place log = 0) ∧ ∀ q ∈ rest, q.retry = 0

variable {items : List (PollItem κ)}

theorem Counted.tail {waiting : Bool} {log : List (PollOutput κ)} (h : Counted waiting log items) :
    Counted false log items.tail := by
  cases items with
  | nil => trivial
  | cons poll rest =>
    cases rest with
    | nil => trivial
    | cons next rest =>
      obtain ⟨-, -, hreads, hretries⟩ := h
      have hnext : next.retry = 0 := hretries next mem_cons_self
      refine ⟨by rw [hnext]; decide, ?_, ?_, ?_⟩
      · rw [hreads rest.length (Nat.lt_succ_self _), hnext]
        rfl
      · exact fun place hplace => hreads place (Nat.lt_succ_of_lt hplace)
      · exact fun q hq => hretries q (mem_cons_of_mem _ hq)

theorem Counted.read {log : List (PollOutput κ)} {poll : PollItem κ} {rest : List (PollItem κ)}
    (h : Counted false log (poll :: rest)) (result : ReadResult) :
    Counted true (.read poll.item rest.length result :: log) (poll :: rest) := by
  obtain ⟨hretry, hreads, hbehind, hretries⟩ := h
  refine ⟨hretry, ?_, ?_, hretries⟩
  · show readsAt rest.length log + (if rest.length = rest.length then 1 else 0) = _
    rw [if_pos rfl, hreads]
    rfl
  · intro place hplace
    show readsAt place log + (if rest.length = place then 1 else 0) = 0
    rw [if_neg (Nat.ne_of_gt hplace), hbehind place hplace]

theorem Counted.check {log : List (PollOutput κ)} (h : Counted true log items) :
    Counted false log (checkPollItemRetry items) := by
  cases items with
  | nil => trivial
  | cons poll rest =>
    simp only [checkPollItemRetry]
    split
    · exact h.tail
    · rename_i hfewer
      obtain ⟨-, hreads, hbehind, hretries⟩ := h
      exact ⟨Nat.lt_of_not_le hfewer, hreads, hbehind, hretries⟩

theorem Counted.built (awake : Bool) (items : List κ) :
    Counted false (.built awake items :: log) (items.map fun item => { item }) := by
  cases items with
  | nil => trivial
  | cons item items =>
    refine ⟨Nat.zero_lt_succ _, rfl, fun _ _ => rfl, ?_⟩
    intro q hq
    obtain ⟨item', -, rfl⟩ := mem_map.mp hq
    rfl

theorem counted_congr {waiting : Bool} {log log' : List (PollOutput κ)} (hlog : SameLog log log')
    (h : Counted waiting log items) : Counted waiting log' items := by
  cases items with
  | nil => trivial
  | cons poll rest =>
    obtain ⟨hretry, hreads, hbehind, hretries⟩ := h
    refine ⟨hretry, (hlog.reads _).trans hreads, ?_, hretries⟩
    exact fun place hplace => (hlog.reads place).trans (hbehind place hplace)

theorem check_suffix (items : List (PollItem κ)) :
    (checkPollItemRetry items).map PollItem.item <:+ items.map PollItem.item := by
  cases items with
  | nil => exact suffix_rfl
  | cons poll rest =>
    simp only [checkPollItemRetry]
    split
    · exact suffix_cons _ _
    · exact suffix_rfl

theorem tail_suffix (items : List (PollItem κ)) :
    items.tail.map PollItem.item <:+ items.map PollItem.item := by
  rw [map_tail]
  exact List.tail_suffix _

/-! ## The machine -/

/-- What holds between two events. -/
structure Polling (d : PollMachine κ) : Prop where
  reads : ∀ place, readsAt place d.log ≤ maxPollItemRetries
  idle : d.state = .idle → doneSince true d.log = true ∧ (lastBuilt d.log ≠ none → d.pollItems = [])
  counted : d.state ≠ .idle → Counted (d.state == .busy) d.log d.pollItems
  waiting : d.state = .busy → ∃ poll rest, d.pollItems = poll :: rest ∧ lastRead d.log =
    some (poll.item, rest.length, d.readResult)

theorem polling_entered : Polling d.entered where
  reads := fun _ => Nat.zero_le _
  idle := fun _ => ⟨rfl, fun hbuilt => absurd rfl hbuilt⟩
  counted := fun hstate => absurd rfl hstate
  waiting := nofun

theorem polling_idle {d' : PollMachine κ} (hstate : d'.state = .idle)
    (hreads : ∀ place, readsAt place d'.log ≤ maxPollItemRetries)
    (hdone : doneSince true d'.log = true) (hitems : d'.pollItems = []) : Polling d' where
  reads := hreads
  idle := fun _ => ⟨hdone, fun _ => hitems⟩
  counted := fun hidle => absurd hstate hidle
  waiting := fun hbusy => absurd (hstate.symm.trans hbusy) (by decide)

theorem polling_next {d' : PollMachine κ} (hstate : d'.state = .next)
    (hreads : ∀ place, readsAt place d'.log ≤ maxPollItemRetries)
    (hcounted : Counted false d'.log d'.pollItems) : Polling d' where
  reads := hreads
  idle := fun hidle => absurd (hstate.symm.trans hidle) (by decide)
  counted := fun _ => by rwa [hstate]
  waiting := fun hbusy => absurd (hstate.symm.trans hbusy) (by decide)

theorem reads_le {log : List (PollOutput κ)} {poll : PollItem κ} {rest : List (PollItem κ)}
    (hreads : ∀ place, readsAt place log ≤ maxPollItemRetries)
    (h : Counted false log (poll :: rest)) (result : ReadResult) (place : Nat) :
    readsAt place (.read poll.item rest.length result :: log) ≤ maxPollItemRetries := by
  show readsAt place log + (if rest.length = place then 1 else 0) ≤ maxPollItemRetries
  split
  · rename_i hplace
    rw [← hplace, h.2.1]
    exact h.1
  · exact hreads place

theorem polling_step {d : PollMachine κ} (h : Polling d) (e : PollEvent κ) :
    Polling (d.step e) := by
  have houtcome := step_outcome d e
  generalize d.step e = d' at houtcome
  cases houtcome with
  | stays hstate hitems hresult hlog =>
    refine ⟨?_, ?_, ?_, ?_⟩
    · exact fun place => (hlog.reads place).symm ▸ h.reads place
    · intro hidle
      rw [hlog.done, hlog.built, hitems]
      exact h.idle (hstate ▸ hidle)
    · intro hbusy
      rw [hstate] at hbusy ⊢
      rw [hitems]
      exact counted_congr hlog (h.counted hbusy)
    · intro hbusy
      rw [hitems, hlog.read, hresult]
      exact h.waiting (hstate ▸ hbusy)
  | builds hidle hsome hstate hitems hlog =>
    refine polling_next hstate ?_ ?_
    · rw [hlog]
      exact fun _ => Nat.zero_le _
    · rw [hlog, hitems]
      exact Counted.built _ _ _
  | @buildsNone _ _ awake hidle hstate hitems hlog =>
    refine polling_idle hstate ?_ ?_ hitems
    · rw [hlog]
      cases awake with
      | true | false => exact fun _ => Nat.zero_le _
    · rw [hlog]
      cases awake with
      | true | false => rfl
  | ends hnext hstate hitems hlog =>
    refine polling_idle hstate ?_ ?_ hitems
    · rw [hlog]
      exact h.reads
    · rw [hlog]
      rfl
  | skips hnext hstate hitems hlog =>
    have hcounted := h.counted (by rw [hnext]; decide)
    refine polling_next hstate ?_ ?_
    · rw [hlog]
      exact h.reads
    · rw [hlog]
      rw [hitems] at hcounted
      exact hcounted.tail
  | sends hnext hstate hsame hitems hlog =>
    have hcounted := h.counted (by rw [hnext]; decide)
    rw [hnext, hitems] at hcounted
    refine ⟨?_, ?_, ?_, ?_⟩
    · rw [hlog]
      exact reads_le h.reads hcounted _
    · exact fun hidle => absurd (hstate.symm.trans hidle) (by decide)
    · intro _
      rw [hstate, hlog, hsame, hitems]
      exact hcounted.read _
    · intro _
      exact ⟨_, _, hsame.trans hitems, by rw [hlog]; rfl⟩
  | fails hnext hstate hitems hretry hlog =>
    have hcounted := h.counted (by rw [hnext]; decide)
    rw [hnext, hitems] at hcounted
    refine polling_next hstate ?_ ?_
    · rw [hlog]
      exact reads_le h.reads hcounted _
    · rw [hlog, hretry]
      exact (hcounted.read _).check
  | retries hbusy hstate hitems hlog he =>
    have hcounted := h.counted (by rw [hbusy]; decide)
    rw [hbusy] at hcounted
    refine polling_next hstate ?_ ?_
    · rw [hlog]
      exact h.reads
    · rw [hlog, hitems]
      exact hcounted.check
  | responds hbusy hstate hitems hanswers hlog =>
    have hcounted := h.counted (by rw [hbusy]; decide)
    refine polling_next hstate ?_ ?_
    · exact fun place => (hlog.reads place).symm ▸ h.reads place
    · rw [hitems]
      exact counted_congr hlog hcounted.tail

theorem polling_run (events : List (PollEvent κ)) : Polling (run step d.entered events) :=
  run_invariant (P := Polling) (fun _ e h => polling_step h e) (polling_entered d) events

def queued (d : PollMachine κ) : List κ := d.pollItems.map PollItem.item

theorem step_queued (e : PollEvent κ) :
    (queues (d.step e).log ≠ queues d.log ∧ d.state = .idle ∧ lastBuilt (d.step e).log =
        some (d.step e).queued) ∨
      (queues (d.step e).log = queues d.log ∧ (d.step e).queued <:+ d.queued) := by
  have houtcome := step_outcome d e
  generalize d.step e = d' at houtcome
  unfold queued
  cases houtcome with
  | stays hstate hitems hresult hlog =>
    rw [hitems]
    exact .inr ⟨hlog.queues, suffix_rfl⟩
  | builds hidle hsome hstate hitems hlog =>
    refine .inl ⟨?_, hidle, ?_⟩
    · rw [hlog, queues_built]
      exact Nat.succ_ne_self _
    · rw [hlog, hitems, map_map]
      exact congrArg some (map_id _).symm
  | @buildsNone _ _ awake hidle hstate hitems hlog =>
    refine .inl ⟨?_, hidle, ?_⟩
    · rw [hlog]
      cases awake with
      | true =>
        rw [if_pos rfl, queues_built]
        exact Nat.succ_ne_self _
      | false =>
        show queues (.built false [] :: d.log) ≠ queues d.log
        rw [queues_built]
        exact Nat.succ_ne_self _
    · rw [hlog, hitems]
      cases awake with
      | true | false => rfl
  | ends hnext hstate hitems hlog =>
    rw [hlog, hitems]
    exact .inr ⟨rfl, nil_suffix⟩
  | skips hnext hstate hitems hlog =>
    rw [hlog, hitems]
    exact .inr ⟨rfl, suffix_cons _ _⟩
  | sends hnext hstate hsame hitems hlog =>
    rw [hlog, hsame]
    exact .inr ⟨rfl, suffix_rfl⟩
  | fails hnext hstate hitems hretry hlog =>
    rw [hlog, hretry, hitems]
    exact .inr ⟨rfl, check_suffix _⟩
  | retries hbusy hstate hitems hlog he =>
    rw [hlog, hitems]
    exact .inr ⟨rfl, check_suffix _⟩
  | responds hbusy hstate hitems hanswers hlog =>
    rw [hitems]
    exact .inr ⟨hlog.queues, tail_suffix _⟩

theorem response_step (clusterId : UInt16) (sequenceNumber status : UInt8) :
    d.step (.zclResponse clusterId sequenceNumber status) = d ∨
      (d.state = .busy ∧ answers d.readResult clusterId sequenceNumber = true ∧
        (d.step (.zclResponse clusterId sequenceNumber status)).pollItems = d.pollItems.tail) := by
  unfold step handle
  simp only
  split
  · exact .inl rfl
  · cases hstate : d.state with
    | idle | next => exact .inl rfl
    | busy =>
      simp only [pollBusy]
      split
      · rename_i hanswers
        refine .inr ⟨trivial, hanswers, ?_⟩
        rw [setState_pollItems]
        exact (finish_keeps d status).1
      · exact .inl rfl

theorem response_removes {d : PollMachine κ} (h : Polling d) {clusterId : UInt16}
    {sequenceNumber status : UInt8}
    (hchange : (d.step (.zclResponse clusterId sequenceNumber status)).pollItems ≠ d.pollItems) :
    ∃ poll rest result, d.pollItems = poll :: rest ∧
      (d.step (.zclResponse clusterId sequenceNumber status)).pollItems = rest ∧
      lastRead d.log = some (poll.item, rest.length, result) ∧ result.clusterId = clusterId ∧
      (result.sequenceNumber = sequenceNumber ∨ result.ignoreResponseSequenceNumber = true) := by
  rcases response_step d clusterId sequenceNumber status with hsame | ⟨hbusy, hanswers, hitems⟩
  · exact absurd (congrArg pollItems hsame) hchange
  · obtain ⟨poll, rest, hqueue, hread⟩ := h.waiting hbusy
    simp only [answers, Bool.and_eq_true, Bool.or_eq_true, beq_iff_eq] at hanswers
    rw [hqueue] at hitems
    exact ⟨poll, rest, d.readResult, hqueue, hitems, hread, hanswers.1, hanswers.2⟩

/-- **The bound of the poll queue** in a run: the calls of the read functions, the order of the
items, the pairing of requests and responses, and when the queue is rebuilt. -/
structure PollBounded (awakeEmpty : Bool) (d : PollMachine κ) (events : List (PollEvent κ)) :
    Prop where
  /-- For each place of a queue its read function is called at most `MaxPollItemRetries` times. -/
  reads : ∀ k ≤ events.length, ∀ place, readsAt place (stateAt step d events k).log ≤
    maxPollItemRetries
  /-- What `DEV_GetPollItems` returns becomes the queue. -/
  builds : ∀ k < events.length, let before := stateAt step d events k
    let after := stateAt step d events (k + 1)
    queues after.log ≠ queues before.log → lastBuilt after.log = some after.queued
  /-- Otherwise items only leave the queue in front. -/
  order : ∀ k < events.length, let before := stateAt step d events k
    let after := stateAt step d events (k + 1)
    queues after.log = queues before.log → after.queued <:+ before.queued
  /-- A response removes the item in front, as the answer to the request sent for it. -/
  responses : ∀ k (hk : k < events.length), let before := stateAt step d events k
    let after := stateAt step d events (k + 1)
    ∀ clusterId sequenceNumber status, events[k] = .zclResponse clusterId sequenceNumber status →
      after.pollItems ≠ before.pollItems → ∃ poll rest result, before.pollItems = poll :: rest ∧
        after.pollItems = rest ∧ lastRead before.log = some (poll.item, rest.length, result) ∧
          result.clusterId = clusterId ∧
          (result.sequenceNumber = sequenceNumber ∨ result.ignoreResponseSequenceNumber = true)
  /-- A queue is rebuilt when it is empty and `REventPollDone` was enqueued for it. -/
  rebuilt : ∀ k < events.length, let before := stateAt step d events k
    let after := stateAt step d events (k + 1)
    queues after.log ≠ queues before.log → lastBuilt before.log ≠ none → before.pollItems = [] ∧
      doneSince awakeEmpty before.log = true

/-- **Every run of the poll states is bounded**; a queue that is built empty on `REventAwake` is
the one for which no `REventPollDone` is enqueued. -/
theorem run_bounded (d : PollMachine κ) (events : List (PollEvent κ)) :
    PollBounded true d.entered events := by
  have hinv : ∀ k, Polling (stateAt step d.entered events k) :=
    fun k => polling_run d (events.take k)
  refine ⟨fun k _ => (hinv k).reads, ?_, ?_, ?_, ?_⟩
  · intro k hk before after hbuilt
    rcases step_queued before events[k] with ⟨-, -, hlast⟩ | ⟨hsame, -⟩
    · rwa [← stateAt_succ step _ _ hk] at hlast
    · rw [← stateAt_succ step _ _ hk] at hsame
      exact absurd hsame hbuilt
  · intro k hk before after hbuilt
    rcases step_queued before events[k] with ⟨hdiff, -, -⟩ | ⟨-, hsuffix⟩
    · rw [← stateAt_succ step _ _ hk] at hdiff
      exact absurd hbuilt hdiff
    · rwa [← stateAt_succ step _ _ hk] at hsuffix
  · intro k hk before after clusterId sequenceNumber status he hchange
    have hafter : after = before.step events[k] := stateAt_succ step _ _ hk
    rw [hafter, he] at hchange ⊢
    exact response_removes (hinv k) hchange
  · intro k hk before after hbuilt hearlier
    rcases step_queued before events[k] with ⟨-, hidle, -⟩ | ⟨hsame, -⟩
    · have hempty := (hinv k).idle hidle
      exact ⟨hempty.2 hearlier, hempty.1⟩
    · rw [← stateAt_succ step _ _ hk] at hsame
      exact absurd hsame hbuilt

/-- The device awakes with nothing to poll and is then asked to poll. -/
theorem awakeEmpty_not_bounded :
    ¬ PollBounded false (entered (κ := Nat) { deviceKey := 1 })
      [.stateEnter {}, .awake {}, .poll {}] := by
  intro h
  have hdone := (h.rebuilt 2 (by decide) (by decide) (by decide)).2
  exact absurd hdone (by decide)

end PollMachine
end DeconzRest

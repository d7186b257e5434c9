import DeconzRest.Event.Emitter
import DeconzRest.Resource.Item
import Mathlib.Algebra.Ring.Int.Defs
import Mathlib.Logic.Function.Basic

/-!
# The alarm system

A model of `AlarmSystem` and `AlarmSystemPrivate`: the resource items, the
state machine that is driven by events, and the requests that set its target
arm mode.  Functions have the names of the source; a member function that
changes the object returns the changed `AlarmSystem`.

* An alarm system always has the items its constructor adds, so `items` is a
  function from `AlarmItem` and no look-up of an own item can fail.
* The state function pointer `curState` is the enumeration `AlarmState`.
* `emit eventNotify(..)` is connected to the event queue; the events emitted so
  far, oldest first, are the field `emitted`.
* `deCONZ::steadyTimeRef()` is the argument `now`, in milliseconds.
* The copy of `config/*` and `attr/*` items that `didSetValue` writes to the
  database is left out: no function here reads it back.
-/

namespace DeconzRest

open QString

def rAlarmSystems : String := "/alarmsystems"
def rConfigArmMode : String := "config/armmode"
def rStateArmState : String := "state/armstate"
def rStateSecondsRemaining : String := "state/seconds_remaining"
def rEventDeviceAlarm : String := "event/devicealarm"
def rEventTimerFired : String := "event/timerfired"

/-- `IAS_ACE_PANEL_STATUS_*`. -/
inductive PanelStatus where
  | disarmed | armedStay | armedNight | armedAway | exitDelay | entryDelay
  | notReadyToArm | inAlarm | armingStay | armingNight | armingAway
deriving DecidableEq, Repr

namespace PanelStatus

/-- All panel states, in the order of `IAS_PanelStates`. -/
def all : List PanelStatus :=
  [.disarmed, .armedStay, .armedNight, .armedAway, .exitDelay, .entryDelay, .notReadyToArm,
    .inAlarm, .armingStay, .armingNight, .armingAway]

def code : PanelStatus → Int
  | .disarmed => 0
  | .armedStay => 1
  | .armedNight => 2
  | .armedAway => 3
  | .exitDelay => 4
  | .entryDelay => 5
  | .notReadyToArm => 6
  | .inAlarm => 7
  | .armingStay => 8
  | .armingNight => 9
  | .armingAway => 10

theorem code_injective : Function.Injective code := by
  intro a b h
  cases a <;> cases b <;> first | rfl | exact absurd h (by decide)

/-- `IAS_PanelStates` -/
def name : PanelStatus → String
  | .disarmed => "disarmed"
  | .armedStay => "armed_stay"
  | .armedNight => "armed_night"
  | .armedAway => "armed_away"
  | .exitDelay => "exit_delay"
  | .entryDelay => "entry_delay"
  | .notReadyToArm => "not_ready"
  | .inAlarm => "in_alarm"
  | .armingStay => "arming_stay"
  | .armingNight => "arming_night"
  | .armingAway => "arming_away"

end PanelStatus

/-- `AS_ArmMode`; `AS_ArmModeMax` is the absence of a mode. -/
inductive ArmMode where
  | disarmed | armedStay | armedNight | armedAway
deriving DecidableEq, Repr

namespace ArmMode

def all : List ArmMode := [.disarmed, .armedStay, .armedNight, .armedAway]

def toNat : ArmMode → Nat
  | .disarmed => 0
  | .armedStay => 1
  | .armedNight => 2
  | .armedAway => 3

/-- The mode with a given value; nothing from `AS_ArmModeMax` on. -/
def ofNat? (n : Nat) : Option ArmMode := all[n]?

/-- `AS_ArmModeToString` -/
def toString : ArmMode → QString
  | .disarmed => ofLatin1 "disarmed"
  | .armedStay => ofLatin1 "armed_stay"
  | .armedNight => ofLatin1 "armed_night"
  | .armedAway => ofLatin1 "armed_away"

/-- `AS_ArmModeFromString`; `none` is `AS_ArmModeMax`. -/
def fromString (armMode : QString) : Option ArmMode :=
  all.find? fun m => decide (m.toString = armMode)

@[simp] theorem ofNat?_toNat (m : ArmMode) : ofNat? m.toNat = some m := by
  cases m <;> rfl

@[simp] theorem fromString_toString (m : ArmMode) : fromString m.toString = some m := by
  cases m <;> decide

@[simp] theorem trimmed_toString (m : ArmMode) : trimmed m.toString = m.toString := by
  cases m <;> decide

end ArmMode

/-- The items that the constructor of `AlarmSystem` adds. -/
inductive AlarmItem where
  | alarmSystemId | armState | configured | armMode | attrId | attrName | secondsRemaining
  | disarmedEntryDelay | disarmedExitDelay
  | armedStayEntryDelay | armedStayExitDelay | armedStayTriggerDuration
  | armedNightEntryDelay | armedNightExitDelay | armedNightTriggerDuration
  | armedAwayEntryDelay | armedAwayExitDelay | armedAwayTriggerDuration
deriving DecidableEq, Repr

namespace AlarmItem

def all : List AlarmItem :=
  [.alarmSystemId, .armState, .configured, .armMode, .attrId, .attrName, .secondsRemaining,
    .disarmedEntryDelay, .disarmedExitDelay,
    .armedStayEntryDelay, .armedStayExitDelay, .armedStayTriggerDuration,
    .armedNightEntryDelay, .armedNightExitDelay, .armedNightTriggerDuration,
    .armedAwayEntryDelay, .armedAwayExitDelay, .armedAwayTriggerDuration]

def descriptor : AlarmItem → ResourceItemDescriptor
  | .alarmSystemId => ⟨.uint8, "config/alarmsystemid", 0, 0⟩
  | .armState => ⟨.uint32, rStateArmState, 0, 0⟩
  | .configured => ⟨.bool, "config/configured", 0, 0⟩
  | .armMode => ⟨.string, rConfigArmMode, 0, 0⟩
  | .attrId => ⟨.string, "attr/id", 0, 0⟩
  | .attrName => ⟨.string, "attr/name", 0, 0⟩
  | .secondsRemaining => ⟨.uint32, rStateSecondsRemaining, 0, 0⟩
  | .disarmedEntryDelay => ⟨.uint8, "config/disarmed_entry_delay", 0, 255⟩
  | .disarmedExitDelay => ⟨.uint8, "config/disarmed_exit_delay", 0, 255⟩
  | .armedStayEntryDelay => ⟨.uint8, "config/armed_stay_entry_delay", 0, 255⟩
  | .armedStayExitDelay => ⟨.uint8, "config/armed_stay_exit_delay", 0, 255⟩
  | .armedStayTriggerDuration => ⟨.uint8, "config/armed_stay_trigger_duration", 0, 255⟩
  | .armedNightEntryDelay => ⟨.uint8, "config/armed_night_entry_delay", 0, 255⟩
  | .armedNightExitDelay => ⟨.uint8, "config/armed_night_exit_delay", 0, 255⟩
  | .armedNightTriggerDuration => ⟨.uint8, "config/armed_night_trigger_duration", 0, 255⟩
  | .armedAwayEntryDelay => ⟨.uint8, "config/armed_away_entry_delay", 0, 255⟩
  | .armedAwayExitDelay => ⟨.uint8, "config/armed_away_exit_delay", 0, 255⟩
  | .armedAwayTriggerDuration => ⟨.uint8, "config/armed_away_trigger_duration", 0, 255⟩

def suffix (i : AlarmItem) : String := i.descriptor.suffix

/-- `Resource::item(suffix)`: the item with that suffix, if there is one. -/
def ofSuffix? (s : String) : Option AlarmItem :=
  all.find? fun i => decide (i.suffix = s)

def isDelay : AlarmItem → Bool
  | .disarmedEntryDelay | .disarmedExitDelay
  | .armedStayEntryDelay | .armedStayExitDelay | .armedStayTriggerDuration
  | .armedNightEntryDelay | .armedNightExitDelay | .armedNightTriggerDuration
  | .armedAwayEntryDelay | .armedAwayExitDelay | .armedAwayTriggerDuration => true
  | _ => false

end AlarmItem

/-- The state functions `AlarmSystemPrivate::state..`. -/
inductive AlarmState where
  | disarmed | armed | exitDelay | entryDelay | inAlarm | arming
deriving DecidableEq, Repr

/-- `AlarmSystemPrivate`: the state machine's own variables.  The parameters of
the target state are copied from the items when a target state is loaded. -/
structure AlarmSystemPrivate where
  targetState : ArmMode := .disarmed
  exitDelay : Int := 0
  entryDelay : Int := 0
  triggerDuration : Int := 0
  armMask : Nat := 0
  timerActive : Bool := false
  tState : Int := 0
  curState : AlarmState := .disarmed
deriving DecidableEq, Repr

/-- `AlarmSystem`: the private part, the resource items, and what was emitted. -/
structure AlarmSystem extends AlarmSystemPrivate where
  items : AlarmItem → ResourceItem
  emitted : List Event := []

namespace AlarmSystem

/-- `targetArmMask`: the device event mask of each target state. -/
def targetArmMask : ArmMode → Nat
  | .disarmed => 0
  | .armedStay => 0x0200
  | .armedNight => 0x0400
  | .armedAway => 0x0100

/-- `item(suffix)->toNumber()` -/
def number (as : AlarmSystem) (i : AlarmItem) : Int := (as.items i).num

/-- `item(suffix)->toString()` of a string item. -/
def text (as : AlarmSystem) (i : AlarmItem) : QString := (as.items i).str

/-- `AlarmSystem::id`, an unsigned 32-bit number. -/
def id (as : AlarmSystem) : Int := as.number .alarmSystemId % 2 ^ 32

def idString (as : AlarmSystem) : QString := as.text .attrId

def setItem (as : AlarmSystem) (i : AlarmItem) (it : ResourceItem) : AlarmSystem :=
  { as with items := Function.update as.items i it }

/-- `emit eventNotify(Event(prefix(), suffix, idString(), item))` -/
def emitItem (as : AlarmSystem) (i : AlarmItem) : AlarmSystem :=
  { as with
      emitted := as.emitted ++
        [{ resource := rAlarmSystems
           what := i.suffix
           id := as.idString
           num := (as.items i).num
           numPrevious := (as.items i).numPrev }] }

/-- The panel status for a state and a target state, as the chain of `if`s in
`updateArmStateAndPanelStatus` picks it. -/
def panelStatus : AlarmState → ArmMode → Option PanelStatus
  | .disarmed, _ => some .disarmed
  | .armed, .armedAway => some .armedAway
  | .armed, .armedStay => some .armedStay
  | .armed, .armedNight => some .armedNight
  | .arming, .armedAway => some .armingAway
  | .arming, .armedStay => some .armingStay
  | .arming, .armedNight => some .armingNight
  | .inAlarm, _ => some .inAlarm
  | .entryDelay, _ => some .entryDelay
  | .exitDelay, _ => some .exitDelay
  | .armed, .disarmed | .arming, .disarmed => none

/-- The value that `updateArmStateAndPanelStatus` computes: where no branch
assigns a status, the low octet of the present one stays. -/
def armStateStatus (state : AlarmState) (target : ArmMode) (present : Int) : Int :=
  match panelStatus state target with
  | some status => status.code
  | none => present % 256

/-- `AlarmSystemPrivate::updateArmStateAndPanelStatus` -/
def updateArmStateAndPanelStatus (as : AlarmSystem) : AlarmSystem :=
  let status := armStateStatus as.curState as.targetState (as.number .armState)
  if status ≠ as.number .armState then
    (as.setItem .armState
      (ResourceItem.setNumber AlarmItem.armState.descriptor (as.items .armState) status).1).emitItem
        .armState
  else
    as

/-- `AlarmSystemPrivate::setState` -/
def setState (as : AlarmSystem) (state : AlarmState) : AlarmSystem :=
  updateArmStateAndPanelStatus { as with curState := state }

/-- `AlarmSystemPrivate::startStateTimer` -/
def startStateTimer (now : Int) (as : AlarmSystem) : AlarmSystem :=
  { as with tState := now, timerActive := true }

/-- `AlarmSystemPrivate::stopTimer` -/
def stopTimer (as : AlarmSystem) : AlarmSystem := { as with timerActive := false }

/-- `AlarmSystemPrivate::setSecondsRemaining`; `secs` arrives as an unsigned
32-bit number and is dropped when it does not fit an octet. -/
def setSecondsRemaining (as : AlarmSystem) (secs : Int) : AlarmSystem :=
  let secs := secs % 2 ^ 32
  if as.number .secondsRemaining ≠ secs ∧ secs ≤ 255 then
    (as.setItem .secondsRemaining
      (ResourceItem.setNumber AlarmItem.secondsRemaining.descriptor
        (as.items .secondsRemaining) secs).1).emitItem .secondsRemaining
  else
    as

def exitSuffix : ArmMode → AlarmItem
  | .disarmed => .disarmedExitDelay
  | .armedStay => .armedStayExitDelay
  | .armedNight => .armedNightExitDelay
  | .armedAway => .armedAwayExitDelay

def entrySuffix : ArmMode → AlarmItem
  | .disarmed => .disarmedEntryDelay
  | .armedStay => .armedStayEntryDelay
  | .armedNight => .armedNightEntryDelay
  | .armedAway => .armedAwayEntryDelay

/-- The item that the trigger duration of each target state is read from: for
stay and night the source's table names the exit delay. -/
def triggerSuffix : ArmMode → Option AlarmItem
  | .disarmed => none
  | .armedStay => some .armedStayExitDelay
  | .armedNight => some .armedNightExitDelay
  | .armedAway => some .armedAwayTriggerDuration

/-- `AlarmSystemPrivate::updateTargetStateValues` -/
def updateTargetStateValues (as : AlarmSystem) : AlarmSystem :=
  { as with
      exitDelay := as.number (exitSuffix as.targetState)
      entryDelay := as.number (entrySuffix as.targetState)
      triggerDuration :=
        match triggerSuffix as.targetState with
        | some i => as.number i
        | none => 0
      armMask := targetArmMask as.targetState }

theorem updateTargetStateValues_triggerDuration (as : AlarmSystem) :
    as.updateTargetStateValues.triggerDuration =
      match triggerSuffix as.targetState with
      | some i => as.number i
      | none => 0 :=
  rfl

/-- `AlarmSystemPrivate::stateExitDelay` -/
def stateExitDelay (now : Int) (event : Event) (as : AlarmSystem) : AlarmSystem :=
  if event.what = rEventTimerFired then
    let dt := now - as.tState
    if as.exitDelay * 1000 < dt then
      let as := (as.setSecondsRemaining 0).stopTimer
      if as.targetState = .disarmed then
        as.setState .disarmed
      else
        (as.startStateTimer now).setState .arming
    else
      as.setSecondsRemaining ((as.exitDelay * 1000 - dt) / 1000)
  else
    as

/-- `AlarmSystemPrivate::stateEntryDelay` -/
def stateEntryDelay (now : Int) (event : Event) (as : AlarmSystem) : AlarmSystem :=
  if event.what = rEventTimerFired then
    let dt := now - as.tState
    if as.entryDelay * 1000 < dt then
      ((as.setSecondsRemaining 0).startStateTimer now).setState .inAlarm
    else
      as.setSecondsRemaining ((as.entryDelay * 1000 - dt) / 1000)
  else
    as

/-- Bitwise and of a signed 32-bit number with a mask of low bits. -/
def bitAnd (num : Int) (mask : Nat) : Nat := (num % 2 ^ 32).toNat &&& mask

/-- `AlarmSystemPrivate::stateArmed` -/
def stateArmed (now : Int) (event : Event) (as : AlarmSystem) : AlarmSystem :=
  if event.what = rEventDeviceAlarm then
    if bitAnd event.num as.armMask = 0 then
      as
    else if (bitAnd event.num 0xFF : Int) = as.id then
      ((as.setSecondsRemaining as.entryDelay).setState .entryDelay).startStateTimer now
    else
      as
  else
    as

/-- `AlarmSystemPrivate::stateInAlarm` -/
def stateInAlarm (now : Int) (event : Event) (as : AlarmSystem) : AlarmSystem :=
  if event.what = rEventTimerFired ∧ as.triggerDuration * 1000 < now - as.tState then
    as.stopTimer.setState .armed
  else
    as

/-- `AlarmSystemPrivate::stateArming` -/
def stateArming (event : Event) (as : AlarmSystem) : AlarmSystem :=
  if event.what = rEventTimerFired then
    as.stopTimer.setState .armed
  else
    as

/-- The state function that `curState` points to, applied to the event. -/
def curStateFunction (now : Int) (event : Event) (as : AlarmSystem) : AlarmSystem :=
  match as.curState with
  | .disarmed => as
  | .armed => as.stateArmed now event
  | .exitDelay => as.stateExitDelay now event
  | .entryDelay => as.stateEntryDelay now event
  | .inAlarm => as.stateInAlarm now event
  | .arming => as.stateArming event

/-- `AlarmSystem::handleEvent` -/
def handleEvent (now : Int) (event : Event) (as : AlarmSystem) : AlarmSystem :=
  if event.resource = rAlarmSystems ∧ event.what = rConfigArmMode then
    match ArmMode.fromString (as.text .armMode) with
    | some mode =>
      let oldTargetState := as.targetState
      let as := { as with targetState := mode }.updateTargetStateValues
      if oldTargetState = mode then
        as
      else
        ((as.setSecondsRemaining as.exitDelay).setState .exitDelay).startStateTimer now
    | none => as
  else
    as.curStateFunction now event

/-- `AlarmSystem::timerFired` -/
def timerFired (now : Int) (as : AlarmSystem) : AlarmSystem :=
  as.handleEvent now { resource := rAlarmSystems, what := rEventTimerFired }

/-- `Resource::setValue(suffix, QString)` of a string item, with
`AlarmSystem::didSetValue`. -/
def setText (as : AlarmSystem) (i : AlarmItem) (val : QString) : AlarmSystem × Bool :=
  if as.text i ≠ val then
    ((as.setItem i (ResourceItem.setString (as.items i) val)).emitItem i, true)
  else
    (as, false)

variable {D : Type}

/-- `Resource::setValue(suffix, QVariant)`, with `AlarmSystem::didSetValue`. -/
def setVariant (qt : Qt D) (as : AlarmSystem) (i : AlarmItem) (val : QVariant D) :
    AlarmSystem × Bool :=
  if qt.eqv (ResourceItem.toVariant qt i.descriptor (as.items i)) val then
    (as, false)
  else
    let r := ResourceItem.setVariant qt i.descriptor (as.items i) val
    if r.2 then
      ((as.setItem i r.1).emitItem i, true)
    else
      (as, false)

/-- `AlarmSystem::setTargetArmMode` -/
def setTargetArmMode (as : AlarmSystem) (targetArmMode : Nat) : AlarmSystem × Bool :=
  match ArmMode.ofNat? targetArmMode with
  | none => (as, false)
  | some mode =>
    if mode = as.targetState then
      (as, true)
    else
      ((as.setText .armMode mode.toString).1, true)

/-- `AlarmSystem::secondsRemaining`, an unsigned 32-bit number: zero outside the
delay states. -/
def getSecondsRemaining (as : AlarmSystem) : Int :=
  if as.curState = .entryDelay ∨ as.curState = .exitDelay then
    as.number .secondsRemaining % 2 ^ 32
  else
    0

/-- `IAS_PanelStatusToString` -/
def panelStatusToString (panelStatus : Int) : QString :=
  match PanelStatus.all.find? fun s => decide (s.code = panelStatus) with
  | some s => ofLatin1 s.name
  | none => []

/-- `AlarmSystem::armStateString` -/
def armStateString (as : AlarmSystem) : QString :=
  panelStatusToString (as.number .armState % 256)

def numberItem (i : AlarmItem) (n : Int) : ResourceItem :=
  (ResourceItem.setNumber i.descriptor {} n).1

/-- Decimal digits, `QString::number`. -/
def decimal (n : Nat) : QString := (Nat.toDigits 10 n).map unit

def initialItems (id : Nat) : AlarmItem → ResourceItem
  | .alarmSystemId => numberItem .alarmSystemId id
  | .armState => numberItem .armState PanelStatus.notReadyToArm.code
  | .configured => numberItem .configured 0
  | .armMode => ResourceItem.setString {} ArmMode.disarmed.toString
  | .attrId => ResourceItem.setString {} (decimal id)
  | .attrName => {}
  | .secondsRemaining => numberItem .secondsRemaining 0
  | .disarmedEntryDelay => numberItem .disarmedEntryDelay 0
  | .disarmedExitDelay => numberItem .disarmedExitDelay 0
  | .armedStayEntryDelay => numberItem .armedStayEntryDelay 120
  | .armedStayExitDelay => numberItem .armedStayExitDelay 120
  | .armedStayTriggerDuration => numberItem .armedStayTriggerDuration 120
  | .armedNightEntryDelay => numberItem .armedNightEntryDelay 120
  | .armedNightExitDelay => numberItem .armedNightExitDelay 120
  | .armedNightTriggerDuration => numberItem .armedNightTriggerDuration 120
  | .armedAwayEntryDelay => numberItem .armedAwayEntryDelay 120
  | .armedAwayExitDelay => numberItem .armedAwayExitDelay 120
  | .armedAwayTriggerDuration => numberItem .armedAwayTriggerDuration 120

/-- The constructor `AlarmSystem::AlarmSystem`. -/
def new (id : Nat) : AlarmSystem :=
  updateTargetStateValues { items := initialItems id }

/-- A row of the database: the item, its text, and the number `strtol` reads in
the text. -/
structure DbItem where
  item : AlarmItem
  text : QString
  num : Int
deriving DecidableEq, Repr

/-- One turn of the loop of `DB_LoadAlarmSystems`: only string items and 8-bit
numbers are loaded, and nothing from an empty text. -/
def loadItem (as : AlarmSystem) (dbItem : DbItem) : AlarmSystem :=
  if dbItem.text = [] then
    as
  else
    match dbItem.item.descriptor.type with
    | .string => as.setItem dbItem.item (ResourceItem.setString (as.items dbItem.item) dbItem.text)
    | .uint8 =>
      as.setItem dbItem.item
        (ResourceItem.setNumber dbItem.item.descriptor (as.items dbItem.item) dbItem.num).1
    | _ => as

/-- `AlarmSystem::start`; `configured` is the result of `DB_LoadSecret`. -/
def start (configured : Bool) (as : AlarmSystem) : AlarmSystem :=
  let as :=
    match ArmMode.fromString (as.text .armMode) with
    | some .disarmed => { as with targetState := .disarmed }.setState .disarmed
    | some mode => { as with targetState := mode }.setState .armed
    | none => as
  let as := as.updateArmStateAndPanelStatus.updateTargetStateValues
  as.setItem .configured
    (ResourceItem.setNumber AlarmItem.configured.descriptor (as.items .configured)
      (if configured then 1 else 0)).1

/-- An alarm system made by `DB_LoadAlarmSystems`: constructed, loaded from
the rows of the database, and started. -/
def started (id : Nat) (rows : List DbItem) (configured : Bool) : AlarmSystem :=
  start configured (rows.foldl loadItem (new id))

end AlarmSystem

end DeconzRest

import DeconzRest.Alarm.System
import DeconzRest.Lib.Transition

/-!
# The alarm system event handler and the keypads

Every event of an alarm system goes to all alarm systems, one after the other.
When it is about the arm state or the remaining seconds, each of them writes its
own arm state to the keypads of the device table (`mirrorKeypadAlarmSystemState`)
and all of them share one device table.  So the keypads end up with what the last
alarm system of the list shows, and `mirrored_iff` says when that is what the
alarm system they are assigned to shows.
-/

namespace DeconzRest

open Option QString

def rSensors : String := "/sensors"
def rStatePanel : String := "state/panel"

/-- `AS_DeviceEntry`; `uniqueId` holds the first `uniqueIdSize` characters. -/
structure DeviceEntry where
  uniqueId : List UInt8
  extAddress : Nat
  flags : Nat
  alarmSystemId : Nat
deriving DecidableEq, Repr

namespace DeviceEntry

/-- `isValid(entry)` -/
def isValid (entry : DeviceEntry) : Bool :=
  entry.uniqueId.head?.any (· ≠ 0) && decide (0 < entry.alarmSystemId) &&
    decide (entry.extAddress ≠ 0)

/-- `entry.flags & AS_ENTRY_FLAG_IAS_ACE` -/
def isKeypad (entry : DeviceEntry) : Bool := decide (entry.flags &&& 0x00000008 ≠ 0)

/-- `QLatin1String(entry.uniqueId, entry.uniqueIdSize)` -/
def key (entry : DeviceEntry) : QString := entry.uniqueId.map UInt8.toUInt16

end DeviceEntry

structure Sensor where
  id : QString
  uniqueId : QString
  deleted : Bool := false
  extAddress : Nat := 0
  panel : Option ResourceItem := none
  secondsRemaining : Option ResourceItem := none
deriving DecidableEq, Repr

namespace Sensor

def secondsRemainingDescriptor : ResourceItemDescriptor := ⟨.uint32, rStateSecondsRemaining, 0, 0⟩

/-- `getSensorNodeForId` -/
def forId (sensors : List Sensor) (id : QString) : Option Nat :=
  sensors.findIdx? fun s => decide (s.deleted = false ∧ s.id = id)

/-- `getSensorNodeForUniqueId` -/
def forUniqueId (sensors : List Sensor) (uniqueId : QString) : Option Nat :=
  if uniqueId = [] then
    none
  else
    sensors.findIdx? fun s => decide (s.deleted = false ∧ s.uniqueId = uniqueId)

/-- `getResource(RSensors, id)`: a short text is an id, a long one a unique id. -/
def getResource (sensors : List Sensor) (id : QString) : Option Nat :=
  if id.length < 26 then forId sensors id else forUniqueId sensors id

/-- The part of `EventEmitter::enqueueEvent` that attaches the device key to an
event of a sensor. -/
def attachDeviceKey (sensors : List Sensor) (e : Event) : Event :=
  if e.deviceKey = 0 ∧ e.resource = rSensors then
    match (forId sensors e.id <|> forUniqueId sensors e.id).bind (sensors[·]?) with
    | some s => if 0 < s.extAddress then { e with deviceKey := s.extAddress } else e
    | none => e
  else
    e

end Sensor

/-- What the handler works on besides the alarm systems: the sensors, the device
table, and the event queue. -/
structure KeypadWorld where
  sensors : List Sensor
  table : List DeviceEntry
  queue : List Event := []
deriving DecidableEq, Repr

structure AlarmMessage (D : Type) where
  id : QString
  group : String
  values : List (String × QVariant D)

namespace KeypadWorld

/-- `eventEmitter->enqueueEvent` -/
def enqueueEvent (w : KeypadWorld) (e : Event) : KeypadWorld :=
  { w with queue := EventEmitter.enqueueEvent w.queue (Sensor.attachDeviceKey w.sensors e) }

/-- The two `setValue` calls on a keypad. -/
def showOn (as : AlarmSystem) (s : Sensor) : Sensor :=
  match s.panel, s.secondsRemaining with
  | some panel, some secondsRemaining =>
    { s with
        secondsRemaining := some (ResourceItem.setNumber Sensor.secondsRemainingDescriptor
          secondsRemaining as.getSecondsRemaining).1
        panel := some (ResourceItem.setString panel as.armStateString) }
  | _, _ => s

def notify (s : Sensor) (w : KeypadWorld) : KeypadWorld :=
  let w :=
    if s.panel.any ResourceItem.needPushChange then
      w.enqueueEvent { resource := rSensors, what := rStatePanel, id := s.id }
    else
      w
  if s.secondsRemaining.any ResourceItem.needPushChange then
    w.enqueueEvent { resource := rSensors, what := rStateSecondsRemaining, id := s.id }
  else
    w

/-- The loop body of `mirrorKeypadAlarmSystemState`. -/
def mirrorEntry (as : AlarmSystem) (w : KeypadWorld) (entry : DeviceEntry) : KeypadWorld :=
  if entry.isValid && entry.isKeypad then
    match Sensor.getResource w.sensors entry.key with
    | some i =>
      match w.sensors[i]? with
      | some s =>
        if s.panel.isSome && s.secondsRemaining.isSome then
          notify (showOn as s) { w with sensors := w.sensors.set i (showOn as s) }
        else
          w
      | none => w
    | none => w
  else
    w

/-- `mirrorKeypadAlarmSystemState` -/
def mirrorKeypadAlarmSystemState (as : AlarmSystem) (w : KeypadWorld) : KeypadWorld :=
  w.table.foldl (mirrorEntry as) w

variable {D : Type}

/-- The items that a message about `what` contains: the public ones of its group. -/
def inGroup (what : String) (i : AlarmItem) : Bool :=
  decide (i.suffix.toList.head? = what.toList.head? ∧ i ≠ .alarmSystemId)

/-- `ResourceItem::clearNeedPush` -/
def clearNeedPush (it : ResourceItem) : ResourceItem :=
  { it with needPushSet := false, needPushChange := false }

/-- `pushEventToWebsocket`: the alarm system with the push flags of the group
cleared, and the message that is broadcast. -/
def pushEventToWebsocket (qt : Qt D) (event : Event) (as : AlarmSystem) :
    AlarmSystem × Option (AlarmMessage D) :=
  let group := event.what.toList.takeWhile (· ≠ '/')
  if ¬ (event.what.toList.head? ∈ [some 's', some 'c', some 'a']) ∨ ¬ '/' ∈ event.what.toList then
    (as, none)
  else
    match AlarmItem.ofSuffix? event.what with
    | none => (as, none)
    | some item =>
      if (as.items item).needPushSet || (as.items item).needPushChange then
        let value : AlarmItem → QVariant D := fun i =>
          if i = .armState then
            .string as.armStateString
          else
            ResourceItem.toVariant qt i.descriptor (as.items i)
        let message : AlarmMessage D :=
          { id := as.idString
            group := String.ofList group
            values := (AlarmItem.all.filter (inGroup event.what)).map fun i =>
              (String.ofList (i.suffix.toList.drop (group.length + 1)), value i) }
        ({ as with
            items := fun i =>
              if inGroup event.what i then clearNeedPush (as.items i) else as.items i },
          some message)
      else
        (as, none)

/-- The loop body of `AS_HandleAlarmSystemEvent`; what the alarm system emits goes
to the queue at once. -/
def handleAlarmSystem (qt : Qt D) (now : Int) (event : Event) (w : KeypadWorld)
    (as : AlarmSystem) : KeypadWorld × AlarmSystem × Option (AlarmMessage D) :=
  let as := as.handleEvent now event
  let w := as.emitted.foldl enqueueEvent w
  let as := { as with emitted := [] }
  let w :=
    if event.what = rStateArmState ∨ event.what = rStateSecondsRemaining then
      mirrorKeypadAlarmSystemState as w
    else
      w
  if event.resource = rAlarmSystems ∧ event.id = as.idString then
    (w, pushEventToWebsocket qt event as)
  else
    (w, as, none)

/-- What `AS_HandleAlarmSystemEvent` leaves behind. -/
structure Handled (D : Type) where
  world : KeypadWorld
  systems : List AlarmSystem
  messages : List (AlarmMessage D)

/-- `AS_HandleAlarmSystemEvent`: the alarm systems in the order of the list. -/
def handleAlarmSystemEvent (qt : Qt D) (now : Int) (event : Event) (w : KeypadWorld) :
    List AlarmSystem → Handled D
  | [] => ⟨w, [], []⟩
  | as :: rest =>
    let first := handleAlarmSystem qt now event w as
    let others := handleAlarmSystemEvent qt now event first.1 rest
    ⟨others.world, first.2.1 :: others.systems, first.2.2.toList ++ others.messages⟩

/-- The panel shows the text, and the remaining seconds are the number. -/
def Shows (text : QString) (seconds : Int) (s : Sensor) : Prop :=
  ∀ panel secondsRemaining, s.panel = some panel → s.secondsRemaining = some secondsRemaining →
    panel.str = text ∧ secondsRemaining.num = seconds

theorem trimmed_panelStatusToString (panelStatus : Int) :
    trimmed (AlarmSystem.panelStatusToString panelStatus) =
      AlarmSystem.panelStatusToString panelStatus := by
  unfold AlarmSystem.panelStatusToString
  cases PanelStatus.all.find? fun s => decide (s.code = panelStatus) with
  | none => rfl
  | some status => cases status <;> decide

theorem showOn_shows (as : AlarmSystem) (s : Sensor) :
    Shows as.armStateString as.getSecondsRemaining (showOn as s) := by
  intro panel secondsRemaining hpanel hseconds
  unfold showOn at hpanel hseconds
  cases hp : s.panel with
  | none =>
    rw [hp] at hpanel
    simp [hp] at hpanel
  | some p =>
    cases hr : s.secondsRemaining with
    | none => simp [hp, hr] at hseconds
    | some r =>
      simp only [hp, hr, some_inj] at hpanel hseconds
      rw [← hpanel, ← hseconds]
      refine ⟨trimmed_panelStatusToString _, ?_⟩
      exact (ResourceItem.setNumber_eq_of_inRange (by rfl) r).2

/-- What the look-ups and the item checks see of a sensor. -/
def shape (s : Sensor) : QString × QString × Bool × Bool × Bool :=
  (s.id, s.uniqueId, s.deleted, s.panel.isSome, s.secondsRemaining.isSome)

@[simp] theorem shape_showOn (as : AlarmSystem) (s : Sensor) : shape (showOn as s) = shape s := by
  unfold showOn
  cases hp : s.panel with
  | none => rfl
  | some p =>
    cases hr : s.secondsRemaining with
    | none => rfl
    | some r => simp [shape, hp, hr]

theorem getResource_congr {sensors sensors' : List Sensor}
    (h : sensors'.map shape = sensors.map shape) (id : QString) :
    Sensor.getResource sensors' id = Sensor.getResource sensors id := by
  have hfind : ∀ p : QString × QString × Bool × Bool × Bool → Bool, sensors'.findIdx? (p ∘ shape) =
      sensors.findIdx? (p ∘ shape) := by
    intro p
    rw [← List.findIdx?_map, ← List.findIdx?_map, h]
  have hid : Sensor.forId sensors' id = Sensor.forId sensors id :=
    hfind fun x => decide (x.2.2.1 = false ∧ x.1 = id)
  have huniqueId : Sensor.forUniqueId sensors' id = Sensor.forUniqueId sensors id := by
    unfold Sensor.forUniqueId
    split
    · rfl
    · exact hfind fun x => decide (x.2.2.1 = false ∧ x.2.1 = id)
  unfold Sensor.getResource
  rw [hid, huniqueId]

theorem map_shape_set {sensors : List Sensor} {i : Nat} {s : Sensor} (hs : sensors[i]? = some s)
    (as : AlarmSystem) : (sensors.set i (showOn as s)).map shape = sensors.map shape := by
  ext1 j
  rw [List.map_set, shape_showOn, List.getElem?_set]
  split
  · rename_i hij
    subst hij
    rw [List.getElem?_map, hs]
    have hi : i < sensors.length := (List.getElem?_eq_some_iff.mp hs).1
    simp [hi]
  · rfl

/-! ## One turn of the mirror loop -/

@[simp] theorem notify_sensors (s : Sensor) (w : KeypadWorld) : (notify s w).sensors = w.sensors := by
  unfold notify
  split <;> split <;> rfl

@[simp] theorem notify_table (s : Sensor) (w : KeypadWorld) : (notify s w).table = w.table := by
  unfold notify
  split <;> split <;> rfl

/-- The loop body leaves all sensors, or writes the keypad of its entry. -/
theorem mirrorEntry_cases (as : AlarmSystem) (w : KeypadWorld) (entry : DeviceEntry) :
    (mirrorEntry as w entry = w ∧
        (entry.isValid = true → entry.isKeypad = true → ∀ i s,
          Sensor.getResource w.sensors entry.key = some i → w.sensors[i]? = some s → s.panel =
            none ∨ s.secondsRemaining = none)) ∨
      ∃ i s, Sensor.getResource w.sensors entry.key = some i ∧ w.sensors[i]? = some s ∧
        (mirrorEntry as w entry).sensors = w.sensors.set i (showOn as s) ∧
        (mirrorEntry as w entry).table = w.table := by
  unfold mirrorEntry
  by_cases hentry : (entry.isValid && entry.isKeypad) = true
  · rw [if_pos hentry]
    cases hi : Sensor.getResource w.sensors entry.key with
    | none => exact .inl ⟨rfl, fun _ _ i s h => by simp at h⟩
    | some i =>
      cases hs : w.sensors[i]? with
      | none =>
        refine .inl ⟨by simp [hs], ?_⟩
        intro _ _ j s hj hsj
        rw [← some.inj hj, hs] at hsj
        simp at hsj
      | some s =>
        by_cases hitems : (s.panel.isSome && s.secondsRemaining.isSome) = true
        · refine .inr ⟨i, s, rfl, hs, ?_, ?_⟩
          · simp [hs, hitems]
          · simp [hs, hitems]
        · refine .inl ⟨by simp [hs, hitems], ?_⟩
          intro _ _ j s' hj hsj
          rw [← some.inj hj, hs, some_inj] at hsj
          rw [← hsj]
          simpa [Decidable.imp_iff_not_or] using hitems
  · rw [if_neg hentry]
    refine .inl ⟨rfl, ?_⟩
    intro hvalid hkeypad
    rw [hvalid, hkeypad] at hentry
    exact absurd rfl hentry

/-- The keypad of the entry shows the text and the number, if there is one. -/
def Displays (text : QString) (seconds : Int) (entry : DeviceEntry) (w : KeypadWorld) : Prop :=
  entry.isValid = true → entry.isKeypad = true → ∀ i s, Sensor.getResource w.sensors entry.key =
    some i → w.sensors[i]? = some s → Shows text seconds s

theorem mirrorEntry_shape (as : AlarmSystem) (w : KeypadWorld) (entry : DeviceEntry) :
    (mirrorEntry as w entry).sensors.map shape = w.sensors.map shape ∧
      (mirrorEntry as w entry).table = w.table := by
  rcases mirrorEntry_cases as w entry with ⟨hsame, -⟩ | ⟨i, s, -, hs, hsensors, htable⟩
  · rw [hsame]
    exact ⟨rfl, rfl⟩
  · rw [hsensors]
    exact ⟨map_shape_set hs as, htable⟩

theorem mirrorEntry_displays (as : AlarmSystem) (w : KeypadWorld) (entry : DeviceEntry) :
    Displays as.armStateString as.getSecondsRemaining entry (mirrorEntry as w entry) := by
  intro hvalid hkeypad i s hi hs
  rw [getResource_congr (mirrorEntry_shape as w entry).1] at hi
  rcases mirrorEntry_cases as w entry with ⟨hsame, hnone⟩ | ⟨j, t, hj, ht, hsensors, -⟩
  · rw [hsame] at hs
    intro panel secondsRemaining hpanel hseconds
    rcases hnone hvalid hkeypad i s hi hs with h | h
    · rw [h] at hpanel
      simp at hpanel
    · rw [h] at hseconds
      simp at hseconds
  · have hij : j = i := some.inj (hj.symm.trans hi)
    subst hij
    have hlt : j < w.sensors.length := (List.getElem?_eq_some_iff.mp ht).1
    rw [hsensors, List.getElem?_set_self hlt, some_inj] at hs
    rw [← hs]
    exact showOn_shows as t

theorem Displays.mirrorEntry {as : AlarmSystem} {w : KeypadWorld} {entry : DeviceEntry}
    (h : Displays as.armStateString as.getSecondsRemaining entry w) (other : DeviceEntry) :
    Displays as.armStateString as.getSecondsRemaining entry (mirrorEntry as w other) := by
  intro hvalid hkeypad i s hi hs
  rw [getResource_congr (mirrorEntry_shape as w other).1] at hi
  rcases mirrorEntry_cases as w other with ⟨hsame, -⟩ | ⟨j, t, -, ht, hsensors, -⟩
  · rw [hsame] at hs
    exact h hvalid hkeypad i s hi hs
  · rw [hsensors, List.getElem?_set] at hs
    by_cases hij : j = i
    · have hlt : j < w.sensors.length := (List.getElem?_eq_some_iff.mp ht).1
      rw [if_pos hij, if_pos hlt, some_inj] at hs
      rw [← hs]
      exact showOn_shows as t
    · rw [if_neg hij] at hs
      exact h hvalid hkeypad i s hi hs

/-- **The mirror loop.**  Afterwards every keypad of the table shows the alarm
system; look-ups and the table are as before. -/
theorem mirrorKeypadAlarmSystemState_spec (as : AlarmSystem) (w : KeypadWorld) :
    (mirrorKeypadAlarmSystemState as w).sensors.map shape = w.sensors.map shape ∧
      (mirrorKeypadAlarmSystemState as w).table = w.table ∧
      ∀ entry ∈ w.table, Displays as.armStateString as.getSecondsRemaining entry
        (mirrorKeypadAlarmSystemState as w) := by
  have hframe : (mirrorKeypadAlarmSystemState as w).sensors.map shape = w.sensors.map shape ∧
      (mirrorKeypadAlarmSystemState as w).table = w.table := by
    refine @Transition.run_invariant _ _ (mirrorEntry as)
      (fun v => v.sensors.map shape = w.sensors.map shape ∧ v.table = w.table)
      ?_ _ ⟨rfl, rfl⟩ w.table
    rintro v entry ⟨hshape, htable⟩
    obtain ⟨hshape', htable'⟩ := mirrorEntry_shape as v entry
    exact ⟨hshape'.trans hshape, htable'.trans htable⟩
  refine ⟨hframe.1, hframe.2, ?_⟩
  exact @Transition.run_establishes _ _ (mirrorEntry as)
    (fun entry v => Displays as.armStateString as.getSecondsRemaining entry v)
    (fun v entry => mirrorEntry_displays as v entry)
    (fun v entry other h => h.mirrorEntry other) w w.table

/-! ## All alarm systems -/

def view (as : AlarmSystem) : Int × QString × Int :=
  (as.id, as.armStateString, as.getSecondsRemaining)

abbrev IsStatusEvent (event : Event) : Prop :=
  event.what = rStateArmState ∨ event.what = rStateSecondsRemaining

theorem handleEvent_of_status {event : Event} (h : IsStatusEvent event) (now : Int)
    (as : AlarmSystem) : as.handleEvent now event = as := by
  have harm : event.what ≠ rConfigArmMode := by
    rcases h with h | h <;> rw [h] <;> decide
  have htimer : event.what ≠ rEventTimerFired := by
    rcases h with h | h <;> rw [h] <;> decide
  have halarm : event.what ≠ rEventDeviceAlarm := by
    rcases h with h | h <;> rw [h] <;> decide
  unfold AlarmSystem.handleEvent AlarmSystem.curStateFunction
  rw [if_neg fun hboth => harm hboth.2]
  cases as.curState with
  | disarmed => rfl
  | armed => simp [AlarmSystem.stateArmed, halarm]
  | exitDelay => simp [AlarmSystem.stateExitDelay, htimer]
  | entryDelay => simp [AlarmSystem.stateEntryDelay, htimer]
  | inAlarm => simp [AlarmSystem.stateInAlarm, htimer]
  | arming => simp [AlarmSystem.stateArming, htimer]

theorem view_pushEventToWebsocket (qt : Qt D) (event : Event) (as : AlarmSystem) :
    view (pushEventToWebsocket qt event as).1 = view as := by
  have hnum : ∀ i, (if inGroup event.what i then clearNeedPush (as.items i) else as.items i).num =
      (as.items i).num := by
    intro i
    split <;> rfl
  unfold pushEventToWebsocket
  simp only
  split
  · rfl
  · split
    · rfl
    · split
      · simp [view, AlarmSystem.id, AlarmSystem.armStateString, AlarmSystem.getSecondsRemaining,
          AlarmSystem.number, hnum]
      · rfl

theorem foldl_enqueueEvent_frame (events : List Event) (w : KeypadWorld) :
    (events.foldl enqueueEvent w).sensors = w.sensors ∧ (events.foldl enqueueEvent w).table =
      w.table := by
  induction events generalizing w with
  | nil => exact ⟨rfl, rfl⟩
  | cons e events ih => exact ih (w.enqueueEvent e)

theorem handleAlarmSystem_spec (qt : Qt D) (now : Int) {event : Event} (h : IsStatusEvent event)
    (w : KeypadWorld) (as : AlarmSystem) :
    let r := handleAlarmSystem qt now event w as
    r.1.sensors.map shape = w.sensors.map shape ∧ r.1.table = w.table ∧ view r.2.1 = view as ∧
      ∀ entry ∈ w.table, Displays as.armStateString as.getSecondsRemaining entry r.1 := by
  obtain ⟨hsensors, htable⟩ := foldl_enqueueEvent_frame as.emitted w
  obtain ⟨hshape, htable', hdisplays⟩ := mirrorKeypadAlarmSystemState_spec
    { as with emitted := [] } (as.emitted.foldl enqueueEvent w)
  rw [hsensors] at hshape
  rw [htable] at htable' hdisplays
  unfold handleAlarmSystem
  simp only [handleEvent_of_status h]
  rw [if_pos h]
  split
  · exact ⟨hshape, htable', view_pushEventToWebsocket qt event _, hdisplays⟩
  · exact ⟨hshape, htable', rfl, hdisplays⟩

/-- **All alarm systems.**  After a status event the keypads of the table show the
last alarm system of the list. -/
theorem handleAlarmSystemEvent_spec (qt : Qt D) (now : Int) {event : Event}
    (h : IsStatusEvent event) (w : KeypadWorld) (systems : List AlarmSystem) :
    let r := handleAlarmSystemEvent qt now event w systems
    r.world.sensors.map shape = w.sensors.map shape ∧ r.world.table = w.table ∧ r.systems.map view =
      systems.map view ∧
      ∀ last, systems.getLast? = some last → ∀ entry ∈ w.table,
        Displays last.armStateString last.getSecondsRemaining entry r.world := by
  induction systems generalizing w with
  | nil => exact ⟨rfl, rfl, rfl, fun last hlast => by simp at hlast⟩
  | cons as rest ih =>
    obtain ⟨hshape, htable, hview, hdisplays⟩ := handleAlarmSystem_spec qt now h w as
    obtain ⟨hshape', htable', hviews, hlast⟩ := ih (handleAlarmSystem qt now event w as).1
    refine ⟨hshape'.trans hshape, htable'.trans htable, ?_, ?_⟩
    · show view _ :: _ = _
      rw [hview, hviews]
      rfl
    · intro last hsome
      cases rest with
      | nil =>
        rw [List.getLast?_singleton, some_inj] at hsome
        rw [← hsome]
        exact hdisplays
      | cons b rest =>
        rw [List.getLast?_cons_cons] at hsome
        rw [htable] at hlast
        exact hlast last hsome

def IsKeypadOf (w : KeypadWorld) (entry : DeviceEntry) (s : Sensor) : Prop :=
  entry ∈ w.table ∧ entry.isValid = true ∧ entry.isKeypad = true ∧
    ∃ i, Sensor.getResource w.sensors entry.key = some i ∧ w.sensors[i]? = some s ∧ s.panel.isSome =
      true ∧ s.secondsRemaining.isSome = true

/-- Every keypad of the table shows the alarm system its entry is assigned to. -/
def Mirrored (systems : List AlarmSystem) (w : KeypadWorld) : Prop :=
  ∀ entry s, w.IsKeypadOf entry s → ∀ as ∈ systems, as.id = entry.alarmSystemId →
    Shows as.armStateString as.getSecondsRemaining s

theorem IsKeypadOf.congr {w w' : KeypadWorld} {entry : DeviceEntry} {s : Sensor}
    (h : w.IsKeypadOf entry s) (hshape : w'.sensors.map shape = w.sensors.map shape)
    (htable : w'.table = w.table) : ∃ s', w'.IsKeypadOf entry s' := by
  obtain ⟨hmem, hvalid, hkeypad, i, hi, hs, hpanel, hseconds⟩ := h
  have hget : (w'.sensors[i]?).map shape = some (shape s) := by
    rw [← List.getElem?_map, hshape, List.getElem?_map, hs]
    rfl
  obtain ⟨s', hs', hsame⟩ := map_eq_some_iff.mp hget
  simp only [shape, Prod.mk.injEq] at hsame
  obtain ⟨-, -, -, hpanel', hseconds'⟩ := hsame
  rw [hpanel] at hpanel'
  rw [hseconds] at hseconds'
  rw [← htable] at hmem
  rw [← getResource_congr hshape] at hi
  exact ⟨s', hmem, hvalid, hkeypad, i, hi, hs', hpanel', hseconds'⟩

/-- **When the keypads mirror their alarm system.**  After a status event every
keypad shows the alarm system it is assigned to exactly when that one and the
last alarm system of the list have the same arm state and remaining seconds. -/
theorem mirrored_iff (qt : Qt D) (now : Int) {event : Event} (h : IsStatusEvent event)
    (w : KeypadWorld) (systems : List AlarmSystem) :
    let r := handleAlarmSystemEvent qt now event w systems
    Mirrored r.systems r.world ↔ ∀ entry s, w.IsKeypadOf entry s → ∀ as ∈ systems, as.id =
      entry.alarmSystemId → ∀ last, systems.getLast? =
        some last → as.armStateString =
          last.armStateString ∧ as.getSecondsRemaining = last.getSecondsRemaining := by
  intro r
  obtain ⟨hshape, htable, hviews, hdisplays⟩ := handleAlarmSystemEvent_spec qt now h w systems
  -- the keypads of the table show the last alarm system
  have hshown : ∀ entry s', r.world.IsKeypadOf entry s' → ∀ last, systems.getLast? = some last →
      Shows last.armStateString last.getSecondsRemaining s' := by
    rintro entry s' ⟨hmem, hvalid, hkeypad, i, hi, hs', -⟩ last hlast
    rw [htable] at hmem
    exact hdisplays last hlast entry hmem hvalid hkeypad i s' hi hs'
  constructor
  · intro hmirrored entry s hs as has hid last hlast
    obtain ⟨s', hs'⟩ := hs.congr hshape htable
    have hmem : view as ∈ r.systems.map view := by
      rw [hviews]
      exact List.mem_map_of_mem has
    obtain ⟨as', has', hview⟩ := List.mem_map.mp hmem
    simp only [view, Prod.mk.injEq] at hview
    obtain ⟨hid', harm, hsecs⟩ := hview
    have hown := hmirrored entry s' hs' as' has' (hid'.trans hid)
    have hother := hshown entry s' hs' last hlast
    obtain ⟨-, -, -, i, -, -, hpanel, hseconds⟩ := hs'
    obtain ⟨panel, hpanel⟩ := isSome_iff_exists.mp hpanel
    obtain ⟨seconds, hseconds⟩ := isSome_iff_exists.mp hseconds
    obtain ⟨htext, hnum⟩ := hown panel seconds hpanel hseconds
    obtain ⟨htext', hnum'⟩ := hother panel seconds hpanel hseconds
    rw [harm] at htext
    rw [hsecs] at hnum
    exact ⟨htext.symm.trans htext', hnum.symm.trans hnum'⟩
  · intro hsame entry s' hs' as' has' hid'
    obtain ⟨s, hs⟩ := hs'.congr hshape.symm htable.symm
    have hmem : view as' ∈ systems.map view := by
      rw [← hviews]
      exact List.mem_map_of_mem has'
    obtain ⟨as, has, hview⟩ := List.mem_map.mp hmem
    simp only [view, Prod.mk.injEq] at hview
    obtain ⟨hid, harm, hsecs⟩ := hview
    cases hlast : systems.getLast? with
    | none =>
      rw [List.getLast?_eq_none_iff] at hlast
      rw [hlast] at has
      exact absurd has List.not_mem_nil
    | some last =>
      obtain ⟨htext, hnum⟩ := hsame entry s hs as has (hid.trans hid') last hlast
      rw [← harm, ← hsecs, htext, hnum]
      exact hshown entry s' hs' last hlast

def oneKeypad : KeypadWorld where
  sensors :=
    [{ id := ofLatin1 "1"
       uniqueId := ofLatin1 "28:6d:97:00:01:06:41:79-01-0501"
       extAddress := 0x286d970001064179
       panel := some {}
       secondsRemaining := some {} }]
  table :=
    [{ uniqueId := "28:6d:97:00:01:06:41:79-01-0501".toList.map fun c => c.toNat.toUInt8
       extAddress := 0x286d970001064179
       flags := 0x00000008
       alarmSystemId := 1 }]

def twoSystems : List AlarmSystem :=
  [AlarmSystem.started 1 [⟨.armMode, ArmMode.armedAway.toString, 0⟩] true,
    AlarmSystem.started 2 [⟨.armMode, ArmMode.disarmed.toString, 0⟩] true]

def armStateEvent : Event :=
  { resource := rAlarmSystems, what := rStateArmState, id := ofLatin1 "1", num := 3 }

theorem mirrored_iff_twoSystems :
    IsStatusEvent armStateEvent ∧
      (Mirrored (handleAlarmSystemEvent Qt.whole 0 armStateEvent oneKeypad twoSystems).systems
          (handleAlarmSystemEvent Qt.whole 0 armStateEvent oneKeypad twoSystems).world ↔
        ∀ entry s, oneKeypad.IsKeypadOf entry s → ∀ as ∈ twoSystems, as.id = entry.alarmSystemId →
          ∀ last, twoSystems.getLast? = some last → as.armStateString =
            last.armStateString ∧ as.getSecondsRemaining = last.getSecondsRemaining) :=
  ⟨.inl rfl, mirrored_iff Qt.whole 0 (.inl rfl) oneKeypad twoSystems⟩

def keypadAfter : Sensor where
  id := ofLatin1 "1"
  uniqueId := ofLatin1 "28:6d:97:00:01:06:41:79-01-0501"
  extAddress := 0x286d970001064179
  panel := some
    { str := ofLatin1 "disarmed", isSet := true, needPushSet := true,
      needPushChange := true }
  secondsRemaining := some { isSet := true, needPushSet := true }

/-- With two alarm systems of different ids, the keypad of the first shows the arm
state of the second. -/
theorem keypad_shows_other_system :
    ¬ ∀ (qt : Qt Int) (now : Int) (event : Event) (w : KeypadWorld) (systems : List AlarmSystem),
        IsStatusEvent event → (systems.map AlarmSystem.id).Nodup →
        Mirrored (handleAlarmSystemEvent qt now event w systems).systems
          (handleAlarmSystemEvent qt now event w systems).world := by
  intro hclaim
  have hmirrored := hclaim Qt.whole 0 armStateEvent oneKeypad twoSystems (.inl rfl) (by decide)
  have hsensors : (handleAlarmSystemEvent Qt.whole 0 armStateEvent oneKeypad
      twoSystems).world.sensors = [keypadAfter] := by decide
  have hkeypad : (handleAlarmSystemEvent Qt.whole 0 armStateEvent oneKeypad
      twoSystems).world.IsKeypadOf (oneKeypad.table.head (by decide)) keypadAfter := by
    refine ⟨by decide, by decide, by decide, 0, ?_, ?_, rfl, rfl⟩
    · rw [hsensors]
      decide
    · rw [hsensors]
      rfl
  have hshows := hmirrored _ _ hkeypad _ List.mem_cons_self (by decide)
  have htext := (hshows _ _ rfl rfl).1
  exact absurd htext (by decide)

end KeypadWorld
end DeconzRest

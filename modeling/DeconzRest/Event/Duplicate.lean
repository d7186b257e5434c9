import DeconzRest.Event.Emitter

/-!
# Dropped duplicates

`enqueueEvent` drops an event when an undelivered one agrees with it in what `isDuplicate`
compares.  An event carries two numbers or a reference to a data buffer in the same memory, so
the comparison of the number is the comparison of the buffer as well; the previous number is not
compared.
-/

namespace DeconzRest

/-- `EventData`, one of the buffers that events refer to. -/
structure EventData where
  id : Nat
  data : List UInt8
deriving DecidableEq, Repr

/-- `Event` as it lies in memory: `num` holds the buffer index and its id, and `numPrevious` the
data size, when the event was made with data. -/
structure EventRecord where
  resource : String
  what : String
  id : QString := []
  num : Int32 := 0
  numPrevious : Int32 := 0
  deviceKey : Nat := 0
  madeWithData : Bool := false
  urgent : Bool := false
deriving DecidableEq, Repr

structure EventView where
  resource : String
  what : String
  id : QString
  num : Int32
  numPrevious : Int32
  deviceKey : Nat
  /-- `getData` of `dataSize` bytes, where `hasData` holds. -/
  payload : Option (List UInt8)
deriving DecidableEq, Repr

namespace EventRecord

/-- `m_dataIndex` -/
def dataIndex (e : EventRecord) : Nat := e.num.toUInt32.toNat % 65536

/-- `m_dataId` -/
def dataId (e : EventRecord) : Nat := e.num.toUInt32.toNat / 65536

/-- `Event::dataSize` -/
def dataSize (e : EventRecord) : Nat := e.numPrevious.toUInt32.toNat % 65536

/-- `Event::hasData`: the buffer still belongs to the event. -/
def hasData (buffers : List EventData) (e : EventRecord) : Bool :=
  e.madeWithData && buffers[e.dataIndex]?.any fun buffer => e.dataId == buffer.id

/-- `Event::getData` of `dataSize` bytes. -/
def payload (buffers : List EventData) (e : EventRecord) : Option (List UInt8) :=
  if e.hasData buffers then buffers[e.dataIndex]?.map fun buffer => buffer.data.take e.dataSize
  else none

def view (buffers : List EventData) (e : EventRecord) : EventView :=
  ⟨e.resource, e.what, e.id, e.num, e.numPrevious, e.deviceKey, e.payload buffers⟩

/-- What `isDuplicate` compares. -/
def agrees (buffers : List EventData) (e x : EventRecord) : Bool :=
  decide (e.deviceKey = x.deviceKey ∧ e.resource = x.resource ∧ e.what = x.what ∧ e.num = x.num ∧
    e.id = x.id ∧ e.hasData buffers = x.hasData buffers ∧
    (e.hasData buffers = true → e.dataSize = x.dataSize))

/-- `isDuplicate` -/
def isDuplicate (buffers : List EventData) (pos : Nat) (queue : List EventRecord)
    (e : EventRecord) : Bool :=
  (queue.drop pos).any fun x => e.agrees buffers x

/-- The device key that is attached to an event without one; `ext` is the address of the node that
its id names, 0 without a node. -/
def attachDeviceKey (ext : EventRecord → Nat) (e : EventRecord) : EventRecord :=
  if e.deviceKey = 0 ∧ (e.resource = "/sensors" ∨ e.resource = "/lights") ∧ 0 < ext e then
    { e with deviceKey := ext e }
  else e

/-- `EventEmitter::enqueueEvent` of an event that is not urgent: `m_queue` afterwards. -/
def enqueueEvent (buffers : List EventData) (ext : EventRecord → Nat) (pos : Nat)
    (queue : List EventRecord) (e : EventRecord) : List EventRecord :=
  if isDuplicate buffers pos queue (e.attachDeviceKey ext) then queue
  else queue ++ [e.attachDeviceKey ext]

def toEvent (buffers : List EventData) (e : EventRecord) : Event where
  resource := e.resource
  what := e.what
  id := e.id
  num := e.num.toInt
  numPrevious := e.numPrevious.toInt
  deviceKey := e.deviceKey
  dataSize := if e.hasData buffers then some e.dataSize else none

variable {buffers : List EventData}

theorem agrees_iff {e x : EventRecord} : e.agrees buffers x = true ↔ e.deviceKey = x.deviceKey ∧
    e.resource = x.resource ∧ e.what = x.what ∧ e.num = x.num ∧ e.id = x.id ∧ e.hasData buffers =
      x.hasData buffers ∧
      (e.hasData buffers = true → e.dataSize = x.dataSize) :=
  decide_eq_true_iff

theorem payload_eq_of_agrees {e x : EventRecord} (h : e.agrees buffers x = true) :
    x.payload buffers = e.payload buffers := by
  obtain ⟨-, -, -, hnum, -, hdata, hsize⟩ := agrees_iff.mp h
  unfold payload
  rw [← hdata]
  split
  · rename_i hhas
    have hindex : x.dataIndex = e.dataIndex := by
      unfold dataIndex
      rw [hnum]
    rw [hindex, hsize hhas]
  · rfl

theorem view_eq_of_agrees {e x : EventRecord} (h : e.agrees buffers x = true) :
    x.view buffers = e.view buffers ↔ x.numPrevious = e.numPrevious := by
  obtain ⟨hkey, hresource, hwhat, hnum, hid, -, -⟩ := agrees_iff.mp h
  unfold view
  rw [payload_eq_of_agrees h, hkey, hresource, hwhat, hnum, hid]
  constructor
  · intro heq
    exact congrArg EventView.numPrevious heq
  · intro hprevious
    rw [hprevious]

theorem payload_isSome (e : EventRecord) : (e.payload buffers).isSome = e.hasData buffers := by
  unfold payload
  split
  · rename_i hhas
    rw [hhas, Option.isSome_map]
    have hany := (Bool.and_eq_true_iff.mp hhas).2
    cases hbuffer : buffers[e.dataIndex]? with
    | none =>
      rw [hbuffer] at hany
      exact absurd hany Bool.false_ne_true
    | some buffer => rfl
  · rename_i hnone
    exact (Bool.eq_false_iff.mpr hnone).symm

theorem agrees_of_view_eq {e x : EventRecord} (h : x.view buffers = e.view buffers) :
    e.agrees buffers x = true := by
  unfold view at h
  injection h with hresource hwhat hid hnum hprevious hkey hpayload
  refine agrees_iff.mpr ⟨hkey.symm, hresource.symm, hwhat.symm, hnum.symm, hid.symm, ?_, ?_⟩
  · rw [← payload_isSome, ← payload_isSome, hpayload]
  · intro _
    unfold dataSize
    rw [hprevious]

/-! ## What is dropped -/

/-- `m_queue` and `m_pos`, the number of its events that are delivered. -/
structure QueueState where
  queue : List EventRecord
  pos : Nat
  pos_le : pos ≤ queue.length

namespace QueueState

def undelivered (q : QueueState) : List EventRecord := q.queue.drop q.pos

/-- `EventEmitter::enqueueEvent` -/
def enqueue (buffers : List EventData) (ext : EventRecord → Nat) (q : QueueState)
    (e : EventRecord) : QueueState where
  queue := enqueueEvent buffers ext q.pos q.queue e
  pos := q.pos
  pos_le := by
    unfold enqueueEvent
    split
    · exact q.pos_le
    · rw [List.length_append]
      exact Nat.le_add_right_of_le q.pos_le

end QueueState

/-- A handler sees the change `v` in one of the undelivered events. -/
def Sees (buffers : List EventData) (undelivered : List EventRecord) (v : EventView) : Prop :=
  ∃ x ∈ undelivered, x.view buffers = v

/-- `enqueueEvent` drops the event only if an undelivered one looks the same, and every handler
sees what it sees when nothing is dropped. -/
structure DropsRedundant (buffers : List EventData) (ext : EventRecord → Nat) (q : QueueState)
    (e : EventRecord) : Prop where
  redundant : (q.enqueue buffers ext e).queue = q.queue →
    Sees buffers q.undelivered ((e.attachDeviceKey ext).view buffers)
  sees : ∀ v, Sees buffers (q.enqueue buffers ext e).undelivered v ↔
    Sees buffers (q.undelivered ++ [e.attachDeviceKey ext]) v

/-- The undelivered events that agree with the event, if there are any, are not all about a change
from another value. -/
def SameChange (buffers : List EventData) (undelivered : List EventRecord) (e : EventRecord) :
    Prop :=
  (∃ x ∈ undelivered, e.agrees buffers x = true) → ∃ x ∈ undelivered, e.agrees buffers x = true ∧
    x.numPrevious = e.numPrevious

theorem sees_append {undelivered : List EventRecord} {e : EventRecord} {v : EventView} :
    Sees buffers (undelivered ++ [e]) v ↔ Sees buffers undelivered v ∨ e.view buffers = v := by
  unfold Sees
  constructor
  · rintro ⟨x, hx, hview⟩
    rcases List.mem_append.mp hx with hx | hx
    · exact .inl ⟨x, hx, hview⟩
    · exact .inr (List.mem_singleton.mp hx ▸ hview)
  · rintro (⟨x, hx, hview⟩ | hview)
    · exact ⟨x, List.mem_append_left _ hx, hview⟩
    · exact ⟨e, List.mem_append_right _ List.mem_cons_self, hview⟩

theorem sees_view_iff {undelivered : List EventRecord} {e : EventRecord} :
    Sees buffers undelivered (e.view buffers) ↔ ∃ x ∈ undelivered, e.agrees buffers x = true ∧
      x.numPrevious = e.numPrevious := by
  constructor
  · rintro ⟨x, hx, hview⟩
    have hagrees := agrees_of_view_eq hview
    exact ⟨x, hx, hagrees, (view_eq_of_agrees hagrees).mp hview⟩
  · rintro ⟨x, hx, hagrees, hprevious⟩
    exact ⟨x, hx, (view_eq_of_agrees hagrees).mpr hprevious⟩

theorem isDuplicate_iff {pos : Nat} {queue : List EventRecord} {e : EventRecord} :
    isDuplicate buffers pos queue e = true ↔ ∃ x ∈ queue.drop pos, e.agrees buffers x = true :=
  List.any_eq_true

variable {ext : EventRecord → Nat} {q : QueueState} {e : EventRecord}

theorem enqueue_eq_iff : (q.enqueue buffers ext e).queue = q.queue ↔
    isDuplicate buffers q.pos q.queue (e.attachDeviceKey ext) = true := by
  show enqueueEvent buffers ext q.pos q.queue e = q.queue ↔ _
  unfold enqueueEvent
  split
  · rename_i hdup
    exact ⟨fun _ => hdup, fun _ => rfl⟩
  · rename_i hnew
    refine ⟨fun hsame => ?_, fun hdup => absurd hdup hnew⟩
    have hlength := congrArg List.length hsame
    rw [List.length_append] at hlength
    exact absurd hlength (Nat.succ_ne_self _)

theorem undelivered_of_new
    (h : isDuplicate buffers q.pos q.queue (e.attachDeviceKey ext) ≠ true) :
    (q.enqueue buffers ext e).undelivered = q.undelivered ++ [e.attachDeviceKey ext] := by
  show (enqueueEvent buffers ext q.pos q.queue e).drop q.pos = _
  unfold enqueueEvent
  rw [if_neg h, List.drop_append_of_le_length q.pos_le]
  rfl

theorem undelivered_of_duplicate
    (h : isDuplicate buffers q.pos q.queue (e.attachDeviceKey ext) = true) :
    (q.enqueue buffers ext e).undelivered = q.undelivered := by
  show (enqueueEvent buffers ext q.pos q.queue e).drop q.pos = _
  unfold enqueueEvent
  rw [if_pos h]
  rfl

/-- **Dropped events are redundant** exactly if some undelivered event that agrees with the new
one, when there is one, is about a change from the same value. -/
theorem dropsRedundant_iff (buffers : List EventData) (ext : EventRecord → Nat) (q : QueueState)
    (e : EventRecord) :
    DropsRedundant buffers ext q e ↔ SameChange buffers q.undelivered (e.attachDeviceKey ext) := by
  constructor
  · intro h hagrees
    have hdup := isDuplicate_iff.mpr hagrees
    exact sees_view_iff.mp (h.redundant (enqueue_eq_iff.mpr hdup))
  · intro h
    refine ⟨?_, ?_⟩
    · intro hsame
      exact sees_view_iff.mpr (h (isDuplicate_iff.mp (enqueue_eq_iff.mp hsame)))
    · intro v
      by_cases hdup : isDuplicate buffers q.pos q.queue (e.attachDeviceKey ext) = true
      · rw [undelivered_of_duplicate hdup, sees_append]
        have hseen := sees_view_iff.mpr (h (isDuplicate_iff.mp hdup))
        refine ⟨.inl, ?_⟩
        rintro (hv | rfl)
        · exact hv
        · exact hseen
      · rw [undelivered_of_new hdup]

/-- An event of `state/presence` of one sensor. -/
def presence (num numPrevious : Int32) : EventRecord where
  resource := "/sensors"
  what := "state/presence"
  id := QString.ofLatin1 "1"
  num := num
  numPrevious := numPrevious
  deviceKey := 1

/-- The sensor has reported 1 again and then 0, and both events are not delivered when it reports
1: the change back to 1 is dropped. -/
theorem changeBack_dropped :
    ¬ DropsRedundant [] (fun _ => 0) ⟨[presence 1 1, presence 0 1], 0, Nat.zero_le _⟩
      (presence 1 0) := by
  intro h
  obtain ⟨x, hx, hview⟩ := h.redundant (by decide)
  rcases List.mem_pair.mp hx with rfl | rfl
  · exact absurd (congrArg EventView.numPrevious hview) (by decide)
  · exact absurd (congrArg EventView.num hview) (by decide)

end EventRecord
end DeconzRest

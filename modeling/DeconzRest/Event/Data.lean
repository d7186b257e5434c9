import DeconzRest.Event.Duplicate
import DeconzRest.Lib.SlotRing
import DeconzRest.Lib.Transition
import Mathlib.Data.List.Forall2

/-!
# The data of events

The data of an event lies in one of `MaxEventDataBuffers` static buffers, which are used one after
the other.  The event keeps the index of its buffer and the id that the buffer had then; a buffer
that was used again since has another id.  Events are copied, and their data is read, at any time.
-/

namespace DeconzRest

open List

/-- `MaxEventDataBuffers` -/
def maxEventDataBuffers : Nat := 64

/-- `MaxEventDataSize` -/
def maxEventDataSize : Nat := 256

structure EventPayload where
  data : List UInt8
  size_pos : 0 < data.length
  size_le : data.length ≤ maxEventDataSize

/-- `_eventDataIter` and `_eventData`, and the events that were made so far, copies among them. -/
structure EventWorld where
  iter : Nat
  buffers : List EventData
  events : List EventRecord

inductive EventAction where
  /-- An event with data. -/
  | withData (resource what : String) (payload : EventPayload) (deviceKey : Nat)
  /-- An event without data. -/
  | plain (e : EventRecord)
  /-- The event at `i` is copied. -/
  | copy (i : Nat)
  /-- `getData` of the event at `i`. -/
  | read (i size : Nat)
  | setDeviceKey (i key : Nat)
  | setUrgent (i : Nat) (urgent : Bool)

/-- `memcpy` of `data` to the start of a buffer -/
def overwrite (data buffer : List UInt8) : List UInt8 := data ++ buffer.drop data.length

namespace EventRecord

/-- `Event::getData`, what is copied to `dst`. -/
def getData (buffers : List EventData) (e : EventRecord) (size : Nat) : Option (List UInt8) :=
  if size = e.dataSize ∧ e.hasData buffers = true then
    buffers[e.dataIndex]?.map fun buffer => buffer.data.take size
  else none

/-- The constructor with data; `m_dataIndex`, `m_dataId` and `m_dataSize` share the memory of
`m_num` and `m_numPrev`. -/
def withData (resource what : String) (deviceKey dataIndex dataId dataSize : Nat) :
    EventRecord where
  resource := resource
  what := what
  num := (UInt32.ofNat (dataIndex % 65536 + 65536 * (dataId % 65536))).toInt32
  numPrevious := (UInt32.ofNat (dataSize % 65536)).toInt32
  deviceKey := deviceKey
  madeWithData := true

end EventRecord

namespace EventWorld

def start : EventWorld where
  iter := 0
  buffers := List.replicate maxEventDataBuffers ⟨0, List.replicate maxEventDataSize 0⟩
  events := []

/-- `allocDataBuffer`; the index is `_eventDataIter` afterwards. -/
def allocDataBuffer (w : EventWorld) : EventWorld :=
  let iter := (w.iter + 1) % maxEventDataBuffers
  { w with
    iter := iter
    buffers := w.buffers.modify iter fun buffer => { buffer with id := (buffer.id + 1) % 65536 } }

/-- `Event(resource, what, data, size, deviceKey)` -/
def makeWithData (w : EventWorld) (resource what : String) (payload : EventPayload)
    (deviceKey : Nat) : EventWorld :=
  let w := w.allocDataBuffer
  let dataId := (w.buffers[w.iter]?.map EventData.id).getD 0
  let event := EventRecord.withData resource what deviceKey w.iter dataId payload.data.length
  { w with
    buffers := w.buffers.modify w.iter fun buffer =>
      { buffer with data := overwrite payload.data buffer.data }
    events := w.events ++ [event] }

def step (w : EventWorld) : EventAction → EventWorld
  | .withData resource what payload deviceKey => w.makeWithData resource what payload deviceKey
  | .plain e => { w with events := w.events ++ [{ e with madeWithData := false }] }
  | .copy i => { w with events := w.events ++ w.events[i]?.toList }
  | .read _ _ => w
  | .setDeviceKey i key =>
    { w with events := w.events.modify i fun e => { e with deviceKey := key } }
  | .setUrgent i urgent =>
    { w with events := w.events.modify i fun e => { e with urgent := urgent } }

end EventWorld

/-- What the constructor of an event, or of the event it was copied from, was given, and how many
events with data had been made before. -/
structure EventOrigin where
  payload : EventPayload
  number : Nat

/-- The data given to the constructors so far, and where the data of the events comes from. -/
structure EventOrigins where
  made : List EventPayload := []
  origins : List (Option EventOrigin) := []

def EventOrigins.step (o : EventOrigins) : EventAction → EventOrigins
  | .withData _ _ payload _ =>
    ⟨o.made ++ [payload], o.origins ++ [some ⟨payload, o.made.length⟩]⟩
  | .plain _ => { o with origins := o.origins ++ [none] }
  | .copy i => { o with origins := o.origins ++ o.origins[i]?.toList }
  | .read _ _ | .setDeviceKey _ _ | .setUrgent _ _ => o

def eventsAfter (acts : List EventAction) : EventWorld :=
  Transition.run EventWorld.step EventWorld.start acts

def originsAfter (acts : List EventAction) : EventOrigins :=
  Transition.run EventOrigins.step {} acts

namespace EventRecord

variable (resource what : String) (deviceKey dataIndex dataId dataSize : Nat)

theorem withData_num :
    (withData resource what deviceKey dataIndex dataId dataSize).num.toUInt32.toNat =
      dataIndex % 65536 + 65536 * (dataId % 65536) := by
  unfold withData
  rw [UInt32.toUInt32_toInt32, UInt32.toNat_ofNat']
  exact Nat.mod_eq_of_lt (by omega)

theorem dataIndex_withData (h : dataIndex < 65536) :
    (withData resource what deviceKey dataIndex dataId dataSize).dataIndex = dataIndex := by
  unfold EventRecord.dataIndex
  rw [withData_num]
  omega

theorem dataId_withData (h : dataId < 65536) :
    (withData resource what deviceKey dataIndex dataId dataSize).dataId = dataId := by
  unfold EventRecord.dataId
  rw [withData_num]
  omega

theorem dataSize_withData (h : dataSize < 65536) :
    (withData resource what deviceKey dataIndex dataId dataSize).dataSize = dataSize := by
  unfold EventRecord.dataSize withData
  rw [UInt32.toUInt32_toInt32, UInt32.toNat_ofNat', Nat.mod_eq_of_lt h]
  omega

variable {buffers : List EventData} {e : EventRecord}

theorem hasData_iff : e.hasData buffers = true ↔ e.madeWithData = true ∧
    (buffers[e.dataIndex]?).map EventData.id = some e.dataId := by
  unfold hasData
  rw [Bool.and_eq_true]
  refine and_congr_right fun _ => ?_
  cases buffers[e.dataIndex]? with
  | none => simp
  | some buffer =>
    rw [Option.any_some, beq_iff_eq, Option.map_some, Option.some_inj]
    exact eq_comm

end EventRecord

theorem take_overwrite (data buffer : List UInt8) :
    (overwrite data buffer).take data.length = data := by
  unfold overwrite
  rw [take_append_of_le_length (Nat.le_refl _), take_length]

namespace EventWorld

def ring (w : EventWorld) : SlotRing (List UInt8) :=
  ⟨w.iter, w.buffers.map fun buffer => ⟨buffer.id, buffer.data⟩⟩

theorem ring_start : SlotRing.After maxEventDataBuffers 65536 [] start.ring := by
  refine SlotRing.after_nil rfl rfl ?_
  intro slot hslot
  obtain ⟨buffer, hbuffer, rfl⟩ := mem_map.mp hslot
  rw [eq_of_mem_replicate hbuffer]

variable (w : EventWorld) (resource what : String) (payload : EventPayload) (deviceKey : Nat)

theorem buffers_makeWithData : (w.makeWithData resource what payload deviceKey).buffers =
    w.buffers.modify ((w.iter + 1) % maxEventDataBuffers) fun buffer =>
      ⟨(buffer.id + 1) % 65536, overwrite payload.data buffer.data⟩ :=
  modify_modify_eq _ _ _ _

theorem ring_makeWithData : (w.makeWithData resource what payload deviceKey).ring =
    w.ring.give maxEventDataBuffers 65536 (overwrite payload.data) := by
  unfold ring
  rw [buffers_makeWithData]
  refine congrArg (SlotRing.mk _) ?_
  refine ext_getElem? fun i => ?_
  rw [List.getElem?_map, List.getElem?_modify, List.getElem?_modify, List.getElem?_map]
  cases w.buffers[i]? with
  | none => rfl
  | some buffer =>
    by_cases hi : (w.iter + 1) % maxEventDataBuffers = i
    · simp only [hi, if_true, Option.map_eq_map, Option.map_some]
    · simp only [hi, if_false, Option.map_eq_map, Option.map_some]

end EventWorld

/-! ## Every action -/

/-- What is known of an event: the slot of its data and the generation of the slot. -/
structure EventRecord.Refers (made : List EventPayload) (e : EventRecord) (x : EventOrigin) :
    Prop where
  madeWithData : e.madeWithData = true
  index : e.dataIndex = SlotRing.slotOf maxEventDataBuffers x.number
  id : e.dataId = SlotRing.generationOf maxEventDataBuffers 65536 x.number
  size : e.dataSize = x.payload.data.length
  made : made[x.number]? = some x.payload

/-- An event and where its data comes from. -/
def EventRecord.From (made : List EventPayload) (e : EventRecord) : Option EventOrigin → Prop
  | none => e.madeWithData = false
  | some x => e.Refers made x

variable {made : List EventPayload} {e : EventRecord}

theorem EventRecord.From.mono {x : Option EventOrigin} (h : e.From made x)
    (more : List EventPayload) {f : EventRecord} (hdata : f.madeWithData = e.madeWithData)
    (hnum : f.num = e.num) (hprevious : f.numPrevious = e.numPrevious) : f.From (made ++ more) x := by
  cases x with
  | none => exact hdata.trans h
  | some x =>
    obtain ⟨hwith, hindex, hid, hsize, hmade⟩ := h
    refine ⟨hdata.trans hwith, ?_, ?_, ?_, ?_⟩
    · unfold dataIndex at hindex ⊢
      rw [hnum]
      exact hindex
    · unfold dataId at hid ⊢
      rw [hnum]
      exact hid
    · unfold dataSize at hsize ⊢
      rw [hprevious]
      exact hsize
    · have hlt := (List.getElem?_eq_some_iff.mp hmade).1
      rw [List.getElem?_append_left hlt]
      exact hmade

/-- The buffers hold what was given to the last constructors, and the events refer to it. -/
structure EventWorld.Kept (o : EventOrigins) (w : EventWorld) : Prop where
  ring : SlotRing.After maxEventDataBuffers 65536 (o.made.map fun p => overwrite p.data) w.ring
  events : List.Forall₂ (EventRecord.From o.made) w.events o.origins

section Pairs

variable {β γ : Type*} {R : β → γ → Prop}

theorem forall₂_modify {xs : List β} {ys : List γ} (h : List.Forall₂ R xs ys) {f : β → β}
    (hf : ∀ x y, R x y → R (f x) y) (i : Nat) : List.Forall₂ R (xs.modify i f) ys := by
  induction h generalizing i with
  | nil => rw [modify_nil]; exact .nil
  | cons hxy _ ih =>
    cases i with
    | zero => rw [modify_zero_cons]; exact .cons (hf _ _ hxy) ‹_›
    | succ i => rw [modify_succ_cons]; exact .cons hxy (ih i)

theorem forall₂_getElem? {xs : List β} {ys : List γ} (h : List.Forall₂ R xs ys) (i : Nat) :
    List.Forall₂ R xs[i]?.toList ys[i]?.toList := by
  induction h generalizing i with
  | nil => exact .nil
  | cons hxy _ ih =>
    cases i with
    | zero => exact .cons hxy .nil
    | succ i => exact ih i

end Pairs

namespace EventWorld

variable {o : EventOrigins} {w : EventWorld}

theorem Kept.dataId_eq (h : w.Kept o) :
    (w.allocDataBuffer.buffers[w.allocDataBuffer.iter]?.map EventData.id).getD 0 =
      SlotRing.generationOf maxEventDataBuffers 65536 o.made.length := by
  have hiter : (w.iter + 1) % maxEventDataBuffers =
      SlotRing.slotOf maxEventDataBuffers o.made.length := by
    have heq : w.iter = o.made.length % maxEventDataBuffers := by
      have := h.ring.iter_eq
      rwa [length_map] at this
    rw [heq, Nat.mod_add_mod]
    rfl
  -- the slot that is next was given one round ago, or never
  have hold := h.ring.generation_eq 0 (by decide)
  rw [length_map, Nat.add_zero] at hold
  unfold EventWorld.ring at hold
  rw [List.getElem?_map, Option.map_map] at hold
  obtain ⟨buffer, hbuffer, hid⟩ := Option.map_eq_some_iff.mp hold
  unfold allocDataBuffer
  simp only [hiter]
  rw [List.getElem?_modify_eq, hbuffer]
  show (buffer.id + 1) % 65536 = _
  have hid : buffer.id = o.made.length / maxEventDataBuffers % 65536 := hid
  rw [hid, Nat.mod_add_mod]
  rfl

theorem Kept.makeWithData (h : w.Kept o) (resource what : String) (payload : EventPayload)
    (deviceKey : Nat) :
    (w.makeWithData resource what payload deviceKey).Kept
      ⟨o.made ++ [payload], o.origins ++ [some ⟨payload, o.made.length⟩]⟩ := by
  refine ⟨?_, ?_⟩
  · rw [ring_makeWithData, map_append]
    exact h.ring.give (by decide) _
  · refine rel_append (h.events.imp fun e x he => he.mono [payload] rfl rfl rfl)
      (.cons ⟨rfl, ?_, ?_, ?_, ?_⟩ .nil)
    · refine (EventRecord.dataIndex_withData _ _ _ _ _ _ ?_).trans ?_
      · exact Nat.lt_trans (Nat.mod_lt _ (by decide)) (by decide : maxEventDataBuffers < 65536)
      · have hiter := (h.ring.give (by decide : 0 < maxEventDataBuffers)
          (overwrite payload.data)).iter_eq
        rw [List.length_append, length_map] at hiter
        exact hiter
    · refine (EventRecord.dataId_withData _ _ _ _ _ _ ?_).trans h.dataId_eq
      rw [h.dataId_eq]
      exact Nat.mod_lt _ (by decide)
    · refine EventRecord.dataSize_withData _ _ _ _ _ _ ?_
      exact Nat.lt_of_le_of_lt payload.size_le (by decide)
    · exact List.getElem?_concat_length

theorem Kept.step (h : w.Kept o) (act : EventAction) : (w.step act).Kept (o.step act) := by
  cases act with
  | withData resource what payload deviceKey => exact h.makeWithData resource what payload deviceKey
  | plain e => exact ⟨h.ring, rel_append h.events (.cons rfl .nil)⟩
  | copy i => exact ⟨h.ring, rel_append h.events (forall₂_getElem? h.events i)⟩
  | read i size => exact h
  | setDeviceKey i key =>
    refine ⟨h.ring, forall₂_modify h.events (fun e x he => ?_) i⟩
    rw [← append_nil o.made]
    exact he.mono [] rfl rfl rfl
  | setUrgent i urgent =>
    refine ⟨h.ring, forall₂_modify h.events (fun e x he => ?_) i⟩
    rw [← append_nil o.made]
    exact he.mono [] rfl rfl rfl

theorem kept_after (acts : List EventAction) : (eventsAfter acts).Kept (originsAfter acts) := by
  refine Transition.run_history
    (P := fun seen w => EventWorld.Kept (originsAfter seen) w) ?_ ⟨ring_start, .nil⟩ acts
  intro seen w act h
  unfold originsAfter
  rw [Transition.run_concat]
  exact h.step act

variable {e : EventRecord} {x : EventOrigin}

theorem Kept.slot (h : w.Kept o) (he : e.Refers o.made x)
    (hfew : o.made.length < 65536 * maxEventDataBuffers) :
    e.hasData w.buffers = true ↔ o.made.length ≤ x.number + maxEventDataBuffers := by
  have hlt := (List.getElem?_eq_some_iff.mp he.made).1
  have hiff := h.ring.generation_iff (by rw [length_map, Nat.mul_comm]; exact hfew)
    (j := x.number) (by rw [length_map]; exact hlt)
  rw [length_map] at hiff
  rw [EventRecord.hasData_iff, he.index, he.id, ← hiff]
  unfold EventWorld.ring
  rw [List.getElem?_map, Option.map_map]
  exact and_iff_right he.madeWithData

theorem Kept.bytes (h : w.Kept o) (he : e.Refers o.made x)
    (hrecent : o.made.length ≤ x.number + maxEventDataBuffers) :
    w.buffers[e.dataIndex]?.map (fun buffer => buffer.data.take x.payload.data.length) =
      some x.payload.data := by
  obtain ⟨hlt, hmade⟩ := List.getElem?_eq_some_iff.mp he.made
  obtain ⟨old, hold⟩ := h.ring.content_eq x.number (by rw [length_map]; exact hlt)
    (by rw [length_map]; exact hrecent)
  rw [getElem_map, hmade] at hold
  unfold EventWorld.ring at hold
  rw [List.getElem?_map, Option.map_map, ← he.index] at hold
  obtain ⟨buffer, hbuffer, hdata⟩ := Option.map_eq_some_iff.mp hold
  have hdata : buffer.data = overwrite x.payload.data old := hdata
  rw [hbuffer, Option.map_some, hdata, take_overwrite]

theorem Kept.getData_eq (h : w.Kept o) (he : e.Refers o.made x)
    (hfew : o.made.length < 65536 * maxEventDataBuffers) (size : Nat) :
    e.getData w.buffers size = if size = x.payload.data.length ∧ o.made.length ≤ x.number +
      maxEventDataBuffers then
        some x.payload.data
      else none := by
  unfold EventRecord.getData
  rw [he.size]
  refine if_ctx_congr (and_congr_right fun _ => h.slot he hfew) (fun hok => ?_) fun _ => rfl
  rw [hok.1]
  exact h.bytes he hok.2

end EventWorld

/-- **Event payloads are never mixed up.**  While fewer events with data were made than there are
buffers and ids, what `getData` copies is what was given to the constructor of the event, or of
the event that it is a copy of, and the data is there as long as fewer than 64 events with data
were made after it. -/
theorem event_data_kept (acts : List EventAction)
    (hfew : (originsAfter acts).made.length < 65536 * maxEventDataBuffers) (i : Nat)
    (e : EventRecord) (he : (eventsAfter acts).events[i]? = some e) :
    ∃ origin, (originsAfter acts).origins[i]? = some origin ∧
      (∀ size bytes, e.getData (eventsAfter acts).buffers size = some bytes → ∃ x, origin = some x ∧
        bytes = x.payload.data) ∧
      ∀ x, origin = some x → (originsAfter acts).made.length - (x.number + 1) <
        maxEventDataBuffers → e.getData (eventsAfter acts).buffers x.payload.data.length =
          some x.payload.data := by
  have h := EventWorld.kept_after acts
  obtain ⟨hlength, hget⟩ := forall₂_iff_get.mp h.events
  obtain ⟨hi, rfl⟩ := List.getElem?_eq_some_iff.mp he
  have hi' : i < (originsAfter acts).origins.length := hlength ▸ hi
  have hfrom := hget i hi hi'
  refine ⟨_, List.getElem?_eq_getElem hi', ?_⟩
  rw [get_eq_getElem, get_eq_getElem] at hfrom
  cases horigin : (originsAfter acts).origins[i] with
  | none =>
    -- an event that was made without data never has any
    rw [horigin] at hfrom
    refine ⟨fun size bytes hbytes => ?_, fun x hx => absurd hx (Option.some_ne_none x).symm⟩
    unfold EventRecord.getData EventRecord.hasData at hbytes
    rw [show (eventsAfter acts).events[i].madeWithData = false from hfrom] at hbytes
    simp at hbytes
  | some x =>
    rw [horigin] at hfrom
    refine ⟨fun size bytes hbytes => ?_, fun y hy hrecent => ?_⟩
    · rw [h.getData_eq hfrom hfew] at hbytes
      split at hbytes
      · exact ⟨x, rfl, (Option.some_inj.mp hbytes).symm⟩
      · exact absurd hbytes (Option.some_ne_none bytes).symm
    · obtain rfl := Option.some_inj.mp hy
      rw [h.getData_eq hfrom hfew, if_pos ⟨rfl, by omega⟩]

theorem answer_pos : 0 < ([24, 1] : List UInt8).length := by decide

theorem answer_le : ([24, 1] : List UInt8).length ≤ maxEventDataSize := by decide

def twoMade : List EventAction :=
  [.withData "/devices" "event/zcl" ⟨[24, 1], answer_pos, answer_le⟩ 1,
    .withData "/devices" "event/zcl" ⟨[24, 1], answer_pos, answer_le⟩ 2, .copy 0]

/-- The copy gives the two bytes. -/
theorem twoMade_kept :
    (EventRecord.withData "/devices" "event/zcl" 1 1 1 2).getData (eventsAfter twoMade).buffers 2 =
      some [24, 1] := by
  obtain ⟨_, horigin, -, hget⟩ := event_data_kept twoMade (by decide) 2
    (EventRecord.withData "/devices" "event/zcl" 1 1 1 2) rfl
  obtain rfl := Option.some_inj.mp horigin
  exact hget _ rfl (by decide)

end DeconzRest

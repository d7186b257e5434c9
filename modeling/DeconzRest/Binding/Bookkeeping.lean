import DeconzRest.Device.PollManager

/-!
# Report configuration bookkeeping

A request leaves its sequence number and its intervals in the value of its attribute, and the
response finds the values by that number.  The reference to a value that is not there is
`m_invalidValue`, and it stays so when the value is created behind it.
-/

namespace DeconzRest
namespace Bookkeeping

open List Option

/-- `NodeValue`, with what it keeps of configure reporting -/
structure NodeValue extends PollManager.NodeValue where
  minInterval : UInt16 := 0
  zclSeqNum : UInt8 := 0
  timestampLastConfigured : Option Int := none
deriving DecidableEq

/-- The check in the loops over `m_values`; an endpoint of 0 means no check. -/
def isFor (clusterId attributeId : UInt16) (endpoint : UInt8) (key : UInt8 × UInt16 × UInt16) :
    Bool :=
  (endpoint == 0 || key.1 == endpoint) && key.2.1 == clusterId && key.2.2 == attributeId

def NodeValue.key (val : NodeValue) : UInt8 × UInt16 × UInt16 :=
  (val.endpoint, val.clusterId, val.attributeId)

/-- `RestNodeBase`, a `LightNode` or a `Sensor` -/
structure RestNode where
  address : UInt64
  isLight : Bool := false
  values : List NodeValue := []
  invalidValue : NodeValue := {}
deriving DecidableEq

namespace RestNode

/-- The reference that `getZclValue` returns: a position, and none for `m_invalidValue`. -/
def getZclValue (node : RestNode) (clusterId attributeId : UInt16) (endpoint : UInt8) :
    Option Nat :=
  node.values.findIdx? fun val => isFor clusterId attributeId endpoint val.key

def deref (node : RestNode) (ref : Option Nat) : NodeValue :=
  (ref.bind (node.values[·]?)).getD node.invalidValue

def write (node : RestNode) (f : NodeValue → NodeValue) : Option Nat → RestNode
  | none => { node with invalidValue := f node.invalidValue }
  | some i => { node with values := node.values.modify i f }

/-- `setZclValue` with `NodeValue::UpdateByZclReport` -/
def setZclValue (now : Int) (endpoint : UInt8) (clusterId attributeId : UInt16)
    (node : RestNode) : RestNode :=
  match node.values.findIdx? fun val => val.key == (endpoint, clusterId, attributeId) with
  | some i =>
    node.write (fun val => { val with
      isValid := true, timestamp := some now, timestampLastReport := some now }) (some i)
  | none =>
    let val : PollManager.NodeValue :=
      { isValid := true, timestamp := some now, timestampLastReport := some now
        endpoint := endpoint, clusterId := clusterId, attributeId := attributeId }
    { node with values := node.values ++ [{ val with }] }

end RestNode

/-- `m_devices`, the sensors and behind them the lights, and `zclSeq` -/
structure World where
  nodes : List RestNode
  managed : List UInt64 := []
  zclSeq : UInt8 := 1
deriving DecidableEq

/-- The value at a position of a node -/
def World.valueAt (w : World) (j i : Nat) : Option NodeValue :=
  w.nodes[j]?.bind (·.values[i]?)

/-! ## Sending -/

/-- The node of a `BindingTask`, and of its binding what is read.  A task is sent only if its
endpoint has a simple descriptor, which 0 has not. -/
structure BindingTask where
  restNode : Nat
  srcEndpoint : UInt8
  clusterId : UInt16
  endpoint_ne : srcEndpoint ≠ 0

/-- `ConfigureReportingRequest`, without what only the frame's bytes are made of -/
structure ConfigureReportingRequest where
  direction : UInt8 := 0
  attributeId : UInt16
  minInterval : UInt16
  maxInterval : UInt16
deriving DecidableEq

structure Sent where
  sequenceNumber : UInt8
  requests : List ConfigureReportingRequest
deriving DecidableEq

section Sending

variable (now : Int) (bt : BindingTask) (seq : UInt8)

/-- A value that reports already is skipped, except to disable it. -/
def seemsActive (rq : ConfigureReportingRequest) (val : NodeValue) : Bool :=
  rq.maxInterval != 0xffff && val.timestampLastReport.any fun last =>
    decide (QDateTime.secsTo last now < min (rq.maxInterval.toNat * 3) 1800)

def stamped (rq : ConfigureReportingRequest) (val : NodeValue) : NodeValue :=
  { val with zclSeqNum := seq, minInterval := rq.minInterval, maxInterval := rq.maxInterval }

/-- The same with the fake first report -/
def configured (rq : ConfigureReportingRequest) (val : NodeValue) : NodeValue :=
  stamped seq rq { val with timestampLastReport := some (val.timestampLastReport.getD now) }

/-- `getZclValue` of a request -/
def ref (node : RestNode) (rq : ConfigureReportingRequest) : Option Nat :=
  node.getZclValue bt.clusterId rq.attributeId bt.srcEndpoint

/-- The body of the loop over the requests; the second part says whether the request is pushed. -/
def take (node : RestNode) (rq : ConfigureReportingRequest) : RestNode × Bool :=
  let val := ref bt node rq
  if (node.deref val).clusterId = bt.clusterId then
    if seemsActive now rq (node.deref val) then (node, false)
    else (node.write (configured now seq rq) val, true)
  else if node.isLight ∧ rq.maxInterval ≠ 0xffff then (node, false)
  else
    -- the reference was taken before the value is created
    ((node.setZclValue now bt.srcEndpoint bt.clusterId rq.attributeId).write (stamped seq rq) val,
      true)

/-- The loop over the requests, with `out` -/
def takeAll (node : RestNode) :
    List ConfigureReportingRequest → RestNode × List ConfigureReportingRequest
  | [] => (node, [])
  | rq :: requests =>
    let taken := take now bt seq node rq
    let rest := takeAll taken.1 requests
    (rest.1, if taken.2 then rq :: rest.2 else rest.2)

/-- Zero is not used, to simplify matching. -/
def nextSeq (zclSeq : UInt8) : UInt8 := if zclSeq = 0 then 1 else zclSeq

/-- `sendConfigureReportingRequest`: the frame if it returns true; `enqueued` is what
`apsdeDataRequest` returns. -/
def sendConfigureReportingRequest (enqueued : Bool) (w : World)
    (requests : List ConfigureReportingRequest) : World × Option Sent :=
  match w.nodes[bt.restNode]? with
  | none => (w, none)
  | some node =>
    if requests = [] ∨ node.address ∈ w.managed then (w, none)
    else
      let seq := nextSeq w.zclSeq
      let (node, out) := takeAll now bt seq node requests
      let w := { w with nodes := w.nodes.set bt.restNode node, zclSeq := seq + 1 }
      if out = [] ∨ ¬enqueued then (w, none) else (w, some { sequenceNumber := seq, requests := out })

end Sending

structure ReportingRsp where
  srcAddress : UInt64
  clusterId : UInt16
  srcEndpoint : UInt8
  sequenceNumber : UInt8
  payload : List UInt8

/-- Status and attribute of the records; what lies past the end is read as 0. -/
def records : List UInt8 → List (UInt8 × UInt16)
  | status :: _direction :: low :: high :: rest =>
    (status, .ofNat (low.toNat + 256 * high.toNat)) :: records rest
  | status :: _ => [(status, 0)]
  | [] => []

section Response

variable (now : Int) (rsp : ReportingRsp)

def markConfigured (val : NodeValue) : NodeValue :=
  { val with timestampLastConfigured := some now, zclSeqNum := 0 }

/-- A value that was sent with the sequence number of the response, and a status of success -/
def confirms (status : UInt8) (val : NodeValue) : Bool :=
  val.zclSeqNum == rsp.sequenceNumber && val.clusterId == rsp.clusterId && status == 0

/-- The branch of a single status for all attributes -/
def confirmAll (status : UInt8) (node : RestNode) : RestNode :=
  { node with
    values := node.values.map fun val =>
      if confirms rsp status val then markConfigured now val else val }

/-- The body of the loop over a status per attribute -/
def confirm (node : RestNode) (record : UInt8 × UInt16) : RestNode :=
  let val := node.getZclValue rsp.clusterId record.2 rsp.srcEndpoint
  if confirms rsp record.1 (node.deref val) then node.write (markConfigured now) val else node

/-- `handleZclConfigureReportingResponseIndication` -/
def handleZclConfigureReportingResponseIndication (w : World) : World :=
  if rsp.srcAddress ∈ w.managed then w
  else
    match rsp.payload with
    | [status] =>
      -- the break behind this branch leaves the loop over the nodes
      match w.nodes.findIdx? (·.address == rsp.srcAddress) with
      | none => w
      | some j => { w with nodes := w.nodes.modify j (confirmAll now rsp status) }
    | payload =>
      { w with
        nodes := w.nodes.map fun node =>
          if node.address = rsp.srcAddress then (records payload).foldl (confirm now rsp) node
          else node }

end Response

variable {now : Int} {bt : BindingTask} {seq : UInt8} {node : RestNode}
  {rq rq' : ConfigureReportingRequest} {requests : List ConfigureReportingRequest}

/-- The key of the value that a request is about -/
def keyOf (bt : BindingTask) (rq : ConfigureReportingRequest) : UInt8 × UInt16 × UInt16 :=
  (bt.srcEndpoint, bt.clusterId, rq.attributeId)

theorem isFor_iff {key : UInt8 × UInt16 × UInt16} :
    isFor bt.clusterId rq.attributeId bt.srcEndpoint key = true ↔ key = keyOf bt rq := by
  obtain ⟨endpoint, clusterId, attributeId⟩ := key
  simp [isFor, keyOf, bt.endpoint_ne, and_assoc]

theorem ref_some {i : Nat} (h : ref bt node rq = some i) :
    ∃ val, node.values[i]? = some val ∧ val.key = keyOf bt rq := by
  obtain ⟨hlt, hkey, -⟩ := findIdx?_eq_some_iff_getElem.mp h
  exact ⟨node.values[i], getElem?_eq_getElem hlt, isFor_iff.mp hkey⟩

theorem ref_none (h : ref bt node rq = none) {val : NodeValue} (hval : val ∈ node.values) :
    val.key ≠ keyOf bt rq := by
  intro hkey
  have hnot := findIdx?_eq_none_iff.mp h val hval
  rw [isFor_iff.mpr hkey] at hnot
  cases hnot

theorem ref_of_keys {node' : RestNode}
    (h : node'.values.map NodeValue.key = node.values.map NodeValue.key) :
    ref bt node' rq = ref bt node rq := by
  have hfind (n : RestNode) : ref bt n rq =
      (n.values.map NodeValue.key).findIdx? (isFor bt.clusterId rq.attributeId bt.srcEndpoint) := by
    rw [findIdx?_map]
    rfl
  rw [hfind, hfind, h]

theorem ref_ne (hne : rq.attributeId ≠ rq'.attributeId) {i : Nat} (h : ref bt node rq = some i) :
    ref bt node rq' ≠ some i := by
  intro h'
  obtain ⟨val, hval, hkey⟩ := ref_some h
  obtain ⟨val', hval', hkey'⟩ := ref_some h'
  rw [hval, Option.some.injEq] at hval'
  rw [← hval', hkey] at hkey'
  exact hne (congrArg (·.2.2) hkey')

theorem write_keys {f : NodeValue → NodeValue} (hf : ∀ val, (f val).key = val.key)
    (r : Option Nat) :
    (node.write f r).values.map NodeValue.key = node.values.map NodeValue.key := by
  cases r with
  | none => rfl
  | some i =>
    refine ext_getElem? fun j => ?_
    rw [RestNode.write, getElem?_map, getElem?_map, getElem?_modify]
    split
    · cases node.values[j]? <;> simp [hf]
    · cases node.values[j]? <;> rfl

/-! ## One request -/

/-- Is a request left out of the frame, before any other of its list was looked at? -/
def skips (now : Int) (bt : BindingTask) (node : RestNode) (rq : ConfigureReportingRequest) :
    Bool :=
  let val := node.deref (ref bt node rq)
  if val.clusterId = bt.clusterId then seemsActive now rq val
  else node.isLight && rq.maxInterval != 0xffff

/-- The requests of the frame -/
def included (now : Int) (bt : BindingTask) (node : RestNode) :
    List ConfigureReportingRequest → List ConfigureReportingRequest :=
  filter fun rq => !skips now bt node rq

theorem take_skips (h : skips now bt node rq = true) : take now bt seq node rq = (node, false) := by
  unfold skips at h
  unfold take
  simp only at h ⊢
  split at h
  · rename_i hcluster
    rw [if_pos hcluster, if_pos h]
  · rename_i hcluster
    rw [if_neg hcluster, if_pos (by simpa using h)]

theorem take_found (h : skips now bt node rq = false) {i : Nat} (hi : ref bt node rq = some i) :
    take now bt seq node rq = (node.write (configured now seq rq) (some i), true) := by
  obtain ⟨val, hval, hkey⟩ := ref_some hi
  have hcluster : (node.deref (some i)).clusterId = bt.clusterId := by
    simp only [RestNode.deref, bind_some, hval, getD_some]
    exact congrArg (·.2.1) hkey
  unfold skips at h
  unfold take
  simp only [hi, if_pos hcluster] at h ⊢
  rw [if_neg (by rw [h]; exact Bool.false_ne_true)]

/-- A value that is created behind the reference does not have the sequence number. -/
theorem take_missing (hseq : seq ≠ 0) (h : skips now bt node rq = false)
    (hnone : ref bt node rq = none) :
    (take now bt seq node rq).2 = true ∧ ∀ val ∈ (take now bt seq node rq).1.values, val.key =
      keyOf bt rq → val.zclSeqNum ≠ seq := by
  have hmissing := fun val hval => @ref_none bt node rq hnone val hval
  have hcreate : node.values.findIdx? (fun val =>
      val.key == (bt.srcEndpoint, bt.clusterId, rq.attributeId)) = none := by
    refine findIdx?_eq_none_iff.mpr fun val hval => ?_
    exact beq_eq_false_iff_ne.mpr (hmissing val hval)
  unfold skips at h
  unfold take
  simp only [hnone] at h ⊢
  split at h
  · rename_i hcluster
    rw [if_pos hcluster, if_neg (by rw [h]; exact Bool.false_ne_true)]
    exact ⟨rfl, fun val hval hkey => absurd hkey (hmissing val hval)⟩
  · rename_i hcluster
    rw [if_neg hcluster, if_neg (by simpa using h)]
    refine ⟨rfl, fun val hval hkey => ?_⟩
    simp only [RestNode.write, RestNode.setZclValue, hcreate, mem_append, mem_singleton] at hval
    rcases hval with hval | rfl
    · exact absurd hkey (hmissing val hval)
    · exact fun h0 => hseq h0.symm

theorem mem_take {val : NodeValue} (hval : val ∈ (take now bt seq node rq).1.values)
    (hkey : val.key ≠ keyOf bt rq) : val ∈ node.values := by
  cases hskip : skips now bt node rq with
  | true => rwa [take_skips hskip] at hval
  | false =>
    cases href : ref bt node rq with
    | some i =>
      obtain ⟨old, hold, holdkey⟩ := ref_some href
      rw [take_found hskip href] at hval
      obtain ⟨j, hj⟩ := mem_iff_getElem?.mp hval
      rw [RestNode.write, getElem?_modify] at hj
      split at hj
      · rename_i hij
        rw [← hij, hold] at hj
        obtain rfl : configured now seq rq old = val := some.inj hj
        exact absurd holdkey hkey
      · cases hget : node.values[j]? with
        | none => rw [hget] at hj; cases hj
        | some found =>
          rw [hget] at hj
          obtain rfl : found = val := some.inj hj
          exact mem_iff_getElem?.mpr ⟨j, hget⟩
    | none =>
      have hcreate : node.values.findIdx? (fun val =>
          val.key == (bt.srcEndpoint, bt.clusterId, rq.attributeId)) = none :=
        findIdx?_eq_none_iff.mpr fun old hold => beq_eq_false_iff_ne.mpr (ref_none href hold)
      unfold take at hval
      simp only [href] at hval
      split at hval
      · split at hval <;> exact hval
      · split at hval
        · exact hval
        · simp only [RestNode.write, RestNode.setZclValue, hcreate, mem_append,
            mem_singleton] at hval
          rcases hval with hval | rfl
          · exact hval
          · exact absurd rfl hkey

theorem stays_takeAll {key : UInt8 × UInt16 × UInt16} {P : NodeValue → Prop}
    (hne : ∀ rq ∈ requests, key ≠ keyOf bt rq)
    (h : ∀ val ∈ node.values, val.key = key → P val) :
    ∀ val ∈ (takeAll now bt seq node requests).1.values, val.key = key → P val := by
  induction requests generalizing node with
  | nil => exact h
  | cons rq requests ih =>
    obtain ⟨hrq, hne⟩ := forall_mem_cons.mp hne
    refine ih hne fun val hval hkey => ?_
    exact h val (mem_take hval (by rwa [hkey])) hkey

theorem other_found {i : Nat} (hi : ref bt node rq = some i)
    (hne : rq.attributeId ≠ rq'.attributeId) :
    ref bt (node.write (configured now seq rq) (some i)) rq' = ref bt node rq' ∧
      skips now bt (node.write (configured now seq rq) (some i)) rq' = skips now bt node rq' := by
  have href : ref bt (node.write (configured now seq rq) (some i)) rq' = ref bt node rq' :=
    ref_of_keys (write_keys (f := configured now seq rq) (fun _ => rfl) _)
  refine ⟨href, ?_⟩
  have hderef : (node.write (configured now seq rq) (some i)).deref (ref bt node rq') =
      node.deref (ref bt node rq') := by
    cases hj : ref bt node rq' with
    | none => rfl
    | some j =>
      have hij : i ≠ j := fun h => ref_ne hne hi (by rw [hj, h])
      simp only [RestNode.deref, RestNode.write, bind_some, getElem?_modify_ne _ _ hij]
  unfold skips
  rw [href, hderef]
  rfl

/-! ## All requests -/

/-- What the loop makes of the values if every request of the frame finds one -/
structure Recorded (now : Int) (bt : BindingTask) (seq : UInt8)
    (requests : List ConfigureReportingRequest) (node node' : RestNode) : Prop where
  keys : node'.values.map NodeValue.key = node.values.map NodeValue.key
  address : node'.address = node.address
  set : ∀ rq ∈ requests, ∀ i val, ref bt node rq = some i → node.values[i]? = some val →
    node'.values[i]? = some (configured now seq rq val)
  kept : ∀ i, (∀ rq ∈ requests, ref bt node rq ≠ some i) → node'.values[i]? = node.values[i]?

theorem recorded_takeAll (hdistinct : (requests.map (·.attributeId)).Nodup)
    (hknown : ∀ rq ∈ included now bt node requests, ref bt node rq ≠ none) :
    (takeAll now bt seq node requests).2 = included now bt node requests ∧
      Recorded now bt seq (included now bt node requests) node
        (takeAll now bt seq node requests).1 := by
  induction requests generalizing node with
  | nil =>
    refine ⟨rfl, rfl, rfl, fun rq hrq => ?_, fun i _ => rfl⟩
    cases hrq
  | cons rq requests ih =>
    obtain ⟨hfresh, hdistinct⟩ := nodup_cons.mp hdistinct
    have hne : ∀ rq' ∈ requests, rq.attributeId ≠ rq'.attributeId :=
      fun rq' hrq' h => hfresh (mem_map.mpr ⟨rq', hrq', h.symm⟩)
    unfold takeAll
    cases hskip : skips now bt node rq with
    | true =>
      have hout : included now bt node (rq :: requests) = included now bt node requests :=
        filter_cons_of_neg (by simp [hskip])
      rw [hout] at hknown ⊢
      rw [take_skips hskip]
      exact ih hdistinct hknown
    | false =>
      have hout : included now bt node (rq :: requests) = rq :: included now bt node requests :=
        filter_cons_of_pos (by simp [hskip])
      rw [hout] at hknown ⊢
      obtain ⟨hrq, hknown⟩ := forall_mem_cons.mp hknown
      obtain ⟨i, hi⟩ := ne_none_iff_exists'.mp hrq
      obtain ⟨found, hfound, -⟩ := ref_some hi
      rw [take_found hskip hi]
      generalize hnode : node.write (configured now seq rq) (some i) = node₁
      have hother : ∀ rq' ∈ requests, ref bt node₁ rq' = ref bt node rq' ∧ skips now bt node₁ rq' =
          skips now bt node rq' := by
        rw [← hnode]
        exact fun rq' hrq' => other_found hi (hne rq' hrq')
      have hsame : included now bt node₁ requests = included now bt node requests :=
        filter_congr fun rq' hrq' => by rw [(hother rq' hrq').2]
      have hmem : ∀ rq' ∈ included now bt node requests, rq' ∈ requests :=
        fun rq' hrq' => (mem_filter.mp hrq').1
      obtain ⟨hrest, hrec⟩ := @ih node₁ hdistinct (by
        rw [hsame]
        exact fun rq' hrq' => by rw [(hother rq' (hmem rq' hrq')).1]; exact hknown rq' hrq')
      rw [hsame] at hrest hrec
      have hat (j : Nat) (hij : i ≠ j) : node₁.values[j]? = node.values[j]? := by
        rw [← hnode]
        exact getElem?_modify_ne _ _ hij
      refine ⟨congrArg (rq :: ·) hrest, ?_, ?_, ?_, ?_⟩
      · rw [hrec.keys, ← hnode]
        exact write_keys (f := configured now seq rq) (fun _ => rfl) _
      · rw [hrec.address, ← hnode]
        rfl
      · intro rq' hrq' j val hj hval
        rcases mem_cons.mp hrq' with rfl | hrq'
        · obtain rfl : i = j := some.inj (hi.symm.trans hj)
          rw [hrec.kept i, ← hnode]
          · exact (getElem?_modify_eq _ _ _).trans (by rw [hval]; rfl)
          · intro rq'' hrq'' h
            rw [(hother rq'' (hmem rq'' hrq'')).1] at h
            exact ref_ne (hne rq'' (hmem rq'' hrq'')) hi h
        · have hij : i ≠ j := fun h => ref_ne (hne rq' (hmem rq' hrq')) hi (by rw [hj, h])
          refine hrec.set rq' hrq' j val ?_ ((hat j hij).trans hval)
          rw [(hother rq' (hmem rq' hrq')).1, hj]
      · intro j hj
        obtain ⟨hij, hj⟩ := forall_mem_cons.mp hj
        rw [hrec.kept j, hat j fun h => hij (by rw [hi, h])]
        exact fun rq' hrq' => by rw [(hother rq' (hmem rq' hrq')).1]; exact hj rq' hrq'

theorem unrecorded_takeAll (hseq : seq ≠ 0) (hdistinct : (requests.map (·.attributeId)).Nodup)
    (hmissing : ∃ rq ∈ included now bt node requests, ref bt node rq = none) :
    ∃ rq ∈ (takeAll now bt seq node requests).2, ∀ val ∈
      (takeAll now bt seq node requests).1.values, val.key = keyOf bt rq → val.zclSeqNum ≠ seq := by
  induction requests generalizing node with
  | nil =>
    obtain ⟨rq, hrq, -⟩ := hmissing
    cases hrq
  | cons rq requests ih =>
    obtain ⟨hfresh, hdistinct⟩ := nodup_cons.mp hdistinct
    have hne : ∀ rq' ∈ requests, rq.attributeId ≠ rq'.attributeId :=
      fun rq' hrq' h => hfresh (mem_map.mpr ⟨rq', hrq', h.symm⟩)
    obtain ⟨lost, hlost, hnone⟩ := hmissing
    obtain ⟨hin, hnot⟩ := mem_filter.mp hlost
    unfold takeAll
    cases hskip : skips now bt node rq with
    | true =>
      rw [take_skips hskip]
      refine ih hdistinct ⟨lost, mem_filter.mpr ⟨?_, hnot⟩, hnone⟩
      rcases mem_cons.mp hin with rfl | hin
      · rw [hskip] at hnot
        cases hnot
      · exact hin
    | false =>
      cases href : ref bt node rq with
      | none =>
        obtain ⟨hpush, hvalues⟩ := take_missing hseq hskip href
        refine ⟨rq, by simp [hpush], stays_takeAll (fun rq' hrq' h => ?_) hvalues⟩
        exact hne rq' hrq' (congrArg (·.2.2) h)
      | some i =>
        have hin : lost ∈ requests := by
          rcases mem_cons.mp hin with rfl | hin
          · rw [href] at hnone
            cases hnone
          · exact hin
        obtain ⟨hsame, hskips⟩ := @other_found now bt seq node rq lost i href (hne lost hin)
        rw [take_found hskip href]
        obtain ⟨rq', hrq', hvalues⟩ := @ih
          (node.write (configured now seq rq) (some i)) hdistinct ⟨lost, mem_filter.mpr ⟨hin, by rwa [hskips]⟩, by rwa [hsame]⟩
        exact ⟨rq', mem_cons_of_mem _ hrq', hvalues⟩

/-! ## The response of a frame -/

/-- The payloads of a success response: a single status, or one for each attribute -/
def okPayloads (sent : Sent) : List (List UInt8) :=
  [[0], sent.requests.flatMap fun rq =>
    [0, rq.direction, .ofNat rq.attributeId.toNat, .ofNat (rq.attributeId.toNat / 256)]]

def answer (bt : BindingTask) (address : UInt64) (sent : Sent) (payload : List UInt8) :
    ReportingRsp :=
  { srcAddress := address, clusterId := bt.clusterId, srcEndpoint := bt.srcEndpoint
    sequenceNumber := sent.sequenceNumber, payload := payload }

theorem records_okPayload (requests : List ConfigureReportingRequest) :
    records (requests.flatMap fun rq =>
        [0, rq.direction, .ofNat rq.attributeId.toNat, .ofNat (rq.attributeId.toNat / 256)]) =
      requests.map fun rq => (0, rq.attributeId) := by
  induction requests with
  | nil => rfl
  | cons rq requests ih =>
    have hlt := rq.attributeId.toNat_lt
    have hid : UInt16.ofNat ((UInt8.ofNat rq.attributeId.toNat).toNat +
        256 * (UInt8.ofNat (rq.attributeId.toNat / 256)).toNat) = rq.attributeId := by
      refine UInt16.toNat_inj.mp ?_
      simp only [UInt16.toNat_ofNat', UInt8.toNat_ofNat']
      omega
    rw [flatMap_cons, map_cons, ← ih, ← hid]
    simp only [cons_append, nil_append, records, hid]

section Answer

variable {later : Int} {address : UInt64} {sent : Sent} {payload : List UInt8}

theorem confirm_hit {i : Nat} {val : NodeValue}
    (hval : node.values[i]? = some val) :
    (confirm later (answer bt address sent payload) node (0, rq.attributeId)).values[i]? =
      some (if ref bt node rq = some i ∧ val.zclSeqNum = sent.sequenceNumber then
        markConfigured later val else val) := by
  have hget : node.getZclValue (answer bt address sent payload).clusterId rq.attributeId
      (answer bt address sent payload).srcEndpoint = ref bt node rq := rfl
  unfold confirm
  simp only [hget]
  cases href : ref bt node rq with
  | none =>
    have hno : ¬((none : Option Nat) = some i ∧ val.zclSeqNum = sent.sequenceNumber) := by simp
    rw [if_neg hno]
    split <;> exact hval
  | some j =>
    obtain ⟨found, hfound, hkey⟩ := ref_some href
    have hcluster : found.clusterId = bt.clusterId := congrArg (·.2.1) hkey
    have hconfirms : confirms (answer bt address sent payload) 0 (node.deref (some j)) = true ↔
        found.zclSeqNum = sent.sequenceNumber := by
      simp [confirms, RestNode.deref, hfound, answer, hcluster]
    by_cases hij : j = i
    · subst hij
      obtain rfl : found = val := some.inj (hfound.symm.trans hval)
      by_cases hnum : found.zclSeqNum = sent.sequenceNumber
      · rw [if_pos (hconfirms.mpr hnum), if_pos ⟨rfl, hnum⟩]
        exact (getElem?_modify_eq _ _ _).trans (by rw [hval]; rfl)
      · rw [if_neg fun h => hnum (hconfirms.mp h), if_neg fun h => hnum h.2, hval]
    · have hno : ¬(some j = some i ∧ val.zclSeqNum = sent.sequenceNumber) :=
        fun h => hij (some.inj h.1)
      rw [if_neg hno]
      split
      · exact (getElem?_modify_ne _ _ hij).trans hval
      · exact hval

theorem confirm_keys (record : UInt8 × UInt16) :
    (confirm later (answer bt address sent payload) node record).values.map NodeValue.key =
      node.values.map NodeValue.key := by
  unfold confirm
  simp only
  split
  · exact write_keys (f := markConfigured later) (fun _ => rfl) _
  · rfl

theorem foldl_confirm (hseq : sent.sequenceNumber ≠ 0) {i : Nat} {val : NodeValue}
    (hval : node.values[i]? = some val) :
    ((requests.map fun rq => (0, rq.attributeId)).foldl
        (confirm later (answer bt address sent payload)) node).values[i]? =
      some (if (∃ rq ∈ requests, ref bt node rq = some i) ∧ val.zclSeqNum =
          sent.sequenceNumber then markConfigured later val else val) := by
  induction requests generalizing node val with
  | nil =>
    rw [if_neg fun h => by obtain ⟨⟨rq, hrq, -⟩, -⟩ := h; cases hrq]
    exact hval
  | cons rq requests ih =>
    have hkeys (rq' : ConfigureReportingRequest) :
        ref bt (confirm later (answer bt address sent payload) node (0, rq.attributeId)) rq' =
          ref bt node rq' :=
      ref_of_keys (confirm_keys _)
    have hhit := @confirm_hit bt node rq later address sent payload i val hval
    rw [map_cons, foldl_cons, ih hhit]
    simp only [hkeys, exists_mem_cons_iff]
    by_cases hrq : ref bt node rq = some i ∧ val.zclSeqNum = sent.sequenceNumber
    · rw [if_pos hrq, if_neg fun h => hseq h.2.symm, if_pos ⟨.inl hrq.1, hrq.2⟩]
    · rw [if_neg hrq]
      by_cases hnum : val.zclSeqNum = sent.sequenceNumber
      · have hnot : ref bt node rq ≠ some i := fun h => hrq ⟨h, hnum⟩
        simp only [hnum, hnot, false_or, and_true]
      · rw [if_neg fun h => hnum h.2, if_neg fun h => hnum h.2]

end Answer

/-! ## Bookkeeping -/

/-- Is a value the one that the node has for an attribute of the frame? -/
def sentFor (bt : BindingTask) (w : World) (sent : Sent) (j i : Nat) : Bool :=
  j == bt.restNode && w.nodes[j]?.any fun node => sent.requests.any fun rq =>
    ref bt node rq == some i

/-- What a frame leaves behind: its attributes have values with its number and their intervals, and
a success response with that number configures these values and no others. -/
structure Bookkept (bt : BindingTask) (address : UInt64) (w : World) (sent : Sent) : Prop where
  recorded : ∀ rq ∈ sent.requests, ∃ i val, w.valueAt bt.restNode i = some val ∧ val.key =
    keyOf bt rq ∧ val.zclSeqNum = sent.sequenceNumber ∧
    val.minInterval = rq.minInterval ∧ val.maxInterval = rq.maxInterval
  confirmed : ∀ later, ∀ payload ∈ okPayloads sent, ∀ j i val, w.valueAt j i = some val →
    (handleZclConfigureReportingResponseIndication later (answer bt address sent payload) w).valueAt
      j i = some (if sentFor bt w sent j i then markConfigured later val else val)

/-- What the state before has to be: every request of the frame has a value, the node is the first
of its device, and neither it nor another node of the device has a further value that the response
would take for one of the frame. -/
structure Clear (now : Int) (bt : BindingTask) (w : World) (node : RestNode)
    (requests : List ConfigureReportingRequest) : Prop where
  known : ∀ rq ∈ included now bt node requests, ref bt node rq ≠ none
  first : w.nodes.findIdx? (·.address == node.address) = some bt.restNode
  fresh : ∀ i val, node.values[i]? = some val → val.zclSeqNum = nextSeq w.zclSeq → val.clusterId =
    bt.clusterId → ∃ rq ∈ included now bt node requests, ref bt node rq = some i
  twins : ∀ j twin, j ≠ bt.restNode → w.nodes[j]? = some twin → twin.address = node.address → ∀ rq ∈
    included now bt node requests, ∀ i val, ref bt twin rq = some i → twin.values[i]? = some val →
      val.zclSeqNum ≠ nextSeq w.zclSeq

theorem nextSeq_ne (zclSeq : UInt8) : nextSeq zclSeq ≠ 0 := by
  unfold nextSeq
  split
  · decide
  · assumption

variable {w w' : World} {sent : Sent} {enqueued : Bool}

theorem send_some (hnode : w.nodes[bt.restNode]? = some node)
    (h : sendConfigureReportingRequest now bt enqueued w requests = (w', some sent)) :
    node.address ∉ w'.managed ∧ sent.requests ≠ [] ∧ w'.nodes =
      w.nodes.set bt.restNode
        (takeAll now bt (nextSeq w.zclSeq) node requests).1 ∧
      sent = { sequenceNumber := nextSeq w.zclSeq,
               requests := (takeAll now bt (nextSeq w.zclSeq) node requests).2 } := by
  unfold sendConfigureReportingRequest at h
  rw [hnode] at h
  simp only at h
  split at h
  · cases h
  · rename_i hsends
    split at h
    · cases h
    · rename_i hout
      cases h
      exact ⟨fun hm => hsends (.inr hm), fun hnil => hout (.inl hnil), rfl, rfl⟩

theorem mark_ne {later : Int} {val : NodeValue} (h : val.zclSeqNum ≠ 0) :
    markConfigured later val ≠ val := by
  intro heq
  exact h (congrArg (·.zclSeqNum) heq).symm

section Confirmed

variable {node' : RestNode} (hnode : w.nodes[bt.restNode]? = some node)
  (hnodes : w'.nodes = w.nodes.set bt.restNode node')
  (hrec : Recorded now bt seq requests node node')

include hnode hnodes in
theorem node_after : w'.nodes[bt.restNode]? = some node' := by
  rw [hnodes, getElem?_set_self (List.getElem?_eq_some_iff.mp hnode).1]

include hnode hnodes hrec in
theorem sentFor_iff {i : Nat} : sentFor bt w' ⟨seq, requests⟩ bt.restNode i = true ↔ ∃ rq ∈
    requests, ref bt node rq = some i := by
  simp [sentFor, node_after hnode hnodes, ref_of_keys hrec.keys]

include hrec in
/-- A value of the frame has its number, and another is as it was. -/
theorem value_after {i : Nat} {val : NodeValue} (hval : node'.values[i]? = some val) :
    (∃ rq ∈ requests, ref bt node rq = some i) ∧ val.zclSeqNum = seq ∧ val.clusterId =
        bt.clusterId ∨
      (¬∃ rq ∈ requests, ref bt node rq = some i) ∧ node.values[i]? = some val := by
  by_cases h : ∃ rq ∈ requests, ref bt node rq = some i
  · obtain ⟨rq, hrq, hi⟩ := h
    obtain ⟨old, hold, hkey⟩ := ref_some hi
    have hset := hrec.set rq hrq i old hi hold
    obtain rfl : configured now seq rq old = val := some.inj (hset.symm.trans hval)
    exact .inl ⟨⟨rq, hrq, hi⟩, rfl, congrArg (·.2.1) hkey⟩
  · refine .inr ⟨h, ?_⟩
    rw [← hrec.kept i fun rq hrq hi => h ⟨rq, hrq, hi⟩]
    exact hval

variable (hmanaged : node.address ∉ w'.managed) (later : Int)

include hmanaged in
theorem valueAt_single (j i : Nat) :
    (handleZclConfigureReportingResponseIndication later
        (answer bt node.address ⟨seq, requests⟩ [0]) w').valueAt j i =
      (w'.valueAt j i).map fun val =>
        if w'.nodes.findIdx? (·.address == node.address) = some j ∧ val.zclSeqNum = seq ∧
            val.clusterId = bt.clusterId then markConfigured later val
        else val := by
  unfold handleZclConfigureReportingResponseIndication World.valueAt
  rw [if_neg (show (answer bt node.address ⟨seq, requests⟩ [0]).srcAddress ∉ w'.managed from
    hmanaged)]
  simp only [answer]
  cases w'.nodes.findIdx? (·.address == node.address) with
  | none => simp
  | some k =>
    simp only [getElem?_modify]
    by_cases hkj : k = j
    · subst hkj
      cases w'.nodes[k]? <;>
        simp [confirmAll, confirms]
    · cases w'.nodes[j]? <;> simp [hkj]

include hmanaged in
theorem valueAt_records (hseq : seq ≠ 0) {payload : List UInt8}
    (hpayload : payload ∈ (okPayloads ⟨seq, requests⟩).tail) {j i : Nat} {n : RestNode}
    (hn : w'.nodes[j]? = some n) {val : NodeValue} (hval : n.values[i]? = some val) :
    (handleZclConfigureReportingResponseIndication later
        (answer bt node.address ⟨seq, requests⟩ payload) w').valueAt j i =
      some (if n.address = node.address ∧ (∃ rq ∈ requests, ref bt n rq = some i) ∧ val.zclSeqNum =
          seq then markConfigured later val else val) := by
  obtain rfl := mem_singleton.mp hpayload
  have hrecords := records_okPayload requests
  unfold handleZclConfigureReportingResponseIndication World.valueAt
  rw [if_neg (show (answer bt node.address ⟨seq, requests⟩ _).srcAddress ∉ w'.managed from
    hmanaged)]
  split
  · rename_i status hsingle
    cases requests <;> cases hsingle
  · have hloop := @foldl_confirm bt n requests later node.address ⟨seq, requests⟩
      (requests.flatMap fun rq =>
        [0, rq.direction, .ofNat rq.attributeId.toNat, .ofNat (rq.attributeId.toNat / 256)])
      hseq i val hval
    simp only [answer] at hloop ⊢
    rw [getElem?_map, hn, map_some, bind_some]
    by_cases haddress : n.address = node.address
    · simp only [haddress, if_true, true_and, hrecords]
      exact hloop
    · simp only [haddress, if_false, false_and]
      exact hval

include hnode hnodes hrec in
theorem findIdx_after (address : UInt64) :
    w'.nodes.findIdx? (·.address == address) = w.nodes.findIdx? (·.address == address) := by
  have hfind (nodes : List RestNode) : nodes.findIdx? (·.address == address) =
      (nodes.map RestNode.address).findIdx? (· == address) := by
    rw [findIdx?_map]
    rfl
  obtain ⟨hlt, hget⟩ := List.getElem?_eq_some_iff.mp hnode
  have hlt' : bt.restNode < (w.nodes.map RestNode.address).length := by rwa [length_map]
  have haddress : node'.address = (w.nodes.map RestNode.address)[bt.restNode] := by
    rw [getElem_map, hget, hrec.address]
  rw [hfind, hfind, hnodes, map_set, haddress, set_getElem_self]

include hnode hnodes hrec hmanaged in
/-- A response is right about the values of the frame, whichever of its forms it has. -/
theorem confirmed_iff (hseq : seq ≠ 0) (hout : requests ≠ [])
    (hfound : ∀ rq ∈ requests, ref bt node rq ≠ none) :
    (∀ later, ∀ payload ∈ okPayloads ⟨seq, requests⟩, ∀ j i val, w'.valueAt j i = some val →
      (handleZclConfigureReportingResponseIndication later
          (answer bt node.address ⟨seq, requests⟩ payload) w').valueAt j i =
        some (if sentFor bt w' ⟨seq, requests⟩ j i then markConfigured later val else val)) ↔
      w.nodes.findIdx? (·.address == node.address) = some bt.restNode ∧
      (∀ i val, node.values[i]? = some val → val.zclSeqNum = seq → val.clusterId = bt.clusterId →
        ∃ rq ∈ requests, ref bt node rq = some i) ∧
      ∀ j twin, j ≠ bt.restNode → w.nodes[j]? = some twin → twin.address = node.address → ∀ rq ∈
        requests, ∀ i val, ref bt twin rq = some i → twin.values[i]? = some val → val.zclSeqNum ≠
          seq := by
  have hafter := node_after hnode hnodes
  have hother (j : Nat) (hj : j ≠ bt.restNode) : w'.nodes[j]? = w.nodes[j]? := by
    rw [hnodes, getElem?_set_ne hj.symm]
  have hnotSent (j i : Nat) (hj : j ≠ bt.restNode) : sentFor bt w' ⟨seq, requests⟩ j i = false := by
    simp [sentFor, hj]
  have hvalueAt (i : Nat) : w'.valueAt bt.restNode i = node'.values[i]? := by
    simp [World.valueAt, hafter]
  have hat := findIdx_after hnode hnodes hrec node.address
  have hsentFor {i : Nat} := @sentFor_iff now bt seq node requests w w' node' hnode hnodes hrec i
  constructor
  · intro h
    have hsingle (i : Nat) (val : NodeValue) (hval : node'.values[i]? = some val) :=
      h 0 [0] (by simp [okPayloads]) bt.restNode i val ((hvalueAt i).trans hval)
    simp only [valueAt_single hmanaged, hvalueAt, hat] at hsingle
    have hfirst : w.nodes.findIdx? (·.address == node.address) = some bt.restNode := by
      obtain ⟨rq, rest, hcons⟩ := exists_cons_of_ne_nil hout
      have hrq : rq ∈ requests := by simp [hcons]
      obtain ⟨i, hi⟩ := ne_none_iff_exists'.mp (hfound rq hrq)
      obtain ⟨old, hold, -⟩ := ref_some hi
      have hset := hrec.set rq hrq i old hi hold
      have hresult := hsingle i _ hset
      rw [hset, map_some, if_pos (hsentFor.mpr ⟨rq, hrq, hi⟩), Option.some.injEq] at hresult
      by_contra hnot
      rw [if_neg fun hc => hnot hc.1] at hresult
      exact mark_ne hseq hresult.symm
    refine ⟨hfirst, fun i val hval hnum hcluster => ?_, fun j twin hj htwin haddress rq hrq i val hi
      hval hnum => ?_⟩
    · by_contra hnone
      have hkept : node'.values[i]? = some val := by
        rw [hrec.kept i fun rq hrq hi => hnone ⟨rq, hrq, hi⟩, hval]
      have hresult := hsingle i val hkept
      rw [hkept, map_some, if_pos ⟨hfirst, hnum, hcluster⟩,
        if_neg fun hs => hnone (hsentFor.mp hs), Option.some.injEq] at hresult
      exact mark_ne (by rwa [hnum]) hresult
    · rw [← hother j hj] at htwin
      have hresult := h 0 _ (mem_of_mem_tail (mem_singleton_self _)) j i val
        (by simp [World.valueAt, htwin, hval])
      rw [valueAt_records hmanaged 0 hseq (mem_singleton_self _) htwin hval,
        if_pos ⟨haddress, ⟨rq, hrq, hi⟩, hnum⟩, hnotSent j i hj, Option.some.injEq] at hresult
      exact mark_ne (by rwa [hnum]) hresult
  · rintro ⟨hfirst, hfresh, htwins⟩ later payload hpayload j i val hval
    by_cases hj : j = bt.restNode
    · subst hj
      rw [hvalueAt] at hval
      rcases mem_cons.mp hpayload with rfl | hrecords
      · rw [valueAt_single hmanaged, hvalueAt, hval, map_some, hat]
        rcases value_after hrec hval with ⟨hsent, hnum, hcluster⟩ | ⟨hnot, hold⟩
        · rw [if_pos ⟨hfirst, hnum, hcluster⟩, if_pos (hsentFor.mpr hsent)]
        · rw [if_neg fun hc => hnot (hfresh i val hold hc.2.1 hc.2.2),
            if_neg fun hs => hnot (hsentFor.mp hs)]
      · rw [valueAt_records hmanaged later hseq hrecords hafter hval]
        simp only [ref_of_keys hrec.keys, hrec.address]
        rcases value_after hrec hval with ⟨hsent, hnum, hcluster⟩ | ⟨hnot, -⟩
        · rw [if_pos ⟨trivial, hsent, hnum⟩, if_pos (hsentFor.mpr hsent)]
        · rw [if_neg fun hc => hnot hc.2.1, if_neg fun hs => hnot (hsentFor.mp hs)]
    · rw [hnotSent j i hj]
      rcases mem_cons.mp hpayload with rfl | hrecords
      · rw [valueAt_single hmanaged, hval, map_some, hat, hfirst]
        rw [if_neg fun hc => hj (some.inj hc.1).symm]
        rfl
      · have hn := hval
        unfold World.valueAt at hn
        obtain ⟨n, hn, hget⟩ := bind_eq_some_iff.mp hn
        rw [valueAt_records hmanaged later hseq hrecords hn hget]
        rw [hother j hj] at hn
        rw [if_neg fun hc => ?_]
        · rfl
        · obtain ⟨haddress, ⟨rq, hrq, hi⟩, hnum⟩ := hc
          exact htwins j n hj hn haddress rq hrq i val hi hget hnum

end Confirmed

/-- **Report configuration bookkeeping.**  The callers ask for different attributes. -/
theorem bookkept_iff (hnode : w.nodes[bt.restNode]? = some node)
    (hdistinct : (requests.map (·.attributeId)).Nodup)
    (hsent : sendConfigureReportingRequest now bt enqueued w requests = (w', some sent)) :
    Bookkept bt node.address w' sent ↔ Clear now bt w node requests := by
  obtain ⟨hmanaged, hout, hnodes, rfl⟩ := send_some hnode hsent
  have hseq := nextSeq_ne w.zclSeq
  have hvalueAt (i : Nat) : w'.valueAt bt.restNode i =
      (takeAll now bt (nextSeq w.zclSeq) node requests).1.values[i]? := by
    rw [World.valueAt, node_after hnode hnodes, bind_some]
  constructor
  · intro h
    have hknown : ∀ rq ∈ included now bt node requests, ref bt node rq ≠ none := by
      intro rq hrq hnone
      obtain ⟨lost, hlost, hvalues⟩ :=
        unrecorded_takeAll hseq hdistinct ⟨rq, hrq, hnone⟩
      obtain ⟨i, val, hval, hkey, hnum, -⟩ := h.recorded lost hlost
      rw [hvalueAt] at hval
      exact hvalues val (mem_iff_getElem?.mpr ⟨i, hval⟩) hkey hnum
    obtain ⟨hsame, hrec⟩ :=
      @recorded_takeAll now bt (nextSeq w.zclSeq) node requests hdistinct hknown
    rw [hsame] at h hout
    obtain ⟨hfirst, hfresh, htwins⟩ :=
      (confirmed_iff hnode hnodes hrec hmanaged hseq hout hknown).mp h.confirmed
    exact ⟨hknown, hfirst, hfresh, htwins⟩
  · intro h
    obtain ⟨hsame, hrec⟩ :=
      @recorded_takeAll now bt (nextSeq w.zclSeq) node requests hdistinct h.known
    rw [hsame] at hout ⊢
    refine ⟨fun rq hrq => ?_, (confirmed_iff hnode hnodes hrec hmanaged hseq hout h.known).mpr
      ⟨h.first, h.fresh, h.twins⟩⟩
    obtain ⟨i, hi⟩ := ne_none_iff_exists'.mp (h.known rq hrq)
    obtain ⟨val, hval, hkey⟩ := ref_some hi
    exact ⟨i, _, (hvalueAt i).trans (hrec.set rq hrq i val hi hval), hkey, rfl, rfl, rfl⟩

/-! A sensor that has no value yet, and one that has. -/

def temperature : BindingTask :=
  { restNode := 0, srcEndpoint := 1, clusterId := 0x0402, endpoint_ne := by decide }

def everyFiveMinutes : ConfigureReportingRequest :=
  { attributeId := 0, minInterval := 10, maxInterval := 300 }

def joined : World := { nodes := [{ address := 1 }] }

def measuring : World :=
  let val : PollManager.NodeValue := { isValid := true, endpoint := 1, clusterId := 0x0402 }
  { nodes := [{ address := 1, values := [{ val with }] }] }

/-- The value is created, but sequence number and intervals go to `m_invalidValue`. -/
theorem created_value_not_stamped :
    (sendConfigureReportingRequest 0 temperature true joined [everyFiveMinutes]).2 =
        some ⟨1, [everyFiveMinutes]⟩ ∧
      ¬Bookkept temperature 1
        (sendConfigureReportingRequest 0 temperature true joined [everyFiveMinutes]).1
        ⟨1, [everyFiveMinutes]⟩ := by
  refine ⟨by decide, fun h => ?_⟩
  obtain ⟨i, val, hval, -, hnum, -⟩ := h.recorded everyFiveMinutes (by decide)
  cases i with
  | zero =>
    cases hval
    exact absurd hnum (by decide)
  | succ i => cases hval

theorem bookkept_iff_measuring :
    Bookkept temperature 1
        (sendConfigureReportingRequest 0 temperature true measuring [everyFiveMinutes]).1
        ⟨1, [everyFiveMinutes]⟩ ↔
      Clear 0 temperature measuring measuring.nodes[0] [everyFiveMinutes] :=
  @bookkept_iff 0 temperature measuring.nodes[0] [everyFiveMinutes] measuring _ _ true rfl
    (by decide) (by decide)

end Bookkeeping
end DeconzRest

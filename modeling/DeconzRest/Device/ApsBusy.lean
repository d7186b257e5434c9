import DeconzRest.Lib.Transition
import Mathlib.Algebra.Ring.Nat

/-!
# APS queue tracking

The running APS requests are kept in a table of 32 slots, and a counter beside it.  A
request that was never confirmed is dropped when the search for a free slot passes it.
-/

namespace DeconzRest

open Transition List

/-- `DA_ReqBusy`; a slot is free if `tref` is 0. -/
structure ReqBusy where
  dstExtAddr : UInt64 := 0
  tref : Int := 0
  clusterId : UInt16 := 0
  dstEndpoint : UInt8 := 0
  apsRequestId : UInt8 := 0
deriving DecidableEq, Repr

/-- What is read of a `deCONZ::ApsDataRequest`; the MAC address if `hasExt()`. -/
structure ApsDataRequest where
  id : UInt8
  ext : Option UInt64
  dstEndpoint : UInt8
  clusterId : UInt16
deriving DecidableEq, Repr

/-- What is read of a `deCONZ::ApsDataConfirm`; the MAC address if `hasExt()`. -/
structure ApsDataConfirm where
  id : UInt8
  ext : Option UInt64
  dstEndpoint : UInt8
deriving DecidableEq, Repr

inductive ApsCall where
  | enqueued (req : ApsDataRequest)
  | confirmed (conf : ApsDataConfirm)
deriving DecidableEq, Repr

structure ApsEvent where
  ref : Int
  call : ApsCall
deriving DecidableEq, Repr

/-- `APS_BUSY_TABLE_SIZE` -/
def apsBusyTableSize : Nat := 32

/-- `_DA_ApsUnconfirmedCount` and `_DA_BusyTable` -/
structure ApsBusy where
  count : Nat := 0
  table : List ReqBusy := List.replicate apsBusyTableSize {}
deriving DecidableEq, Repr

namespace ReqBusy

def occupied (e : ReqBusy) : Bool := decide (e.tref ≠ 0)

/-- The confirm timeout of 60 seconds has passed. -/
def stale (now : Int) (e : ReqBusy) : Bool := e.occupied && decide (60 < now - e.tref)

/-- The slot is neither free nor becomes free at this time. -/
def taken (now : Int) (e : ReqBusy) : Bool := e.occupied && !e.stale now

def ofRequest (now : Int) (req : ApsDataRequest) (ext : UInt64) : ReqBusy :=
  { dstExtAddr := ext, tref := now, clusterId := req.clusterId, dstEndpoint := req.dstEndpoint,
    apsRequestId := req.id }

def answeredBy (conf : ApsDataConfirm) (ext : UInt64) (e : ReqBusy) : Bool :=
  e.apsRequestId == conf.id && e.dstExtAddr == ext && e.dstEndpoint == conf.dstEndpoint

end ReqBusy

namespace ApsBusy

open ReqBusy

/-- `DA_ApsUnconfirmedRequests` -/
def apsUnconfirmedRequests (s : ApsBusy) : Nat := s.count

/-- The loop of `DA_ApsUnconfirmedRequestsForExtAddress`; it ends as soon as there is nothing
more to count. -/
def countForExtAddress (extAddr : UInt64) (total : Nat) : Nat → List ReqBusy → Nat
  | result, [] => result
  | result, e :: es =>
    let result := if e.occupied ∧ e.dstExtAddr = extAddr then result + 1 else result
    if result = total then result else countForExtAddress extAddr total result es

/-- `DA_ApsUnconfirmedRequestsForExtAddress` -/
def apsUnconfirmedRequestsForExtAddress (s : ApsBusy) (extAddr : UInt64) : Nat :=
  if s.count ≠ 0 then countForExtAddress extAddr s.count 0 s.table else 0

/-- `--` on an `unsigned` -/
def decrement (count : Nat) : Nat := (count + (2 ^ 32 - 1)) % 2 ^ 32

/-- The counter with one request less; the code asserts that it is not 0. -/
def oneLess (count : Nat) : Nat := if 0 < count then decrement count else count

/-- The counter with one more request; the code asserts that there is room. -/
def oneMore (count : Nat) : Nat := if count < apsBusyTableSize then count + 1 else count

/-- The loop of `DA_ApsRequestEnqueued` over the slots, with the counter. -/
def fillSlot (now : Int) (req : ApsDataRequest) (ext : UInt64) :
    Nat → List ReqBusy → Nat × List ReqBusy
  | count, [] => (count, [])
  | count, e :: es =>
    -- confirm timeout, should normally not happen
    let count' := if e.stale now then oneLess count else count
    let e' := if e.stale now then {} else e
    if e'.tref = 0 then (oneMore count', ofRequest now req ext :: es)
    else
      let rest := fillSlot now req ext count' es
      (rest.1, e' :: rest.2)

/-- `DA_ApsRequestEnqueued` -/
def apsRequestEnqueued (s : ApsBusy) (ref : Int) (req : ApsDataRequest) : ApsBusy :=
  match req.ext with
  | none => s
  | some ext =>
    let filled := fillSlot (ref / 1000) req ext s.count s.table
    { count := filled.1, table := filled.2 }

def clearSlot (conf : ApsDataConfirm) (ext : UInt64) : List ReqBusy → Option (List ReqBusy)
  | [] => none
  | e :: es => if e.answeredBy conf ext then some ({} :: es) else (clearSlot conf ext es).map (e :: ·)

/-- `DA_ApsRequestConfirmed` -/
def apsRequestConfirmed (s : ApsBusy) (conf : ApsDataConfirm) : ApsBusy :=
  match conf.ext with
  | none => s
  | some ext =>
    if s.count ≠ 0 then
      match clearSlot conf ext s.table with
      | none => s
      | some table => { count := decrement s.count, table := table }
    else
      s

def step (s : ApsBusy) (a : ApsEvent) : ApsBusy :=
  match a.call with
  | .enqueued req => s.apsRequestEnqueued a.ref req
  | .confirmed conf => s.apsRequestConfirmed conf

def callExt : ApsCall → Option UInt64
  | .enqueued req => req.ext
  | .confirmed conf => conf.ext

/-- The clock shows one second at least, and an address has a MAC address other than 0. -/
def Plausible (a : ApsEvent) : Prop := 1000 ≤ a.ref ∧ callExt a.call ≠ some 0

instance (a : ApsEvent) : Decidable (Plausible a) := inferInstanceAs (Decidable (_ ∧ _))

/-! ## The counter and the table -/

def occupiedSlots (s : ApsBusy) : Nat := s.table.countP occupied

/-- The counter is the number of occupied slots, and a free slot is empty. -/
structure Accounted (s : ApsBusy) : Prop where
  length : s.table.length = apsBusyTableSize
  count : s.count = s.occupiedSlots
  free : ∀ e ∈ s.table, e.occupied = false → e.dstExtAddr = 0

theorem accounted_init : Accounted {} where
  length := length_replicate
  count := by decide
  free := by
    intro e he _
    rw [eq_of_mem_replicate he]

theorem fillSlot_taken {now : Int} {req : ApsDataRequest} {ext : UInt64} {count : Nat}
    {e : ReqBusy} {es : List ReqBusy} (h : e.taken now = true) :
    fillSlot now req ext count (e :: es) =
      ((fillSlot now req ext count es).1, e :: (fillSlot now req ext count es).2) := by
  unfold taken at h
  rw [Bool.and_eq_true, Bool.not_eq_true'] at h
  obtain ⟨hoccupied, hstale⟩ := h
  have htref : e.tref ≠ 0 := of_decide_eq_true hoccupied
  rw [fillSlot]
  simp [hstale, htref]

theorem fillSlot_free {now : Int} {req : ApsDataRequest} {ext : UInt64} {count : Nat}
    {e : ReqBusy} {es : List ReqBusy} (h : e.occupied = false) :
    fillSlot now req ext count (e :: es) = (oneMore count, ofRequest now req ext :: es) := by
  have hstale : e.stale now = false := by
    unfold stale
    rw [h, Bool.false_and]
  have htref : e.tref = 0 := by
    unfold occupied at h
    simpa using h
  rw [fillSlot]
  simp [hstale, htref]

theorem fillSlot_stale {now : Int} {req : ApsDataRequest} {ext : UInt64} {count : Nat}
    {e : ReqBusy} {es : List ReqBusy} (h : e.stale now = true) :
    fillSlot now req ext count (e :: es) =
      (oneMore (oneLess count), ofRequest now req ext :: es) := by
  rw [fillSlot]
  simp [h]

theorem oneMore_of_lt {count : Nat} (h : count < apsBusyTableSize) : oneMore count = count + 1 :=
  if_pos h

theorem decrement_succ {count : Nat} (h : count < apsBusyTableSize) :
    decrement (count + 1) = count := by
  unfold apsBusyTableSize at h
  unfold decrement
  omega

theorem oneLess_succ {count : Nat} (h : count < apsBusyTableSize) :
    oneLess (count + 1) = count := by
  unfold oneLess
  rw [if_pos (by omega), decrement_succ h]

theorem taken_cases (now : Int) (e : ReqBusy) :
    e.taken now = true ∨ e.occupied = false ∨ (e.occupied = true ∧ e.stale now = true) := by
  cases hoccupied : e.occupied with
  | false => exact .inr (.inl rfl)
  | true =>
    cases hstale : e.stale now with
    | false =>
      refine .inl ?_
      unfold taken
      rw [hoccupied, hstale]
      rfl
    | true => exact .inr (.inr ⟨rfl, rfl⟩)

theorem occupied_of_taken {now : Int} {e : ReqBusy} (h : e.taken now = true) :
    e.occupied = true := by
  unfold taken at h
  rw [Bool.and_eq_true] at h
  exact h.1

theorem fillSlot_count {now : Int} {req : ApsDataRequest} {ext : UInt64} {others : Nat}
    {es : List ReqBusy} (hnow : now ≠ 0) (hsize : others + es.length ≤ apsBusyTableSize) :
    (fillSlot now req ext (others + es.countP occupied) es).1 = others +
      (fillSlot now req ext (others + es.countP occupied) es).2.countP occupied := by
  induction es generalizing others with
  | nil => rfl
  | cons e es ih =>
    have hfilled : (ofRequest now req ext).occupied = true := decide_eq_true hnow
    have hle : es.countP occupied ≤ es.length := countP_le_length
    rw [length_cons] at hsize
    rcases taken_cases now e with htaken | hfree | ⟨hoccupied, hstale⟩
    · have hoccupied := occupied_of_taken htaken
      have hrest := @ih (others + 1) (by omega)
      have hshift : others + (es.countP occupied + 1) = others + 1 + es.countP occupied := by
        omega
      rw [fillSlot_taken htaken, countP_cons_of_pos hoccupied, countP_cons_of_pos hoccupied, hshift]
      simp only
      omega
    · rw [fillSlot_free hfree, countP_cons_of_pos hfilled,
        countP_cons_of_neg (by rw [hfree]; decide), oneMore_of_lt (by omega),
        Nat.add_assoc]
    · rw [fillSlot_stale hstale, countP_cons_of_pos hfilled, countP_cons_of_pos hoccupied,
        ← Nat.add_assoc, oneLess_succ (by omega),
        oneMore_of_lt (by omega)]

theorem fillSlot_length (now : Int) (req : ApsDataRequest) (ext : UInt64) (count : Nat)
    (es : List ReqBusy) : (fillSlot now req ext count es).2.length = es.length := by
  induction es generalizing count with
  | nil => rfl
  | cons e es ih =>
    rcases taken_cases now e with htaken | hfree | ⟨-, hstale⟩
    · rw [fillSlot_taken htaken, length_cons, length_cons, ih]
    · rw [fillSlot_free hfree, length_cons, length_cons]
    · rw [fillSlot_stale hstale, length_cons, length_cons]

theorem fillSlot_table (now : Int) (req : ApsDataRequest) (ext : UInt64) (count : Nat)
    (es : List ReqBusy) :
    (fillSlot now req ext count es).2 =
      es.takeWhile (taken now) ++
        match es.dropWhile (taken now) with
        | [] => []
        | _ :: behind => ofRequest now req ext :: behind := by
  induction es generalizing count with
  | nil => rfl
  | cons e es ih =>
    rcases taken_cases now e with htaken | hfree | ⟨-, hstale⟩
    · rw [fillSlot_taken htaken, takeWhile_cons_of_pos htaken, dropWhile_cons_of_pos htaken, ih,
        cons_append]
    · have hnot : ¬ e.taken now = true := by
        intro htaken
        rw [occupied_of_taken htaken] at hfree
        cases hfree
      rw [fillSlot_free hfree, takeWhile_cons_of_neg hnot, dropWhile_cons_of_neg hnot]
      rfl
    · have hnot : ¬ e.taken now = true := by
        unfold taken
        rw [hstale]
        simp
      rw [fillSlot_stale hstale, takeWhile_cons_of_neg hnot, dropWhile_cons_of_neg hnot]
      rfl

theorem clearSlot_some {conf : ApsDataConfirm} {ext : UInt64} {es es' : List ReqBusy}
    (h : clearSlot conf ext es = some es') :
    ∃ front e back, es = front ++ e :: back ∧ e.answeredBy conf ext = true ∧ es' = front ++
      ({} : ReqBusy) :: back := by
  induction es generalizing es' with
  | nil => cases h
  | cons e es ih =>
    unfold clearSlot at h
    split at h
    · rename_i hanswered
      cases h
      exact ⟨[], e, es, rfl, hanswered, rfl⟩
    · obtain ⟨rest, hrest, rfl⟩ := Option.map_eq_some_iff.mp h
      obtain ⟨front, f, back, hes, hanswered, rfl⟩ := ih hrest
      refine ⟨e :: front, f, back, ?_, hanswered, rfl⟩
      rw [hes]
      rfl

theorem accounted_enqueued {s : ApsBusy} (h : Accounted s) {ref : Int} (href : 1000 ≤ ref)
    (req : ApsDataRequest) : Accounted (s.apsRequestEnqueued ref req) := by
  unfold apsRequestEnqueued
  cases hext : req.ext with
  | none => exact h
  | some ext =>
    have hnow : ref / 1000 ≠ 0 := by omega
    refine ⟨?_, ?_, ?_⟩
    · exact (fillSlot_length _ _ _ _ _).trans h.length
    · have hsize : 0 + s.table.length ≤ apsBusyTableSize :=
        Nat.le_of_eq ((Nat.zero_add _).trans h.length)
      have hcount := @fillSlot_count _ req ext 0 s.table hnow hsize
      rw [Nat.zero_add, Nat.zero_add, ← occupiedSlots, ← h.count] at hcount
      exact hcount
    · intro e he hfree
      simp only at he
      rw [fillSlot_table] at he
      rcases mem_append.mp he with hfront | hback
      · exact h.free e ((takeWhile_sublist _).mem hfront) hfree
      · split at hback
        · cases hback
        · rename_i first behind hrest
          rcases mem_cons.mp hback with rfl | hbehind
          · exact absurd hfree (by simp [occupied, ofRequest, hnow])
          · refine h.free e ?_ hfree
            have hmem : e ∈ s.table.dropWhile (taken (ref / 1000)) := by
              rw [hrest]
              exact mem_cons_of_mem first hbehind
            exact (dropWhile_sublist _).mem hmem

theorem accounted_confirmed {s : ApsBusy} (h : Accounted s) {conf : ApsDataConfirm}
    (hconf : conf.ext ≠ some 0) : Accounted (s.apsRequestConfirmed conf) := by
  unfold apsRequestConfirmed
  cases hext : conf.ext with
  | none => exact h
  | some ext =>
    simp only
    by_cases hzero : s.count = 0
    · rw [if_neg (not_not.mpr hzero)]
      exact h
    rw [if_pos hzero]
    cases hclear : clearSlot conf ext s.table with
    | none => exact h
    | some table =>
      obtain ⟨front, e, back, htable, hanswered, rfl⟩ := clearSlot_some hclear
      -- the address of the slot is not 0, so the slot is not a free one
      have hoccupied : e.occupied = true := by
        by_contra hfree
        have haddress := h.free e (by rw [htable]; simp) (by simpa using hfree)
        unfold answeredBy at hanswered
        simp only [Bool.and_eq_true, beq_iff_eq] at hanswered
        rw [← hanswered.1.2, haddress] at hext
        exact hconf hext
      have hcount := h.count
      have hlength := h.length
      unfold occupiedSlots at hcount
      rw [htable, countP_append, countP_cons_of_pos hoccupied] at hcount
      rw [htable, List.length_append, length_cons] at hlength
      have hfront : front.countP occupied ≤ front.length := countP_le_length
      have hback : back.countP occupied ≤ back.length := countP_le_length
      refine ⟨?_, ?_, ?_⟩
      · simp only
        rw [List.length_append, length_cons]
        exact hlength
      · unfold occupiedSlots
        simp only
        rw [hcount, ← Nat.add_assoc, decrement_succ (by omega), countP_append,
          countP_cons_of_neg (by decide)]
      · intro f hf hfree
        rcases mem_append.mp hf with hf | hf
        · exact h.free f (by rw [htable]; exact mem_append_left _ hf) hfree
        · rcases mem_cons.mp hf with rfl | hf
          · rfl
          · refine h.free f ?_ hfree
            rw [htable]
            exact mem_append_right _ (mem_cons_of_mem e hf)

/-- **The step lemma.** -/
theorem accounted_step {s : ApsBusy} {a : ApsEvent} (ha : Plausible a) (h : Accounted s) :
    Accounted (s.step a) := by
  obtain ⟨href, hext⟩ := ha
  unfold step
  cases hcall : a.call with
  | enqueued req => exact accounted_enqueued h href req
  | confirmed conf =>
    rw [hcall] at hext
    exact accounted_confirmed h hext

/-- **The run lemma.** -/
theorem accounted_run {acts : List ApsEvent} (h : ∀ a ∈ acts, Plausible a) :
    Accounted (run step {} acts) := by
  have hall : Transition.AllSteps step (fun _ a => Plausible a) {} acts :=
    fun k hk => h _ (getElem_mem hk)
  exact run_invariant_of (fun _ _ ha hs => accounted_step ha hs) accounted_init hall

def slotsForExtAddress (s : ApsBusy) (extAddr : UInt64) : Nat :=
  s.table.countP fun e => e.occupied && decide (e.dstExtAddr = extAddr)

theorem countForExtAddress_eq {extAddr : UInt64} {total result : Nat} {es : List ReqBusy}
    (h : result + es.countP occupied ≤ total) :
    countForExtAddress extAddr total result es =
      result + es.countP fun e => e.occupied && decide (e.dstExtAddr = extAddr) := by
  have hfewer : ∀ es : List ReqBusy,
      (es.countP fun e => e.occupied && decide (e.dstExtAddr = extAddr)) ≤ es.countP occupied := by
    intro es
    apply countP_mono_left
    intro e _ he
    rw [Bool.and_eq_true] at he
    exact he.1
  induction es generalizing result with
  | nil => rfl
  | cons e es ih =>
    have hes := hfewer es
    rw [countForExtAddress]
    by_cases hmatch : e.occupied = true ∧ e.dstExtAddr = extAddr
    · rw [countP_cons_of_pos hmatch.1] at h
      rw [if_pos hmatch, countP_cons_of_pos (by simp [hmatch])]
      split
      · omega
      · rw [ih (by omega)]
        omega
    · have hmono : es.countP occupied ≤ (e :: es).countP occupied := by
        rw [countP_cons]
        omega
      rw [if_neg hmatch, countP_cons_of_neg (by simpa using hmatch)]
      split
      · omega
      · rw [ih (by omega)]

/-- **The counter is the number of occupied slots**, and so are the counts per address. -/
theorem busy_accounting {acts : List ApsEvent} (h : ∀ a ∈ acts, Plausible a) :
    (run step {} acts).count = (run step {} acts).occupiedSlots ∧ (run step {} acts).count ≤
      apsBusyTableSize ∧
      ∀ extAddr, (run step {} acts).apsUnconfirmedRequestsForExtAddress extAddr =
        (run step {} acts).slotsForExtAddress extAddr := by
  have hacc := accounted_run h
  generalize run step {} acts = s at hacc
  refine ⟨hacc.count, ?_, ?_⟩
  · rw [hacc.count, ← hacc.length]
    exact countP_le_length
  · intro extAddr
    have hcount := @countForExtAddress_eq extAddr s.count 0 s.table
      (by rw [Nat.zero_add, hacc.count]; exact Nat.le_refl _)
    unfold apsUnconfirmedRequestsForExtAddress slotsForExtAddress
    by_cases hzero : s.count = 0
    · rw [if_neg (not_not.mpr hzero)]
      -- nothing is occupied
      have hnone : s.table.countP occupied = 0 := by
        have hcount := hacc.count
        unfold occupiedSlots at hcount
        omega
      rw [countP_eq_zero] at hnone
      symm
      rw [countP_eq_zero]
      intro e he
      have hfree := hnone e he
      simp [hfree]
    · rw [if_pos hzero, hcount, Nat.zero_add]

def requestTo (ext : UInt64) (id : UInt8) : ApsDataRequest :=
  { id := id, ext := some ext, dstEndpoint := 1, clusterId := 6 }

/-- Two requests with one id, a confirm that comes twice, and one that nobody asked for. -/
def repeated : List ApsEvent :=
  [⟨1000, .enqueued (requestTo 7 1)⟩, ⟨2000, .enqueued (requestTo 7 1)⟩,
    ⟨2500, .enqueued (requestTo 9 2)⟩,
    ⟨3000, .confirmed { id := 1, ext := some 7, dstEndpoint := 1 }⟩,
    ⟨3000, .confirmed { id := 8, ext := some 7, dstEndpoint := 1 }⟩]

theorem busy_accounting_repeated :
    (run step {} repeated).count = (run step {} repeated).occupiedSlots ∧
      (run step {} repeated).count = 2 ∧
      (run step {} repeated).apsUnconfirmedRequestsForExtAddress 7 =
        (run step {} repeated).slotsForExtAddress 7 := by
  have hplausible : ∀ a ∈ repeated, Plausible a := by decide
  obtain ⟨hcount, -, haddress⟩ := busy_accounting hplausible
  exact ⟨hcount, by decide +kernel, haddress 7⟩

/-! ## Requests that were never confirmed -/

/-- The slots behind the first one that is not taken: the search for a free slot does not
get there. -/
def behindFreeSlot (s : ApsBusy) (now : Int) : List ReqBusy :=
  (s.table.dropWhile (taken now)).tail

def OnlyRecent (s : ApsBusy) (now : Int) : Prop :=
  s.apsUnconfirmedRequests = s.table.countP (taken now)

theorem countP_occupied (now : Int) (es : List ReqBusy) :
    es.countP occupied = es.countP (taken now) + es.countP (stale now) := by
  induction es with
  | nil => rfl
  | cons e es ih =>
    rw [countP_cons, countP_cons, countP_cons, ih]
    unfold taken stale
    cases e.occupied with
    | false =>
      simp only [Bool.false_and, Bool.false_eq_true, if_false]
      omega
    | true =>
      cases decide (60 < now - e.tref) with
      | false => simp; omega
      | true => simp; omega

theorem onlyRecent_iff {s : ApsBusy} (h : Accounted s) (now : Int) :
    s.OnlyRecent now ↔ ∀ e ∈ s.table, e.stale now = false := by
  unfold OnlyRecent apsUnconfirmedRequests
  rw [h.count, occupiedSlots, countP_occupied now, Nat.add_eq_left, countP_eq_zero]
  simp only [Bool.not_eq_true]

theorem stale_fillSlot {now : Int} {req : ApsDataRequest} {ext : UInt64} {count : Nat}
    {es : List ReqBusy} :
    (∀ e ∈ (fillSlot now req ext count es).2, e.stale now = false) ↔ ∀ e ∈
      (es.dropWhile (taken now)).tail, e.stale now = false := by
  have hpassed : ∀ e ∈ es.takeWhile (taken now), e.stale now = false := by
    intro e he
    have htaken := all_eq_true.mp all_takeWhile e he
    unfold taken at htaken
    rw [Bool.and_eq_true, Bool.not_eq_true'] at htaken
    exact htaken.2
  have hfilled : (ofRequest now req ext).stale now = false := by
    unfold stale ofRequest
    simp
  rw [fillSlot_table]
  cases es.dropWhile (taken now) with
  | nil => simpa using hpassed
  | cons first behind =>
    simp only [tail_cons, mem_append, mem_cons]
    constructor
    · exact fun h e he => h e (.inr (.inr he))
    · rintro h e (he | rfl | he)
      · exact hpassed e he
      · exact hfilled
      · exact h e he

/-- **Which requests that were never confirmed are still counted**: those behind the first
slot that was free, or that became free. -/
theorem onlyRecent_enqueued_iff {acts : List ApsEvent} (h : ∀ a ∈ acts, Plausible a) {ref : Int}
    (href : 1000 ≤ ref) {req : ApsDataRequest} {ext : UInt64} (hext : req.ext = some ext) :
    ((run step {} acts).apsRequestEnqueued ref req).OnlyRecent (ref / 1000) ↔ ∀ e ∈
      (run step {} acts).behindFreeSlot (ref / 1000), e.stale (ref / 1000) = false := by
  have hacc := accounted_enqueued (accounted_run h) href req
  rw [onlyRecent_iff hacc]
  unfold apsRequestEnqueued behindFreeSlot
  rw [hext]
  exact stale_fillSlot

def unconfirmedTwice : List ApsEvent :=
  [⟨1000, .enqueued (requestTo 7 1)⟩, ⟨2000, .enqueued (requestTo 9 2)⟩]

/-- Two minutes later only the first of them is dropped. -/
theorem unconfirmedTwice_counted :
    ¬ ((run step {} unconfirmedTwice).apsRequestEnqueued 120000
      (requestTo 7 3)).OnlyRecent 120 := by
  unfold OnlyRecent
  decide +kernel

theorem onlyRecent_enqueued_unconfirmedOnce :
    ((run step {} (unconfirmedTwice.take 1)).apsRequestEnqueued 120000
      (requestTo 7 3)).OnlyRecent 120 := by
  have hplausible : ∀ a ∈ unconfirmedTwice.take 1, Plausible a := by decide
  have href : (1000 : Int) ≤ 120000 := by decide
  have hext : (requestTo 7 3).ext = some 7 := rfl
  exact (onlyRecent_enqueued_iff hplausible href hext).mpr (by decide +kernel)

end ApsBusy
end DeconzRest

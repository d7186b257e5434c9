import DeconzRest.Device.Verified

/-!
# A state change is retried until its time is up

A tick that is due calls the change function, or it reads an item for which the device has
sent nothing yet, or it is `Stuck`: it wants to read and nothing is left to be read, because
a report came in while the queue was busy.  A stuck tick ends the state change before its
time.  Runs without such ticks fail only when the time is up, and when the device answers
what is read, the change function is called within as many due ticks as there are items
(`retried_iff_never_stuck`).
-/

namespace DeconzRest
namespace StateChange

open Transition List

variable {D : Type}

/-- The device has sent a value for every item since the change function was called, but
not all targets, while the state change waited for the queue in order to read one. -/
def Stuck (c : StateChange D) (t : Tick) : Prop :=
  c.state = .read ∧ ¬ c.TimeUp t.now ∧ t.unconfirmed ≤ 5 ∧ t.unconfirmedFor = 0 ∧
    c.items.find? unanswered = none

def NotStuck (c : StateChange D) : StateChangeAction D → Prop
  | .tick t => ¬ Stuck c t
  | .verify _ => True

/-- Every item exists on the resource and has a read function. -/
def Readable (c : StateChange D) (acts : List (StateChangeAction D)) : Prop :=
  ∀ t, .tick t ∈ acts → ∀ target ∈ c.targets, ∃ isEnqueued, t.read target.1 = .called isEnqueued

/-- Nothing keeps the tick from acting: neither the time limit, the load of the queue nor
the state timeout. -/
def Due (c : StateChange D) : StateChangeAction D → Prop
  | .tick t =>
    c.Live ∧ ¬ c.TimeUp t.now ∧ t.unconfirmed ≤ 5 ∧ t.unconfirmedFor = 0 ∧
      (c.state = .waitSync → c.stateTimeoutMs < t.now - c.stateTimer)
  | .verify _ => False

instance (c : StateChange D) (a : StateChangeAction D) : Decidable (NotStuck c a) :=
  match a with
  | .tick _ => inferInstanceAs (Decidable (¬ (_ ∧ _)))
  | .verify _ => inferInstanceAs (Decidable True)

instance (c : StateChange D) : Decidable c.Live := inferInstanceAs (Decidable (_ ∧ _))

instance (c : StateChange D) (a : StateChangeAction D) : Decidable (Due c a) :=
  match a with
  | .tick _ => inferInstanceAs (Decidable (_ ∧ _))
  | .verify _ => inferInstanceAs (Decidable False)

def CallsFunction (c : StateChange D) (a : StateChangeAction D) : Prop :=
  ∃ result, sent c a = .function result

variable (qt : Qt D)

def dueTicks : StateChange D → List (StateChangeAction D) → Nat
  | _, [] => 0
  | c, a :: acts => (if Due c a then 1 else 0) + dueTicks (step qt c a) acts

/-- The item that was read last, as long as the device has not sent a value for it. -/
def awaitedAfter (awaited : Option String) (c : StateChange D) (a : StateChangeAction D) :
    Option String :=
  match a with
  | .tick _ =>
    match sent c a with
    | .read suffix _ => some suffix
    | _ => awaited
  | .verify item =>
    if item.valueSource = .device ∧ awaited = some item.suffix then none else awaited

/-- The device answers: no tick is due while a value is awaited. -/
def Answers : Option String → StateChange D → List (StateChangeAction D) → Prop
  | _, _, [] => True
  | awaited, c, a :: acts =>
    (Due c a → awaited = none) ∧ Answers (awaitedAfter awaited c a) (step qt c a) acts

/-- The device reports another value than the target of some item. -/
def Differs (c : StateChange D) (item : ItemValue D) : Prop :=
  item.valueSource = .device ∧ ∃ target ∈ c.targets, target.1 = item.suffix ∧
    qt.eqv target.2 item.value = false

/-- What a robust state change does along a run. -/
structure Retried (c : StateChange D) (acts : List (StateChangeAction D)) : Prop where
  /-- It fails only when its time is up. -/
  failed_late : ∀ front a back, acts = front ++ a :: back → (run (step qt) c front).state ≠
    .failed →
    (run (step qt) c (front ++ [a])).state = .failed →
    ∃ t, a = .tick t ∧ c.TimeUp t.now
  /-- A tick that is due calls the change function or reads an item without an answer. -/
  acts_when_due : ∀ front a back, acts = front ++ a :: back → Due (run (step qt) c front) a →
    CallsFunction (run (step qt) c front) a ∨ ∃ i ∈ (run (step qt) c front).items, unanswered i =
      true ∧ ∃ isEnqueued, sent (run (step qt) c front) a = .read i.suffix isEnqueued
  /-- After another value was reported, the change function is called again, at the latest
  when as many ticks were due as there are items. -/
  called_again : ∀ front item mid back, acts = front ++ .verify item :: mid ++ back →
    Differs qt c item →
    Answers qt none (run (step qt) c (front ++ [.verify item])) mid →
    c.items.length ≤ dueTicks qt (run (step qt) c (front ++ [.verify item])) mid →
    ∃ xs a ys, mid = xs ++ a :: ys ∧ CallsFunction (run (step qt) c (front ++ .verify item :: xs)) a

/-! ## One tick -/

variable {qt}

variable {c : StateChange D} {t : Tick}

theorem stuck_of_find?_eq_none (htime : ¬ c.TimeUp t.now) (hfree : t.unconfirmed ≤ 5)
    (hstate : (c.leaveWaitSync t.now).state = .read) (hfor : t.unconfirmedFor = 0)
    (h : c.items.find? unanswered = none) : Stuck c t := by
  refine ⟨?_, htime, hfree, hfor, h⟩
  have hnone : c.items.any unanswered = false := by
    rw [any_eq_false]
    exact List.find?_eq_none.mp h
  unfold leaveWaitSync at hstate
  split at hstate
  · rw [hnone] at hstate
    cases hstate
  · exact hstate

theorem not_unreadable
    (hread : ∀ target ∈ c.targets, ∃ isEnqueued, t.read target.1 = .called isEnqueued)
    {i : TargetItem D} (h : c.items.find? unanswered = some i) :
    ¬ (t.read i.suffix = .noItem ∨ t.read i.suffix = .noFunction) := by
  obtain ⟨isEnqueued, hcalled⟩ := hread _ (mem_map_of_mem (mem_of_find?_eq_some h))
  rw [hcalled]
  simp

/-- **When a tick fails.** -/
theorem failed_iff (hlive : c.Live)
    (hread : ∀ target ∈ c.targets, ∃ isEnqueued, t.read target.1 = .called isEnqueued) :
    (c.tick t).1.state = .failed ↔ c.TimeUp t.now ∨ Stuck c t := by
  have hlive' := leaveWaitSync_live hlive t.now
  have houtcome := tick_outcome c t
  generalize c.tick t = outcome at houtcome
  constructor
  · intro hfailed
    cases houtcome with
    | ended hended => exact absurd hlive hended
    | timeUp _ htime => exact .inl htime
    | waits => exact absurd hfailed hlive'.2
    | refused => exact absurd hfailed hlive'.2
    | calls | reads => cases hfailed
    | stuck _ htime hfree hstate hfor hnone =>
      exact .inr (stuck_of_find?_eq_none htime hfree hstate hfor hnone)
    | unreadable _ _ _ _ _ hfind hmissing =>
      exact absurd hmissing (not_unreadable hread hfind)
  · intro h
    have htime : ¬ c.TimeUp t.now → Stuck c t := fun hnot => h.resolve_left hnot
    have hsame : ¬ c.TimeUp t.now → c.leaveWaitSync t.now = c := by
      intro hnot
      unfold leaveWaitSync
      rw [if_neg]
      rintro ⟨hwait, -⟩
      rw [(htime hnot).1] at hwait
      cases hwait
    cases houtcome with
    | ended hended => exact absurd hlive hended
    | timeUp | stuck | unreadable => rfl
    | waits _ hnot hidle =>
      obtain ⟨hstate, -, hfree, hfor, -⟩ := htime hnot
      rw [hsame hnot, hstate] at hidle
      rcases hidle with hbusy | hwait | ⟨-, hother⟩
      · omega
      · cases hwait
      · exact absurd hfor hother
    | calls _ hnot _ hstate =>
      rw [hsame hnot, (htime hnot).1] at hstate
      cases hstate
    | refused _ hnot _ hstate =>
      rw [hsame hnot, (htime hnot).1] at hstate
      cases hstate
    | reads _ hnot _ _ _ hfind =>
      rw [(htime hnot).2.2.2.2] at hfind
      cases hfind

theorem due_of_reads (hlive : c.Live) (htime : ¬ c.TimeUp t.now) (hfree : t.unconfirmed ≤ 5)
    (hfor : t.unconfirmedFor = 0) (hstate : (c.leaveWaitSync t.now).state ≠ .waitSync) :
    Due c (.tick t) := by
  refine ⟨hlive, htime, hfree, hfor, fun hwait => ?_⟩
  by_contra hearly
  apply hstate
  unfold leaveWaitSync
  rw [if_neg (fun h => hearly h.2)]
  exact hwait

theorem not_due_of_waits
    (h : 5 < t.unconfirmed ∨ (c.leaveWaitSync t.now).state = .waitSync ∨
      ((c.leaveWaitSync t.now).state = .read ∧ t.unconfirmedFor ≠ 0))
    : ¬ Due c (.tick t) := by
  rintro ⟨-, -, hfree, hfor, htimeout⟩
  rcases h with hbusy | hwait | ⟨-, hother⟩
  · omega
  · unfold leaveWaitSync at hwait
    split at hwait
    · -- `StateWaitSync` was left
      split at hwait
      · cases hwait
      · cases hwait
    · rename_i hstays
      exact hstays ⟨hwait, htimeout hwait⟩
  · exact hother hfor

/-! ## The items that are still to be read -/

/-- The device has sent nothing for the item and the item is not the one read last. -/
def unread (awaited : Option String) (i : TargetItem D) : Bool :=
  unanswered i && decide (awaited ≠ some i.suffix)

def unreadItems (awaited : Option String) (c : StateChange D) : Nat :=
  c.items.countP (unread awaited)

theorem unread_read {items : List (TargetItem D)} {i : TargetItem D}
    (h : items.find? unanswered = some i) :
    1 + items.countP (unread (some i.suffix)) ≤ items.countP (unread none) := by
  obtain ⟨hunanswered, xs, ys, hitems, -⟩ := List.find?_eq_some_iff_append.mp h
  have hnone : unread none i = true := by
    unfold unread
    rw [hunanswered]
    rfl
  have hread : unread (some i.suffix) i = false := by
    unfold unread
    simp
  -- awaiting an item only takes items away
  have hfewer : ∀ zs : List (TargetItem D), zs.countP (unread (some i.suffix)) ≤
      zs.countP (unread none) := by
    intro zs
    apply countP_mono_left
    intro j _ hj
    unfold unread at hj ⊢
    simp_all
  have hxs := hfewer xs
  have hys := hfewer ys
  rw [hitems, countP_append, countP_append, countP_cons_of_pos hnone,
    countP_cons_of_neg (by rw [hread]; decide)]
  omega

theorem awaitedAfter_verify (awaited : Option String) (c : StateChange D) (item : ItemValue D) :
    awaitedAfter awaited c (.verify item) = if item.valueSource = .device ∧ awaited =
      some item.suffix then none else awaited := rfl

theorem unread_verify (awaited : Option String) (c : StateChange D) (item : ItemValue D) :
    unreadItems (awaitedAfter awaited c (.verify item)) (verifyItemChange qt c item) ≤
      unreadItems awaited c := by
  have hcount : item.valueSource = .device →
      (c.items.map (verify qt item)).countP (unread (awaitedAfter awaited c (.verify item))) ≤
        c.items.countP (unread awaited) := by
    intro hsource
    rw [countP_map]
    apply countP_mono_left
    intro i _ hi
    rw [Function.comp_apply] at hi
    unfold verify at hi
    by_cases hsuffix : i.suffix = item.suffix
    · -- the flag is set now
      rw [if_pos hsuffix] at hi
      unfold unread unanswered at hi
      split at hi
      · simp at hi
      · simp at hi
    · -- the value of another item leaves the awaited one awaited
      rw [if_neg hsuffix] at hi
      unfold unread at hi ⊢
      rw [Bool.and_eq_true, decide_eq_true_iff] at hi ⊢
      refine ⟨hi.1, ?_⟩
      rintro rfl
      apply hi.2
      rw [awaitedAfter_verify, if_neg]
      rintro ⟨-, hsame⟩
      exact hsuffix (Option.some.inj hsame)
  unfold unreadItems verifyItemChange
  by_cases hsource : item.valueSource = .device
  · rw [if_neg (not_not.mpr hsource)]
    simp only
    split
    · exact hcount hsource
    · exact hcount hsource
  · have hsame : awaitedAfter awaited c (.verify item) = awaited := by
      rw [awaitedAfter_verify, if_neg (fun h => hsource h.1)]
    simp only [if_pos hsource, hsame, Nat.le_refl]

variable {a : StateChangeAction D}

/-- **The step lemma.**  A call that does not call the change function leaves no more items
to be read, and one less if it is a tick that is due. -/
theorem unreadItems_step (qt : Qt D) {awaited : Option String} (hread : Readable c [a])
    (hstuck : NotStuck c a) (hquiet : ¬ CallsFunction c a) (hanswers : Due c a → awaited = none) :
    (if Due c a then 1 else 0) + unreadItems (awaitedAfter awaited c a) (step qt c a) ≤
      unreadItems awaited c := by
  cases a with
  | verify item =>
    rw [if_neg (fun h : Due c (.verify item) => h)]
    rw [Nat.zero_add]
    exact unread_verify awaited c item
  | tick t =>
    have hitems := items_leaveWaitSync c t.now
    have houtcome := tick_outcome c t
    unfold CallsFunction sent at hquiet
    unfold step awaitedAfter sent unreadItems
    simp only at hquiet ⊢
    generalize c.tick t = outcome at houtcome hquiet ⊢
    cases houtcome with
    | ended hended =>
      rw [if_neg (fun h : Due c (.tick t) => hended h.1)]
      simp only
      omega
    | timeUp _ htime =>
      rw [if_neg (fun h : Due c (.tick t) => h.2.1 htime)]
      simp only
      rw [hitems]
      omega
    | waits _ _ hidle =>
      rw [if_neg (not_due_of_waits hidle)]
      simp only
      rw [hitems]
      omega
    | calls => exact absurd ⟨_, rfl⟩ hquiet
    | refused => exact absurd ⟨_, rfl⟩ hquiet
    | stuck _ htime hfree hstate hfor hnone =>
      exact absurd (stuck_of_find?_eq_none htime hfree hstate hfor hnone) hstuck
    | unreadable _ _ _ _ _ hfind hmissing =>
      exact absurd hmissing (not_unreadable (hread t mem_cons_self) hfind)
    | reads hlive htime hfree hstate hfor hfind =>
      -- no item is awaited, so each unanswered one counts before it is read
      have hdue := due_of_reads hlive htime hfree hfor (by rw [hstate]; decide)
      rw [if_pos hdue, hanswers hdue]
      simp only
      rw [hitems]
      exact unread_read hfind

/-! ## Runs -/

theorem readable_cons (qt : Qt D) {acts : List (StateChangeAction D)} (h : Readable c (a :: acts)) :
    Readable c [a] ∧ Readable (step qt c a) acts := by
  constructor
  · intro t ht
    exact h t (mem_cons.mpr (.inl (mem_singleton.mp ht)))
  · intro t ht
    rw [(frame_step qt c a).targets]
    exact h t (mem_cons_of_mem a ht)

theorem readable_append (qt : Qt D) {xs ys : List (StateChangeAction D)} (h : Readable c (xs ++ ys))
    : Readable (run (step qt) c xs) ys := by
  induction xs generalizing c with
  | nil => exact h
  | cons a xs ih => exact ih (readable_cons qt h).2

/-- **The run lemma.**  Until the change function is called, there are at most as many ticks
that are due as there are items to be read. -/
theorem called_or_few {awaited : Option String} {acts : List (StateChangeAction D)}
    (hread : Readable c acts) (hstuck : Transition.AllSteps (step qt) NotStuck c acts)
    (h : Answers qt awaited c acts) :
    (∃ xs a ys, acts = xs ++ a :: ys ∧ CallsFunction (run (step qt) c xs) a) ∨ dueTicks qt c acts ≤
      unreadItems awaited c := by
  induction acts generalizing awaited c with
  | nil => exact .inr (Nat.zero_le _)
  | cons a acts ih =>
    obtain ⟨hfirst, hrest⟩ := allSteps_cons hstuck
    obtain ⟨hreadFirst, hreadRest⟩ := readable_cons qt hread
    by_cases hcalls : CallsFunction c a
    · exact .inl ⟨[], a, acts, rfl, hcalls⟩
    -- a call of the rest is one of the whole run
    rcases ih hreadRest hrest h.2 with ⟨xs, b, ys, hacts, hb⟩ | hfew
    · refine .inl ⟨a :: xs, b, ys, ?_, hb⟩
      rw [hacts]
      rfl
    · have hstep := unreadItems_step qt hreadFirst hfirst hcalls h.1
      refine .inr ?_
      unfold dueTicks
      omega

theorem unreadItems_differs {item : ItemValue D} (h : Differs qt c item) :
    unreadItems none (step qt c (.verify item)) < c.items.length := by
  obtain ⟨hsource, target, htarget, hsuffix, -⟩ := h
  obtain ⟨i, hi, rfl⟩ := mem_map.mp htarget
  have hitems : (step qt c (.verify item)).items = c.items.map (verify qt item) := by
    unfold step verifyItemChange
    simp only
    rw [if_neg (not_not.mpr hsource)]
    split <;> rfl
  have hflag : unread none (verify qt item i) = false := by
    unfold unread unanswered verify
    rw [if_pos hsuffix]
    split
    · simp
    · simp
  unfold unreadItems
  rw [hitems, countP_map]
  apply Nat.lt_of_le_of_ne countP_le_length
  intro hall
  have hone := countP_eq_length.mp hall i hi
  rw [Function.comp_apply, hflag] at hone
  cases hone

theorem timeUp_run (qt : Qt D) (acts : List (StateChangeAction D)) (now : Int) :
    (run (step qt) c acts).TimeUp now ↔ c.TimeUp now := by
  have hframe : Frame c (run (step qt) c acts) :=
    run_invariant (fun s a h => h.trans (frame_step qt s a)) (Frame.refl c) acts
  unfold TimeUp
  rw [hframe.changeTimeoutMs, hframe.changeTimer]

theorem tick_of_failed (h : c.state ≠ .failed) (h' : (step qt c a).state = .failed) :
    c.Live ∧ ∃ t, a = .tick t := by
  cases a with
  | tick t =>
    refine ⟨⟨fun hfinished => ?_, h⟩, t, rfl⟩
    have hended : c.tick t = (c, .nothing) := by
      unfold tick
      exact if_pos (.inl hfinished)
    unfold step at h'
    simp only at h'
    rw [hended] at h'
    exact h h'
  | verify item =>
    unfold step verifyItemChange at h'
    simp only at h'
    split at h'
    · exact absurd h' h
    · split at h'
      · cases h'
      · exact absurd h' h

theorem acts_of_due (hread : Readable c [a]) (hstuck : NotStuck c a) (hdue : Due c a) :
    CallsFunction c a ∨ ∃ i ∈ c.items, unanswered i = true ∧ ∃ isEnqueued, sent c a =
      .read i.suffix isEnqueued := by
  cases a with
  | verify item => exact False.elim hdue
  | tick t =>
    have houtcome := tick_outcome c t
    unfold CallsFunction sent
    simp only
    generalize c.tick t = outcome at houtcome
    cases houtcome with
    | ended hended => exact absurd hdue.1 hended
    | timeUp _ htime => exact absurd htime hdue.2.1
    | waits _ _ hidle => exact absurd hdue (not_due_of_waits hidle)
    | calls => exact .inl ⟨_, rfl⟩
    | refused => exact .inl ⟨_, rfl⟩
    | stuck _ htime hfree hstate hfor hnone =>
      exact absurd (stuck_of_find?_eq_none htime hfree hstate hfor hnone) hstuck
    | unreadable _ _ _ _ _ hfind hmissing =>
      exact absurd hmissing (not_unreadable (hread t mem_cons_self) hfind)
    | reads _ _ _ _ _ hfind =>
      exact .inr ⟨_, mem_of_find?_eq_some hfind, List.find?_some hfind, _, rfl⟩

/-- **When a state change is retried until its time is up.** -/
theorem retried_iff_never_stuck {c : StateChange D} {acts : List (StateChangeAction D)}
    (hread : Readable c acts) :
    Retried qt c acts ↔ Transition.AllSteps (step qt) NotStuck c acts := by
  constructor
  · intro hretried k hk
    have hacts : acts = acts.take k ++ acts[k] :: acts.drop (k + 1) := by
      rw [getElem_cons_drop, take_append_drop]
    have hlate := hretried.failed_late _ _ _ hacts
    have hreadable := readable_append qt (hacts ▸ hread)
    rw [run_concat] at hlate
    -- a tick that is stuck fails, and a failure is late
    unfold stateAt
    cases ha : acts[k] with
    | verify item => exact trivial
    | tick t =>
      intro hstuck
      rw [ha] at hlate hreadable
      have hlive : (run (step qt) c (acts.take k)).Live := by
        refine ⟨?_, ?_⟩
        · rw [hstuck.1]
          decide
        · rw [hstuck.1]
          decide
      have hfails := (failed_iff hlive (hreadable t mem_cons_self)).mpr (.inr hstuck)
      obtain ⟨t', ht', htime⟩ := hlate hlive.2 hfails
      injection ht' with ht'
      rw [← ht', ← timeUp_run qt (acts.take k)] at htime
      exact hstuck.2.1 htime
  · intro hall
    have hat : ∀ front a back, acts = front ++ a :: back → Readable (run (step qt) c front) [a] ∧
        NotStuck (run (step qt) c front) a := by
      rintro front a back rfl
      exact ⟨(readable_cons qt (readable_append qt hread)).1,
        (allSteps_cons (allSteps_append hall).2).1⟩
    constructor
    · intro front a back hacts hbefore hafter
      obtain ⟨hreadable, hstuck⟩ := hat front a back hacts
      rw [run_concat] at hafter
      obtain ⟨hlive, t, rfl⟩ := tick_of_failed hbefore hafter
      refine ⟨t, rfl, ?_⟩
      rw [← timeUp_run qt front]
      have hwhy := (failed_iff hlive (hreadable t mem_cons_self)).mp hafter
      exact hwhy.resolve_right hstuck
    · intro front a back hacts hdue
      obtain ⟨hreadable, hstuck⟩ := hat front a back hacts
      exact acts_of_due hreadable hstuck hdue
    · rintro front item mid back rfl hdiffers hanswers hmany
      -- the run is cut behind the value that differs
      rw [append_assoc, cons_append, append_cons] at hread hall
      have hreadMid := readable_append qt hread
      have hallMid := (allSteps_append hall).2
      have hframe : Frame c (run (step qt) c front) :=
        run_invariant (fun s a h => h.trans (frame_step qt s a)) (Frame.refl c) front
      -- the item of the report needs not to be read
      have hfew : unreadItems none (run (step qt) c (front ++ [.verify item])) <
          c.items.length := by
        rw [run_concat, ← hframe.length]
        apply unreadItems_differs
        unfold Differs
        rwa [hframe.targets]
      rcases called_or_few (fun t ht => hreadMid t (mem_append_left back ht))
        (allSteps_append hallMid).1 hanswers with ⟨xs, a, ys, hmid, hcalls⟩ | hticks
      · refine ⟨xs, a, ys, hmid, ?_⟩
        rwa [append_cons, run_append]
      · omega

def lampBusy : List (StateChangeAction Int) :=
  [.tick { now := 10 }, .tick { now := 6000, unconfirmedFor := 1 },
    .verify { suffix := "state/on", value := .bool false }, .tick { now := 6100 }]

/-- The lamp can be read all the time, and yet the state change fails after 6.1 seconds. -/
theorem lampBusy_gives_up :
    Fresh lampOn ∧ lampOn.items ≠ [] ∧ Readable lampOn lampBusy ∧
      ¬ Retried Qt.whole lampOn lampBusy := by
  refine ⟨lampOn_fresh, by decide, ?_, ?_⟩
  · intro t ht target _
    unfold lampBusy at ht
    simp only [mem_cons, StateChangeAction.tick.injEq, reduceCtorEq, not_mem_nil, false_or,
      or_false] at ht
    rcases ht with rfl | rfl | rfl
    · exact ⟨true, rfl⟩
    · exact ⟨true, rfl⟩
    · exact ⟨true, rfl⟩
  · intro hretried
    obtain ⟨t, ht, htime⟩ := hretried.failed_late (lampBusy.take 3) (.tick { now := 6100 }) [] rfl
      (by decide) (by decide)
    injection ht with ht
    subst ht
    revert htime
    decide

theorem retried_iff_never_stuck_lampReports : Retried Qt.whole lampOn lampReports := by
  refine (retried_iff_never_stuck ?_).mpr ?_
  · intro t ht target _
    unfold lampReports at ht
    simp only [mem_cons, StateChangeAction.tick.injEq, reduceCtorEq, not_mem_nil, false_or,
      or_false] at ht
    rcases ht with rfl | rfl
    · exact ⟨true, rfl⟩
    · exact ⟨true, rfl⟩
  · unfold Transition.AllSteps
    decide

end StateChange
end DeconzRest

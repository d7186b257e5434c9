import DeconzRest.Device.StateChange

/-!
# A finished state change is verified

The flag of an item is `synced` only while the last value that the device reported for it
is the target value (`Backed`): every report sets the flag, and a tick takes other flags
back at most.  So when all flags are `synced`, all targets were reported last.
-/

namespace DeconzRest
namespace StateChange

open Transition

variable {D : Type} (qt : Qt D)

/-- The value that the device reports for an item. -/
def reported (suffix : String) : StateChangeAction D → Option (QVariant D)
  | .tick _ => none
  | .verify item =>
    if item.suffix = suffix ∧ item.valueSource = .device then some item.value else none

def lastReport (suffix : String) (acts : List (StateChangeAction D)) : Option (QVariant D) :=
  acts.reverse.findSome? (reported suffix)

theorem lastReport_concat (suffix : String) (acts : List (StateChangeAction D))
    (a : StateChangeAction D) :
    lastReport suffix (acts ++ [a]) =
      match reported suffix a with
      | some v => some v
      | none => lastReport suffix acts := by
  unfold lastReport
  rw [List.reverse_append, List.reverse_singleton, List.singleton_append, List.findSome?_cons]
  cases reported suffix a with
  | some v => rfl
  | none => rfl

/-- The target of the item is what the device reported last. -/
def Reached (acts : List (StateChangeAction D)) (i : TargetItem D) : Prop :=
  ∃ v, lastReport i.suffix acts = some v ∧ qt.eqv i.targetValue v = true

/-- Every flag `synced` has such a report. -/
def Backed (acts : List (StateChangeAction D)) (c : StateChange D) : Prop :=
  ∀ i ∈ c.items, i.verified = .synced → Reached qt acts i

variable {qt}

variable {c : StateChange D}

theorem synced_tick {t : Tick} : ∀ i ∈ (c.tick t).1.items, i.verified = .synced → i ∈ c.items := by
  have hkept : ∀ i ∈ (c.leaveWaitSync t.now).items, i.verified = .synced → i ∈ c.items := by
    rw [items_leaveWaitSync]
    exact fun i hi _ => hi
  have houtcome := tick_outcome c t
  generalize c.tick t = outcome at houtcome
  cases houtcome with
  | ended => exact fun i hi _ => hi
  | timeUp | waits | refused | stuck | unreadable | reads => exact hkept
  | calls =>
    intro i hi hsynced
    obtain ⟨j, hj, rfl⟩ := List.mem_map.mp hi
    unfold readAgain at hsynced ⊢
    by_cases hdiffers : j.verified = .notSynced
    · rw [if_pos hdiffers] at hsynced
      cases hsynced
    · rwa [if_neg hdiffers]

theorem backed_verify {acts : List (StateChangeAction D)} {item : ItemValue D}
    (hsource : item.valueSource = .device) (hc : Backed qt acts c) :
    ∀ i ∈ c.items.map (verify qt item), i.verified = .synced →
      Reached qt (acts ++ [.verify item]) i := by
  intro i hi hsynced
  obtain ⟨j, hj, rfl⟩ := List.mem_map.mp hi
  unfold Reached
  rw [lastReport_concat]
  unfold verify at hsynced ⊢
  by_cases hsuffix : j.suffix = item.suffix
  · rw [if_pos hsuffix] at hsynced ⊢
    have hreported : reported j.suffix (.verify item) = some item.value := by
      unfold reported
      exact if_pos ⟨hsuffix.symm, hsource⟩
    simp only [hreported]
    refine ⟨item.value, rfl, ?_⟩
    by_contra hdiffers
    rw [if_neg hdiffers] at hsynced
    cases hsynced
  · rw [if_neg hsuffix] at hsynced ⊢
    have hother : reported j.suffix (.verify item) = none := by
      unfold reported
      exact if_neg fun h => hsuffix h.1.symm
    simp only [hother]
    exact hc j hj hsynced

theorem backed_step {acts : List (StateChangeAction D)} (hc : Backed qt acts c)
    (a : StateChangeAction D) :
    Backed qt (acts ++ [a]) (step qt c a) := by
  cases a with
  | tick t =>
    intro i hi hsynced
    have hreached := hc i (synced_tick i hi hsynced) hsynced
    unfold Reached at hreached ⊢
    rwa [lastReport_concat]
  | verify item =>
    unfold step verifyItemChange
    simp only
    by_cases hsource : item.valueSource = .device
    · rw [if_neg (not_not.mpr hsource)]
      split
      · exact backed_verify hsource hc
      · exact backed_verify hsource hc
    · rw [if_pos hsource]
      intro i hi hsynced
      have hreached := hc i hi hsynced
      have hnone : reported i.suffix (.verify item) = none := by
        unfold reported
        exact if_neg fun h => hsource h.2
      unfold Reached at hreached ⊢
      rw [lastReport_concat, hnone]
      exact hreached

theorem backed_stateAt (qt : Qt D) (hfresh : Fresh c) (acts : List (StateChangeAction D)) :
    ∀ n, n ≤ acts.length → Backed qt (acts.take n) (stateAt (step qt) c acts n) := by
  apply stateAt_induction (P := fun n c => Backed qt (acts.take n) c)
  · intro i hi hsynced
    rw [hfresh.items i hi] at hsynced
    cases hsynced
  · intro k hk hbacked
    rw [List.take_succ_eq_append_getElem hk]
    exact backed_step hbacked _

theorem synced_of_finished {a : StateChangeAction D} (h : c.state ≠ .finished)
    (h' : (step qt c a).state = .finished) :
    ∀ i ∈ (step qt c a).items, i.verified = .synced := by
  cases a with
  | tick t =>
    unfold step at h' ⊢
    simp only at h' ⊢
    have houtcome := tick_outcome c t
    generalize c.tick t = outcome at houtcome h'
    cases houtcome with
    | ended => exact absurd h' h
    | timeUp | stuck | unreadable | calls | reads => cases h'
    | waits hlive => exact absurd h' (leaveWaitSync_live hlive t.now).1
    | refused hlive => exact absurd h' (leaveWaitSync_live hlive t.now).1
  | verify item =>
    unfold step verifyItemChange at h' ⊢
    simp only at h' ⊢
    by_cases hsource : item.valueSource ≠ .device
    · rw [if_pos hsource] at h'
      exact absurd h' h
    · rw [if_neg hsource] at h' ⊢
      split at h'
      · rename_i hall
        rw [if_pos hall]
        have hcount := List.countP_eq_length.mp hall.1
        exact fun i hi => of_decide_eq_true (hcount i hi)
      · exact absurd h' h

theorem step_finished (qt : Qt D) (h : c.state = .finished) (a : StateChangeAction D) :
    (step qt c a).state = .finished ∧ sent c a = .nothing := by
  cases a with
  | tick t =>
    have hended : c.tick t = (c, .nothing) := by
      unfold tick
      rw [if_pos (.inl h)]
    unfold step sent
    simp only
    rw [hended]
    exact ⟨h, rfl⟩
  | verify item =>
    refine ⟨?_, rfl⟩
    unfold step verifyItemChange
    simp only
    split
    · exact h
    · split
      · rfl
      · exact h

/-- **What finished means.**  When a state change finishes, the last value that the device
reported for each of its items is the target value, and then nothing happens any more. -/
theorem finished_verified (qt : Qt D) {c : StateChange D} (hfresh : Fresh c)
    (acts : List (StateChangeAction D)) :
    (∀ k, k < acts.length → (stateAt (step qt) c acts k).state ≠ .finished →
      (stateAt (step qt) c acts (k + 1)).state = .finished →
      ∀ i ∈ c.items, Reached qt (acts.take (k + 1)) i) ∧
    ∀ k, (stateAt (step qt) c acts k).state = .finished → ∀ n (hn : n < acts.length), k ≤
      n → (stateAt (step qt) c acts n).state =
        .finished ∧ (stateAt (step qt) c acts (n + 1)).state = .finished ∧
          sent (stateAt (step qt) c acts n) acts[n] = .nothing := by
  constructor
  · intro k hk hbefore hafter i hi
    have hbacked := backed_stateAt qt hfresh acts (k + 1) hk
    have htargets : (stateAt (step qt) c acts (k + 1)).targets = c.targets :=
      (run_invariant (P := Frame c) (fun s a h => h.trans (frame_step qt s a))
        (Frame.refl c) _).targets
    -- the item of the end with the suffix and target of this one
    have hmem : (i.suffix, i.targetValue) ∈ (stateAt (step qt) c acts (k + 1)).targets := by
      rw [htargets]
      exact List.mem_map_of_mem hi
    obtain ⟨j, hj, hsame⟩ := List.mem_map.mp hmem
    rw [Prod.mk.injEq] at hsame
    have hsynced : j.verified = .synced := by
      rw [stateAt_succ (step qt) c acts hk] at hafter hj
      exact synced_of_finished hbefore hafter j hj
    obtain ⟨v, hv, heq⟩ := hbacked j hj hsynced
    rw [hsame.1] at hv
    rw [hsame.2] at heq
    exact ⟨v, hv, heq⟩
  · intro k hfinished n hn hkn
    have hstays : ∀ n, k ≤ n → (stateAt (step qt) c acts n).state = .finished :=
      fun n hkn => stateAt_invariant (P := fun c : StateChange D => c.state = .finished)
        (fun _ a h => (step_finished qt h a).1) hfinished hkn
    exact ⟨hstays n hkn, hstays (n + 1) (by omega), (step_finished qt (hstays n hkn) _).2⟩

def lampOn : StateChange Int where
  stateTimer := 0
  changeTimer := 0
  items := [{ suffix := "state/on", targetValue := .bool true }]

theorem lampOn_fresh : Fresh lampOn where
  state := .inl rfl
  items := by decide

/-- The lamp reports that it is off, is told to switch on, and reports that it is on. -/
def lampReports : List (StateChangeAction Int) :=
  [.verify { suffix := "state/on", value := .bool false }, .tick { now := 10 },
    .verify { suffix := "state/on", value := .bool true }, .tick { now := 20 }]

theorem finished_verified_lampReports :
    (∀ i ∈ lampOn.items, Reached Qt.whole (lampReports.take 3) i) ∧
      sent (stateAt (step Qt.whole) lampOn lampReports 3) (.tick { now := 20 }) = .nothing := by
  obtain ⟨hverified, hquiet⟩ :=
    finished_verified Qt.whole lampOn_fresh lampReports
  exact ⟨hverified 2 (by decide) (by decide) (by decide),
    (hquiet 3 (by decide) 3 (by decide) (by decide)).2.2⟩

end StateChange
end DeconzRest

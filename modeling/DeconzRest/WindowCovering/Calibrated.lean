import DeconzRest.WindowCovering.Calibration

/-!
# Calibrations that do not interfere

`calibrations_proceed`: where no other device is put into calibration mode during a calibration,
the covering has reported its status before the third move is due, and has stopped when the last
callback comes, every calibration sends its four moves in order, the last two of them when the
covering has stopped, and goes on until the device leaves calibration mode.
-/

namespace DeconzRest
namespace WindowCovering

open Transition List

namespace Entry

def device : Entry → UInt64
  | .sent device _ => device
  | .reported device _ => device

def move : Entry → Option UInt8
  | .sent _ (.windowCovering cmd) => some cmd
  | .sent _ .configureReporting | .sent _ (.writeConfiguration _) | .sent _ (.writeMode _)
  | .reported _ _ => none

def status : Entry → Option UInt8
  | .reported _ status => some status
  | .sent _ _ => none

end Entry

def enters (device : UInt64) : Entry := .sent device (.writeMode 0x02)

/-- The command that ends its calibration -/
def leaves (device : UInt64) : Entry := .sent device (.writeMode 0x00)

def sessionStep (device : UInt64) (session : Option (List Entry)) (entry : Entry) :
    Option (List Entry) :=
  if entry = enters device then some []
  else if entry.device = device then session.map (· ++ [entry])
  else session

/-- What was sent to a device and reported by it since it was last put into calibration mode -/
def session (device : UInt64) (log : List Entry) : Option (List Entry) :=
  log.foldl (sessionStep device) none

def moves (entries : List Entry) : List UInt8 := entries.filterMap Entry.move

def lastReport (entries : List Entry) : Option UInt8 := (entries.filterMap Entry.status).getLast?

def calibrationMoves : List UInt8 := [moveDown, moveUp, moveDown, moveUp]

/-- From the third one on a move is sent only after the device itself has reported that it
stopped. -/
def Stopped (entries : List Entry) : Prop :=
  ∀ k (hk : k < entries.length), entries[k].move.isSome = true → 2 ≤
    (moves (entries.take k)).length → lastReport (entries.take k) = some 0

/-- What holds of a device that was put into calibration mode. -/
structure Proceeds (s : Calibration) (device : UInt64) (entries : List Entry) : Prop where
  order : moves entries <+: calibrationMoves
  complete : leaves device ∈ entries → moves entries = calibrationMoves
  stopped : Stopped entries
  pending : leaves device ∉ entries → 0 < s.callbacks ∧ s.calibrationTask = device ∧
    s.calibrationStep ≠ 0

namespace Calibration

/-- The device has reported a status since it was put into calibration mode. -/
def heard (s : Calibration) : Bool :=
  ((session s.calibrationTask s.log).bind lastReport).isSome

/-- The condition on an event: tasks are taken; no other device is calibrated; before the third
move the status is one that the device has reported; at the last step the covering has stopped,
or another callback is pending. -/
def Undisturbed (s : Calibration) : Event → Prop
  | .calibrate w device _ =>
    w.addTask = true ∧ (isJ1 w = true → s.calibrationStep ≠ 0 → device = s.calibrationTask)
  | .callback w =>
    w.addTask = true ∧
    (s.calibrationStep = 5 → s.operationalStatus = 0 → s.heard = true) ∧
    (s.calibrationStep = 8 → s.operationalStatus = 0 ∨ 1 < s.callbacks)
  | .indication _ _ _ => True

instance (s : Calibration) : (e : Event) → Decidable (s.Undisturbed e)
  | .calibrate _ _ _ => inferInstanceAs (Decidable (_ ∧ _))
  | .callback _ => inferInstanceAs (Decidable (_ ∧ _))
  | .indication _ _ _ => inferInstanceAs (Decidable True)

end Calibration

variable {device : UInt64} {log entries : List Entry} {entry : Entry}

theorem session_concat (device : UInt64) (log : List Entry) (entry : Entry) :
    session device (log ++ [entry]) = sessionStep device (session device log) entry := by
  unfold session
  rw [foldl_append]
  rfl

theorem session_enters (device : UInt64) (log : List Entry) :
    session device (log ++ [enters device]) = some [] := by
  rw [session_concat, sessionStep, if_pos rfl]

theorem session_other (h : entry.device ≠ device) :
    session device (log ++ [entry]) = session device log := by
  have hne : entry ≠ enters device := by
    rintro rfl
    exact h rfl
  rw [session_concat, sessionStep, if_neg hne, if_neg h]

theorem session_own (h : entry.device = device) (hne : entry ≠ enters device) :
    session device (log ++ [entry]) = (session device log).map (· ++ [entry]) := by
  rw [session_concat, sessionStep, if_neg hne, if_pos h]

theorem session_own_some (h : session device log = some entries) (hown : entry.device = device)
    (hne : entry ≠ enters device) :
    session device (log ++ [entry]) = some (entries ++ [entry]) := by
  rw [session_own hown hne, h]
  rfl

theorem moves_concat (entries : List Entry) (entry : Entry) :
    moves (entries ++ [entry]) = moves entries ++ entry.move.toList := by
  unfold moves
  rw [filterMap_append]
  cases h : entry.move with
  | none => simp [h]
  | some cmd => simp [h]

theorem lastReport_concat (entries : List Entry) (entry : Entry) :
    lastReport (entries ++ [entry]) = entry.status.or (lastReport entries) := by
  unfold lastReport
  rw [filterMap_append]
  cases h : entry.status with
  | none => simp [h]
  | some v => simp [h]

theorem stopped_nil : Stopped [] := nofun

theorem stopped_concat (h : Stopped entries)
    (hlast : entry.move.isSome = true → 2 ≤ (moves entries).length → lastReport entries =
      some 0) : Stopped (entries ++ [entry]) := by
  intro k hk hmove
  by_cases hbefore : k < entries.length
  · rw [getElem_append_left hbefore] at hmove
    rw [take_append_of_le_length (Nat.le_of_lt hbefore)]
    exact h k hbefore hmove
  · have hk' : k = entries.length := by
      rw [List.length_append, length_singleton] at hk
      omega
    subst hk'
    rw [getElem_concat_length rfl] at hmove
    rw [take_left]
    exact hlast hmove

structure Running (s : Calibration) (device : UInt64) (entries : List Entry) : Prop where
  low : 3 ≤ s.calibrationStep
  high : s.calibrationStep ≤ 8
  moves : moves entries = calibrationMoves.take (s.calibrationStep - 3)
  stays : leaves device ∉ entries
  stopped : Stopped entries
  status : ∀ v, lastReport entries = some v → s.operationalStatus = v
  heard : 6 ≤ s.calibrationStep → (lastReport entries).isSome = true
  pending : 0 < s.callbacks

structure Done (device : UInt64) (entries : List Entry) : Prop where
  moves : moves entries = calibrationMoves
  left : leaves device ∈ entries
  stopped : Stopped entries

/-- The device of the template is being calibrated unless the step is 0, and all others are
done. -/
structure Alone (s : Calibration) : Prop where
  running : s.calibrationStep ≠ 0 → ∃ entries, session s.calibrationTask s.log = some entries ∧
    Running s s.calibrationTask entries
  done : ∀ device, (s.calibrationStep = 0 ∨ device ≠ s.calibrationTask) → ∀ entries,
    session device s.log = some entries → Done device entries

theorem Running.proceeds {s : Calibration} {entries : List Entry}
    (h : Running s s.calibrationTask entries) : Proceeds s s.calibrationTask entries where
  order := by
    rw [h.moves]
    exact take_prefix _ _
  complete hleft := absurd hleft h.stays
  stopped := h.stopped
  pending _ := ⟨h.pending, rfl, by have := h.low; omega⟩

theorem Done.proceeds {s : Calibration} (h : Done device entries) : Proceeds s device entries where
  order := h.moves ▸ prefix_refl _
  complete _ := h.moves
  stopped := h.stopped
  pending hstays := absurd h.left hstays

theorem Alone.proceeds {s : Calibration} (h : Alone s)
    (hsession : session device s.log = some entries) : Proceeds s device entries := by
  by_cases hdone : s.calibrationStep = 0 ∨ device ≠ s.calibrationTask
  · exact (h.done device hdone entries hsession).proceeds
  · rw [not_or, not_not] at hdone
    obtain ⟨hstep, rfl⟩ := hdone
    obtain ⟨entries', hsession', hrunning⟩ := h.running hstep
    rw [hsession] at hsession'
    cases hsession'
    exact hrunning.proceeds

theorem Done.concat (h : Done device entries) (hmove : entry.move = none) :
    Done device (entries ++ [entry]) where
  moves := by rw [moves_concat, hmove, h.moves]; rfl
  left := mem_append_left _ h.left
  stopped := stopped_concat h.stopped (by rw [hmove]; nofun)

/-! ## One event -/

variable {s : Calibration}

theorem Alone.done_concat (h : Alone s)
    (hdone : s.calibrationStep = 0 ∨ device ≠ s.calibrationTask) (hne : entry ≠ enters device)
    (hmove : entry.device = device → entry.move = none)
    (hsession : session device (s.log ++ [entry]) = some entries) : Done device entries := by
  by_cases hown : entry.device = device
  · rw [session_own hown hne, Option.map_eq_some_iff] at hsession
    obtain ⟨entries', hsession', rfl⟩ := hsession
    exact (h.done device hdone entries' hsession').concat (hmove hown)
  · rw [session_other hown] at hsession
    exact h.done device hdone entries hsession

theorem alone_reportStatus (h : Alone s) (device : UInt64) (v : UInt8) :
    Alone (s.reportStatus device v) := by
  have hne : ∀ d, Entry.reported device v ≠ enters d := fun d => nofun
  have hlog : (s.reportStatus device v).log = s.log ++ [.reported device v] := by
    unfold Calibration.reportStatus
    simp only
    split <;> rfl
  have hrest : (s.reportStatus device v).calibrationTask = s.calibrationTask ∧
      (s.reportStatus device v).calibrationStep = s.calibrationStep ∧
      (s.reportStatus device v).callbacks = s.callbacks := by
    unfold Calibration.reportStatus
    simp only
    split <;> exact ⟨rfl, rfl, rfl⟩
  obtain ⟨htask, hstep, hcallbacks⟩ := hrest
  constructor
  · intro hrunning
    rw [hstep] at hrunning
    rw [htask, hlog]
    obtain ⟨entries, hsession, hrun⟩ := h.running hrunning
    by_cases hown : (Entry.reported device v).device = s.calibrationTask
    · have hstatus : (s.reportStatus device v).operationalStatus = v := by
        unfold Calibration.reportStatus
        simp only
        rw [if_pos ⟨hrunning, hown⟩]
      refine ⟨entries ++ [.reported device v], session_own_some hsession hown (hne _), ?_⟩
      · have hlast : lastReport (entries ++ [.reported device v]) = some v := by
          rw [lastReport_concat]
          rfl
        constructor
        · rw [hstep]; exact hrun.low
        · rw [hstep]; exact hrun.high
        · rw [moves_concat, hrun.moves, hstep]
          exact append_nil _
        · rw [mem_append, not_or]
          exact ⟨hrun.stays, by simp [leaves]⟩
        · exact stopped_concat hrun.stopped nofun
        · intro v' hv'
          rw [hlast] at hv'
          rw [hstatus]
          exact Option.some.inj hv'
        · intro _
          rw [hlast]
          rfl
        · rw [hcallbacks]
          exact hrun.pending
    · have hstatus : (s.reportStatus device v).operationalStatus = s.operationalStatus := by
        unfold Calibration.reportStatus
        simp only
        rw [if_neg fun hcond => hown hcond.2]
      refine ⟨entries, ?_, ?_⟩
      · rw [session_other hown]
        exact hsession
      · exact ⟨hstep ▸ hrun.low, hstep ▸ hrun.high, hstep ▸ hrun.moves, hrun.stays, hrun.stopped,
          hstatus ▸ hrun.status, hstep ▸ hrun.heard, hcallbacks ▸ hrun.pending⟩
  · intro d hd entries hsession
    rw [hstep, htask] at hd
    rw [hlog] at hsession
    exact h.done_concat hd (hne d) (fun _ => rfl) hsession

theorem alone_indication (h : Alone s) (device : UInt64) (isRead : Bool) (payload : List UInt8) :
    Alone (s.handleWindowCoveringClusterIndication device isRead payload) := by
  unfold Calibration.handleWindowCoveringClusterIndication
  generalize attributes isRead payload.length 0 payload = attrs
  induction attrs generalizing s with
  | nil => exact h
  | cons attr attrs ih =>
    rw [foldl_cons]
    split
    · exact ih (alone_reportStatus h device attr.2)
    · exact ih h

theorem alone_calibrate (h : Alone s) (w : World) (device : UInt64) (windowCoveringType : UInt8)
    (hok : s.Undisturbed (.calibrate w device windowCoveringType)) :
    Alone (s.addTaskWindowCoveringCalibrate w device windowCoveringType).2 := by
  obtain ⟨htasks, hother⟩ := hok
  unfold Calibration.addTaskWindowCoveringCalibrate
  by_cases hj1 : Calibration.isJ1 w = true
  · rw [hj1, Bool.not_true, if_neg Bool.false_ne_true]
    have hsame : s.calibrationStep ≠ 0 → { s with calibrationTask := device } = s := by
      intro hstep
      rw [hother hj1 hstep]
    have hdone : ∀ d, d ≠ device → s.calibrationStep = 0 ∨ d ≠ s.calibrationTask := by
      intro d hd
      by_cases hstep : s.calibrationStep = 0
      · exact .inl hstep
      · exact .inr (hother hj1 hstep ▸ hd)
    split
    · -- the template is written before the endpoint of the gateway is looked at
      by_cases hstep : s.calibrationStep = 0
      · exact ⟨absurd hstep, fun d _ => h.done d (.inl hstep)⟩
      · rw [hsame hstep]
        exact h
    · simp only [Calibration.addTask, htasks, if_true, Bool.not_true, Bool.false_eq_true, if_false]
      constructor
      · intro _
        refine ⟨[], session_enters device _, ?_⟩
        exact ⟨Nat.le_refl _, Nat.le_add_right 3 5, rfl, not_mem_nil, stopped_nil, nofun, nofun,
          Nat.succ_pos _⟩
      · intro d hd entries hsession
        have hne : d ≠ device := hd.resolve_left (by simp)
        have hothers : ∀ command : Command, (Entry.sent device command).device ≠ d :=
          fun _ hsame => hne hsame.symm
        rw [session_other (hothers _), session_other (hothers _), session_other (hothers _)]
          at hsession
        exact h.done d (hdone d hne) entries hsession
  · rw [Bool.eq_false_iff.mpr hj1, Bool.not_false, if_pos rfl]
    exact h

theorem alone_wait (h : Alone s) {step callbacks : Nat} (hstep : s.calibrationStep ≠ 0)
    (hmoves : calibrationMoves.take (step - 3) = calibrationMoves.take (s.calibrationStep - 3))
    (hlow : s.calibrationStep ≤ step) (hhigh : step ≤ 8)
    (hheard : 6 ≤ step → 6 ≤ s.calibrationStep) (hcallbacks : 0 < callbacks) :
    Alone { s with calibrationStep := step, callbacks := callbacks } := by
  obtain ⟨entries, hsession, hrun⟩ := h.running hstep
  constructor
  · intro _
    refine ⟨entries, hsession, Nat.le_trans hrun.low hlow, hhigh, ?_, hrun.stays, hrun.stopped,
      hrun.status, fun hsix => hrun.heard (hheard hsix), hcallbacks⟩
    rw [hrun.moves]
    exact hmoves.symm
  · intro d hd entries' hsession'
    have hne : d ≠ s.calibrationTask := by
      rcases hd with hzero | hne
      · have hlower := hrun.low
        have hzero' : step = 0 := hzero
        omega
      · exact hne
    exact h.done d (.inr hne) entries' hsession'

theorem alone_move (h : Alone s) {cmd : UInt8} {step callbacks : Nat}
    (hstep : s.calibrationStep ≠ 0) (hnext : step = s.calibrationStep + 1) (hhigh : step ≤ 7)
    (hcmd : calibrationMoves.take (step - 3) = calibrationMoves.take (s.calibrationStep - 3) ++
      [cmd])
    (hready : 5 ≤ s.calibrationStep → s.operationalStatus = 0 ∧ s.heard = true)
    (hcallbacks : 0 < callbacks) :
    Alone { s with
      calibrationStep := step
      callbacks := callbacks
      log := s.log ++ [.sent s.calibrationTask (.windowCovering cmd)] } := by
  obtain ⟨entries, hsession, hrun⟩ := h.running hstep
  have hlow := hrun.low
  have hne : ∀ d, Entry.sent s.calibrationTask (.windowCovering cmd) ≠ enters d := fun d => nofun
  have hreport : 5 ≤ s.calibrationStep → lastReport entries = some 0 := by
    intro hfive
    obtain ⟨hzero, hheard⟩ := hready hfive
    unfold Calibration.heard at hheard
    rw [hsession] at hheard
    obtain ⟨v, hv⟩ := Option.isSome_iff_exists.mp hheard
    have hlast : lastReport entries = some v := hv
    rw [hlast, ← hrun.status v hlast, hzero]
  constructor
  · intro _
    refine ⟨entries ++ [.sent s.calibrationTask (.windowCovering cmd)],
      session_own_some hsession rfl (hne _), ?_⟩
    · have hlast : lastReport (entries ++ [.sent s.calibrationTask (.windowCovering cmd)]) =
          lastReport entries := by
        rw [lastReport_concat]
        rfl
      refine ⟨?_, ?_, ?_, ?_, ?_, ?_, ?_, hcallbacks⟩
      · show 3 ≤ step
        omega
      · show step ≤ 8
        omega
      · rw [moves_concat, hrun.moves]
        exact hcmd.symm
      · rw [mem_append, not_or]
        exact ⟨hrun.stays, by simp [leaves]⟩
      · refine stopped_concat hrun.stopped ?_
        intro _ htwo
        apply hreport
        rw [hrun.moves, length_take] at htwo
        omega
      · rw [hlast]
        exact hrun.status
      · intro hsix
        have hsix' : 6 ≤ step := hsix
        rw [hlast, hreport (by omega)]
        rfl
  · intro d hd entries' hsession'
    have hother : d ≠ s.calibrationTask := by
      rcases hd with hzero | hother
      · have hzero' : step = 0 := hzero
        omega
      · exact hother
    refine h.done_concat (.inr hother) (hne d) ?_ hsession'
    exact fun hsame => absurd hsame.symm hother

theorem alone_leave (h : Alone s) {callbacks : Nat} (hstep : s.calibrationStep = 8) :
    Alone { s with
      calibrationStep := 0
      callbacks := callbacks
      log := s.log ++ [leaves s.calibrationTask] } := by
  obtain ⟨entries, hsession, hrun⟩ := h.running (by omega)
  have hne : ∀ d, leaves s.calibrationTask ≠ enters d := fun d => by simp [leaves, enters]
  refine ⟨absurd rfl, ?_⟩
  intro d _ entries' hsession'
  by_cases hother : d = s.calibrationTask
  · subst hother
    have hown : session s.calibrationTask (s.log ++ [leaves s.calibrationTask]) =
        some (entries ++ [leaves s.calibrationTask]) := session_own_some hsession rfl (hne _)
    cases hown.symm.trans hsession'
    refine ⟨?_, mem_append_right _ (mem_singleton_self _), ?_⟩
    · rw [moves_concat, hrun.moves, hstep]
      rfl
    · exact stopped_concat hrun.stopped nofun
  · refine h.done_concat (.inr hother) (hne d) ?_ hsession'
    exact fun _ => rfl

theorem alone_callback (h : Alone s) (w : World) (hok : s.Undisturbed (.callback w)) :
    Alone (s.step (.callback w)) := by
  obtain ⟨htasks, hheard, hlast⟩ := hok
  show Alone (if s.callbacks = 0 then s else
    { s with callbacks := s.callbacks - 1 }.calibrateWindowCoveringNextStep w)
  by_cases hnone : s.callbacks = 0
  · rw [if_pos hnone]
    exact h
  rw [if_neg hnone]
  unfold Calibration.calibrateWindowCoveringNextStep
  by_cases hzero : s.calibrationStep = 0
  · -- a callback that is left of a calibration that is over
    simp only [hzero]
    exact ⟨absurd rfl, fun d _ => h.done d (.inl hzero)⟩
  obtain ⟨entries, hsession, hrun⟩ := h.running hzero
  have hlow := hrun.low
  have hhigh := hrun.high
  have hsteps : s.calibrationStep = 3 ∨ s.calibrationStep = 4 ∨ s.calibrationStep = 5 ∨
      s.calibrationStep = 6 ∨ s.calibrationStep = 7 ∨ s.calibrationStep = 8 := by omega
  rcases hsteps with hstep | hstep | hstep | hstep | hstep | hstep
  · simp only [hstep, Calibration.send, Calibration.addTask, htasks, if_true,
      Calibration.singleShot]
    exact alone_move h hzero (by omega) (by omega) (by rw [hstep]; rfl) (by omega)
      (Nat.succ_pos _)
  · simp only [hstep, Calibration.send, Calibration.addTask, htasks, if_true,
      Calibration.singleShot]
    exact alone_move h hzero (by omega) (by omega) (by rw [hstep]; rfl) (by omega)
      (Nat.succ_pos _)
  · simp only [hstep, Calibration.send, Calibration.addTask, htasks, if_true,
      Calibration.singleShot]
    split
    · rename_i hstopped
      exact alone_move h hzero (by omega) (by omega) (by rw [hstep]; rfl)
        (fun _ => ⟨hstopped, hheard hstep hstopped⟩) (Nat.succ_pos _)
    · exact alone_wait h hzero (by rw [hstep]) (by omega) (by omega) (by omega) (Nat.succ_pos _)
  · have hreported : s.heard = true := by
      unfold Calibration.heard
      rw [hsession]
      exact hrun.heard (by omega)
    simp only [hstep, Calibration.send, Calibration.addTask, htasks, if_true,
      Calibration.singleShot]
    split
    · rename_i hstopped
      exact alone_move h hzero (by omega) (by omega) (by rw [hstep]; rfl)
        (fun _ => ⟨hstopped, hreported⟩) (Nat.succ_pos _)
    · exact alone_wait h hzero (by rw [hstep]) (by omega) (by omega) (by omega) (Nat.succ_pos _)
  · simp only [hstep, Calibration.singleShot]
    split
    · exact alone_wait h hzero (by rw [hstep]; rfl) (by omega) (by omega) (by omega)
        (Nat.succ_pos _)
    · exact alone_wait h hzero (by rw [hstep]) (by omega) (by omega) (by omega) (Nat.succ_pos _)
  · simp only [hstep, Calibration.send, Calibration.addTask, htasks, if_true]
    split
    · exact alone_leave h hstep
    · rename_i hmoves
      have hother := (hlast hstep).resolve_left hmoves
      exact alone_wait h hzero (by rw [hstep]) (by omega) (by omega) (by omega) (by omega)

theorem alone_step (s : Calibration) (e : Event) (hok : s.Undisturbed e) (h : Alone s) :
    Alone (s.step e) := by
  cases e with
  | calibrate w device windowCoveringType => exact alone_calibrate h w device _ hok
  | callback w => exact alone_callback h w hok
  | indication device isRead payload => exact alone_indication h device isRead payload

/-- In every state of a run, every device that was put into calibration mode proceeds. -/
def AllProceed (start : Calibration) (events : List Event) : Prop :=
  ∀ n ≤ events.length, ∀ device entries,
    session device (stateAt Calibration.step start events n).log = some entries →
      Proceeds (stateAt Calibration.step start events n) device entries

theorem calibrations_proceed {start : Calibration} (hidle : start.calibrationStep = 0)
    (hlog : start.log = []) {events : List Event}
    (hall : AllSteps Calibration.step Calibration.Undisturbed start events) :
    AllProceed start events := by
  have hstart : Alone start := by
    refine ⟨absurd hidle, ?_⟩
    intro device _ entries hsession
    rw [hlog] at hsession
    cases hsession
  have hrun : ∀ n ≤ events.length, Alone (stateAt Calibration.step start events n) :=
    stateAt_induction hstart fun k hk halone => alone_step _ _ (hall k hk) halone
  intro n hn device entries hsession
  exact (hrun n hn).proceeds hsession

def statusReport (device : UInt64) (status : UInt8) : Event :=
  .indication device false [0x0A, 0x00, 0x18, status]

/-- A covering is calibrated, and three callbacks come; the next one sends the third move. -/
def thirdMove : List Event :=
  .calibrate {} 1 0 :: List.replicate 3 (.callback {})

/-- The third move is sent although the covering has not reported anything. -/
theorem thirdMove_unheard : ¬ AllProceed {} thirdMove := by
  intro h
  have hsession : ∃ entries, session 1 (stateAt Calibration.step {} thirdMove 4).log =
      some entries ∧ entries.length = 3 ∧ ∀ hk : 2 < entries.length, entries[2].move.isSome = true ∧
        2 ≤ (moves (entries.take 2)).length ∧ lastReport (entries.take 2) = none :=
    ⟨_, rfl, by decide, by decide⟩
  obtain ⟨entries, hsome, hlength, hthird⟩ := hsession
  have hk : 2 < entries.length := by omega
  obtain ⟨hmove, htwo, hnone⟩ := hthird hk
  have hreported := (h 4 (by decide) 1 entries hsome).stopped 2 hk hmove htwo
  rw [hnone] at hreported
  cases hreported

/-- A covering that reports its moves -/
theorem calibrations_proceed_oneCovering :
    AllProceed {} ([.calibrate {} 1 0, .callback {}, statusReport 1 1, .callback {},
      statusReport 1 0] ++ List.replicate 5 (.callback {})) :=
  calibrations_proceed rfl rfl (by unfold AllSteps; decide +kernel)

end WindowCovering
end DeconzRest

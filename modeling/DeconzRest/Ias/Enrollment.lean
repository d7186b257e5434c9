import DeconzRest.Ias.Zone
import DeconzRest.Lib.Transition

/-!
# Soundness of the enrollment

Leaving the init state marks both the zone state and the CIE address as pending,
and only a report of the device takes a mark away.  So `Evidence`, which ties the
marks to the reports received since the last init state, holds along every run,
and a sensor becomes enrolled only when both marks are gone.

A report of any CIE address but 0 and all ones takes its mark away, also of one
that is not the address of the gateway; `enrolled_only_after_reports` therefore is
about the runs in which the device reports no foreign address.
-/

namespace DeconzRest
namespace Ias

/-- The device reports that it is enrolled. -/
def ReportsZoneState (act : IasAction) : Prop :=
  ∃ value, (iasZoneState, value) ∈ act.reported ∧ value % 2 ^ 8 = 1

def ReportsCieAddress (act : IasAction) (address : Nat) : Prop :=
  ∃ value, (iasCieAddress, value) ∈ act.reported ∧ value % 2 ^ 64 = address

/-- Neither of the two values that stand for a missing address. -/
def IsAddress (address : Nat) : Prop := address ≠ 0 ∧ address ≠ 0xFFFFFFFFFFFFFFFF

namespace IasSensor

def zonePending (s : IasSensor) : Bool := hasFlags s.pending pendingEnrollResponse
def ciePending (s : IasSensor) : Bool := hasFlags s.pending pendingWriteCieAddress

theorem hasFlags_twoPow (num : BitVec 64) {i : Nat} (hi : i < 64) :
    hasFlags num (BitVec.twoPow 64 i) = num.getLsbD i := by
  unfold hasFlags
  rw [BitVec.and_twoPow]
  cases num.getLsbD i with
  | true => simp
  | false =>
    have hne : (0#64 : BitVec 64) ≠ BitVec.twoPow 64 i := by
      intro h
      have hbit := congrArg (fun x : BitVec 64 => x.getLsbD i) h
      simp [hi] at hbit
    simpa using hne

theorem hasFlags_setFlags (num : BitVec 64) (i : Nat) :
    hasFlags (setFlags num (BitVec.twoPow 64 i)) (BitVec.twoPow 64 i) = true := by
  have habsorb : (num ||| BitVec.twoPow 64 i) &&& BitVec.twoPow 64 i = BitVec.twoPow 64 i := by
    ext j hj
    simp only [BitVec.getElem_and, BitVec.getElem_or]
    cases (BitVec.twoPow 64 i)[j] <;> simp
  unfold hasFlags setFlags
  rw [habsorb]
  exact beq_self_eq_true _

theorem hasFlags_setFlags_other (num : BitVec 64) {i j : Nat} (hi : i < 64) (hij : j ≠ i) :
    hasFlags (setFlags num (BitVec.twoPow 64 j)) (BitVec.twoPow 64 i) =
      hasFlags num (BitVec.twoPow 64 i) := by
  rw [hasFlags_twoPow _ hi, hasFlags_twoPow _ hi, setFlags, BitVec.getLsbD_or,
    BitVec.getLsbD_twoPow]
  simp [hij]

theorem hasFlags_clearFlags_other (num : BitVec 64) {i j : Nat} (hi : i < 64) (hij : j ≠ i) :
    hasFlags (clearFlags num (BitVec.twoPow 64 j)) (BitVec.twoPow 64 i) =
      hasFlags num (BitVec.twoPow 64 i) := by
  rw [hasFlags_twoPow _ hi, hasFlags_twoPow _ hi, clearFlags, BitVec.getLsbD_and,
    BitVec.getLsbD_not, BitVec.getLsbD_twoPow]
  simp [hi, hij]

/-! ## What a step leaves of the evidence -/

def Fresh (s : IasSensor) : Prop := s.state = .init ∨ s.state = .invalid

/-- Outside the fresh states: a mark that is gone was taken away by a report, `zone`
of the zone state or `cie` of a CIE address, and an enrolled sensor had both. -/
def Evidence (zone cie : Prop) (s : IasSensor) : Prop :=
  s.Fresh ∨ ((s.zonePending = true ∨ zone) ∧ (s.ciePending = true ∨ cie) ∧
    (s.state = .enrolled → zone ∧ cie))

variable {zone cie : Prop} {s : IasSensor} {now : Int}

theorem setState_pending (state : IasState) : (s.setState now state).pending = s.pending := by
  unfold setState
  split <;> rfl

theorem setState_state (state : IasState) : (s.setState now state).state = state := by
  unfold setState
  split
  · assumption
  · rfl

theorem Evidence.setState (h : Evidence zone cie s) (hs : ¬ s.Fresh) {state : IasState}
    (hstate : state ≠ .enrolled) : Evidence zone cie (s.setState now state) := by
  rcases h with hfresh | ⟨hzone, hcie, -⟩
  · exact absurd hfresh hs
  · refine .inr ⟨?_, ?_, ?_⟩
    · rw [zonePending, setState_pending]
      exact hzone
    · rw [ciePending, setState_pending]
      exact hcie
    · rw [setState_state]
      exact fun henrolled => absurd henrolled hstate

theorem Evidence.enrolled (h : Evidence zone cie s) (hs : ¬ s.Fresh)
    (hzone : s.zonePending = false) (hcie : s.ciePending = false) :
    Evidence zone cie (s.setState now .enrolled) := by
  rcases h with hfresh | ⟨hzone', hcie', -⟩
  · exact absurd hfresh hs
  · have hz : zone := by simpa [hzone] using hzone'
    have hc : cie := by simpa [hcie] using hcie'
    exact .inr ⟨.inr hz, .inr hc, fun _ => ⟨hz, hc⟩⟩

theorem ensureValidState_fresh (now : Int) : (s.ensureValidState now).Fresh ↔ s.Fresh := by
  unfold ensureValidState Fresh
  split
  · simp_all
  · rfl

theorem Evidence.ensureValidState (h : Evidence zone cie s) :
    Evidence zone cie (s.ensureValidState now) := by
  by_cases hfresh : s.Fresh
  · exact .inl ((ensureValidState_fresh now).mpr hfresh)
  · have hinvalid : s.state ≠ .invalid := fun hs => hfresh (.inr hs)
    rw [IasSensor.ensureValidState, if_neg hinvalid]
    exact h

theorem ensureValidState_state_ne (now : Int) : (s.ensureValidState now).state ≠ .invalid := by
  unfold IasSensor.ensureValidState
  split
  · simp
  · assumption

theorem proceed_of_init (hs : s.state = .init) :
    (s.proceed now).state = .read ∧ (s.proceed now).zonePending = true ∧
      (s.proceed now).ciePending = true := by
  have hflags : ∀ num : BitVec 64,
      setFlags num (pendingEnrollResponse ||| pendingWriteCieAddress) =
        setFlags (setFlags num pendingEnrollResponse) pendingWriteCieAddress := fun num =>
    (BitVec.or_assoc _ _ _).symm
  unfold proceed
  rw [hs]
  refine ⟨setState_state .read, ?_, ?_⟩
  · rw [zonePending, setState_pending, hflags]
    exact (hasFlags_setFlags_other _ (by decide) (by decide)).trans (hasFlags_setFlags _ 5)
  · rw [ciePending, setState_pending, hflags]
    exact hasFlags_setFlags _ 4

theorem Evidence.proceed (h : Evidence zone cie s) (hs : s.state ≠ .invalid) :
    Evidence zone cie (s.proceed now) ∧ ¬ (s.proceed now).Fresh := by
  by_cases hinit : s.state = .init
  · obtain ⟨hread, hzone, hcie⟩ := proceed_of_init hinit
    refine ⟨.inr ⟨.inl hzone, .inl hcie, ?_⟩, ?_⟩
    · rw [hread]
      exact fun henrolled => IasState.noConfusion henrolled
    · rintro (hfresh | hfresh) <;> rw [hread] at hfresh <;> exact IasState.noConfusion hfresh
  · have hfresh : ¬ s.Fresh := by
      rintro (h | h)
      · exact hinit h
      · exact hs h
    have hmove : ∀ state, state ≠ .enrolled → state ≠ .init → state ≠ .invalid →
        Evidence zone cie (s.setState now state) ∧ ¬ (s.setState now state).Fresh := by
      intro state henrolled hi hv
      refine ⟨h.setState hfresh henrolled, ?_⟩
      rintro (hstate | hstate) <;> rw [setState_state] at hstate
      · exact hi hstate
      · exact hv hstate
    unfold IasSensor.proceed
    cases hcase : s.state with
    | init => exact absurd hcase hinit
    | delayEnroll =>
      simp only
      split
      · exact hmove .enroll (by decide) (by decide) (by decide)
      · exact ⟨h, hfresh⟩
    | waitEnroll =>
      simp only
      split
      · exact hmove .read (by decide) (by decide) (by decide)
      · exact ⟨h, hfresh⟩
    | enrolled | read | waitRead | writeCieAddr | waitWriteCieAddr | enroll | invalid =>
      exact ⟨h, hfresh⟩

theorem Evidence.sendOrWait (h : Evidence zone cie s) (hs : ¬ s.Fresh) (sendOk : Bool) :
    Evidence zone cie (s.sendOrWait now sendOk) := by
  unfold IasSensor.sendOrWait
  cases s.state with
  | read | writeCieAddr | enroll | waitRead | waitWriteCieAddr =>
    simp only
    split
    · exact h.setState hs (by decide)
    · exact h
  | init | enrolled | delayEnroll | waitEnroll | invalid => exact h

theorem Evidence.check (h : Evidence zone cie s) (sendOk : Bool) :
    Evidence zone cie (s.checkIasEnrollmentStatus now sendOk) := by
  have hvalid : Evidence zone cie (s.ensureValidState now) := h.ensureValidState
  obtain ⟨hproceed, hfresh⟩ := hvalid.proceed (ensureValidState_state_ne now)
  unfold checkIasEnrollmentStatus
  simp only
  split
  · exact hvalid
  · split
    · rename_i hclear
      rw [Bool.and_eq_true, Bool.not_eq_true', Bool.not_eq_true'] at hclear
      exact hproceed.enrolled hfresh hclear.1 hclear.2
    · exact hproceed.sendOrWait hfresh sendOk

theorem readAttribute_state (s : IasSensor) (r : Nat × Nat) :
    (s.readAttribute r).state = s.state := by
  obtain ⟨attrId, value⟩ := r
  simp only [readAttribute]
  split
  · split
    · rfl
    · split <;> rfl
  · split
    · split <;> rfl
    · rfl

theorem Evidence.readAttribute (h : Evidence zone cie s) {r : Nat × Nat}
    (hzone : ¬ s.Fresh → r.1 = iasZoneState → r.2 % 2 ^ 8 = 1 → zone)
    (hcie : ¬ s.Fresh → r.1 = iasCieAddress → IsAddress (r.2 % 2 ^ 64) → cie) :
    Evidence zone cie (s.readAttribute r) := by
  obtain ⟨attrId, value⟩ := r
  have hstate := readAttribute_state s (attrId, value)
  by_cases hfresh : s.Fresh
  · refine .inl ?_
    unfold Fresh
    rw [hstate]
    exact hfresh
  rcases h with hfresh' | ⟨hz, hc, henrolled⟩
  · exact absurd hfresh' hfresh
  refine .inr ⟨?_, ?_, by rw [hstate]; exact henrolled⟩
  · simp only [IasSensor.readAttribute]
    split
    · rename_i hattr
      split
      · rename_i hvalue
        exact .inr (hzone hfresh hattr hvalue)
      · split
        · exact .inl (hasFlags_setFlags _ 5)
        · exact hz
    · split
      · split
        · rw [zonePending, pendingEnrollResponse, pendingWriteCieAddress,
            hasFlags_clearFlags_other _ (by decide) (by decide)]
          exact hz
        · rw [zonePending, pendingEnrollResponse, pendingWriteCieAddress,
            hasFlags_setFlags_other _ (by decide) (by decide)]
          exact hz
      · exact hz
  · simp only [IasSensor.readAttribute]
    split
    · split
      · rw [ciePending, pendingEnrollResponse, pendingWriteCieAddress,
          hasFlags_clearFlags_other _ (by decide) (by decide)]
        exact hc
      · split
        · rw [ciePending, pendingEnrollResponse, pendingWriteCieAddress,
            hasFlags_setFlags_other _ (by decide) (by decide)]
          exact hc
        · exact hc
    · split
      · rename_i hattr
        split
        · rename_i haddress
          exact .inr (hcie hfresh hattr haddress)
        · exact .inl (hasFlags_setFlags _ 4)
      · exact hc

theorem Evidence.readAttributes {reported : List (Nat × Nat)} (h : Evidence zone cie s)
    (hzone : ¬ s.Fresh → ∀ r ∈ reported, r.1 = iasZoneState → r.2 % 2 ^ 8 = 1 → zone)
    (hcie : ¬ s.Fresh → ∀ r ∈ reported, r.1 = iasCieAddress → IsAddress (r.2 % 2 ^ 64) → cie) :
    Evidence zone cie (reported.foldl IasSensor.readAttribute s) := by
  induction reported generalizing s with
  | nil => exact h
  | cons r reported ih =>
    have hfresh : (s.readAttribute r).Fresh ↔ s.Fresh := by
      unfold Fresh
      rw [readAttribute_state]
    rw [List.foldl_cons]
    refine ih ?_ ?_ ?_
    · exact h.readAttribute (fun hs => hzone hs r List.mem_cons_self)
        (fun hs => hcie hs r List.mem_cons_self)
    · intro hs x hx
      exact hzone (fun h => hs (hfresh.mpr h)) x (List.mem_cons_of_mem r hx)
    · intro hs x hx
      exact hcie (fun h => hs (hfresh.mpr h)) x (List.mem_cons_of_mem r hx)

theorem Evidence.decideNext (h : Evidence zone cie s) : Evidence zone cie (s.decideNext now) := by
  unfold IasSensor.decideNext
  split
  · rename_i hwait
    have hfresh : ¬ s.Fresh := by
      rintro (hs | hs) <;> rw [hwait] at hs <;> exact IasState.noConfusion hs
    split
    · exact h.setState hfresh (by decide)
    · rename_i hcie
      split
      · exact h.setState hfresh (by decide)
      · rename_i hzone
        exact h.enrolled hfresh (by simpa [zonePending] using hzone)
          (by simpa [ciePending] using hcie)
  · exact h

/-- **One step.**  It keeps the evidence, if the reports of the step are part of it
where the sensor was not in a fresh state. -/
theorem Evidence.step (h : Evidence zone cie s) (act : IasAction)
    (hzone : ¬ s.Fresh → ReportsZoneState act → zone)
    (hcie : ¬ s.Fresh → ∀ address, IsAddress address → ReportsCieAddress act address → cie) :
    Evidence zone cie (s.step act) := by
  unfold IasSensor.step
  cases act with
  | check now sendOk => exact h.check sendOk
  | announce now => exact .inl (.inl rfl)
  | attributes now sendOk isReadAttr records =>
    simp only
    split
    · refine (Evidence.decideNext ?_).check sendOk
      refine h.ensureValidState.readAttributes ?_ ?_
      · rw [ensureValidState_fresh]
        rintro hs ⟨attrId, value⟩ hr rfl hvalue
        exact hzone hs ⟨value, hr, hvalue⟩
      · rw [ensureValidState_fresh]
        rintro hs ⟨attrId, value⟩ hr rfl haddress
        exact hcie hs _ haddress ⟨value, hr, rfl⟩
    · exact h
  | statusChange now sendOk =>
    simp only
    split
    · exact h.ensureValidState.check sendOk
    · exact h
  | enrollRequest now sendOk =>
    simp only
    split
    · split
      · rename_i hs
        refine (h.ensureValidState.setState ?_ (by decide)).check sendOk
        rintro (hfresh | hfresh) <;> rw [hfresh] at hs <;> simp at hs
      · exact h.ensureValidState
    · exact h
  | writeResponse now sendOk =>
    simp only
    split
    · refine Evidence.check ?_ sendOk
      split
      · rename_i hs
        refine h.ensureValidState.setState ?_ (by decide)
        rintro (hfresh | hfresh) <;> rw [hfresh] at hs <;> simp at hs
      · exact h.ensureValidState
    · exact h

/-! ## Whole runs -/

/-- The sensor before step `n` of a run. -/
def sensorAt (s : IasSensor) (acts : List IasAction) (n : Nat) : IasSensor :=
  Transition.stateAt IasSensor.step s acts n

/-- Some step after step `k` and before moment `n` is of the given kind. -/
def Between (acts : List IasAction) (k n : Nat) (kind : IasAction → Prop) : Prop :=
  ∃ i act, k < i ∧ i < n ∧ acts[i]? = some act ∧ kind act

theorem Between.mono {acts : List IasAction} {k m n : Nat} {kind : IasAction → Prop}
    (h : Between acts k m kind) (hmn : m ≤ n) : Between acts k n kind := by
  obtain ⟨i, act, hki, him, hact, hkind⟩ := h
  exact ⟨i, act, hki, by omega, hact, hkind⟩

/-- Moment `k` is the most recent one, up to moment `n`, in the init state. -/
def LastInit (s : IasSensor) (acts : List IasAction) (k n : Nat) : Prop :=
  k ≤ n ∧ (sensorAt s acts k).state = .init ∧ ∀ l, k < l → l ≤ n → (sensorAt s acts l).state ≠ .init

/-- Some CIE address is reported, other than the two that stand for none. -/
def ReportsSomeAddress (act : IasAction) : Prop :=
  ∃ address, IsAddress address ∧ ReportsCieAddress act address

theorem Evidence.mono {zone' cie' : Prop} (h : Evidence zone cie s) (hzone : zone → zone')
    (hcie : cie → cie') : Evidence zone' cie' s := by
  rcases h with hfresh | ⟨hz, hc, henrolled⟩
  · exact .inl hfresh
  · refine .inr ⟨hz.imp_right hzone, hc.imp_right hcie, ?_⟩
    intro hs
    exact (henrolled hs).imp hzone hcie

theorem evidence_since (s : IasSensor) (acts : List IasAction) {k n : Nat}
    (hk : (sensorAt s acts k).state = .init) (hkn : k + 1 ≤ n) (hn : n ≤ acts.length) :
    Evidence (Between acts k n ReportsZoneState) (Between acts k n ReportsSomeAddress)
      (sensorAt s acts n) := by
  induction n, hkn using Nat.le_induction with
  | base =>
    have hlt : k < acts.length := by omega
    rw [sensorAt, Transition.stateAt_succ _ _ _ hlt]
    have hfresh : (sensorAt s acts k).Fresh := .inl hk
    refine Evidence.step (.inl hfresh) acts[k] ?_ ?_
    · exact fun hs => absurd hfresh hs
    · exact fun hs => absurd hfresh hs
  | succ n hkn ih =>
    have hlt : n < acts.length := by omega
    have hact : acts[n]? = some acts[n] := List.getElem?_eq_getElem hlt
    have hstep : sensorAt s acts (n + 1) = (sensorAt s acts n).step acts[n] :=
      Transition.stateAt_succ _ _ _ hlt
    rw [hstep]
    have hbefore := ih (by omega)
    refine (hbefore.mono ?_ ?_).step acts[n] ?_ ?_
    · exact fun h => h.mono (by omega)
    · exact fun h => h.mono (by omega)
    · intro _ hreport
      exact ⟨n, acts[n], by omega, by omega, hact, hreport⟩
    · intro _ address haddress hreport
      exact ⟨n, acts[n], by omega, by omega, hact, address, haddress, hreport⟩

theorem exists_lastInit {s : IasSensor} (hinit : s.state = .init) (acts : List IasAction)
    (n : Nat) : ∃ k, LastInit s acts k n := by
  induction n with
  | zero => exact ⟨0, Nat.le_refl 0, hinit, fun l hl hl0 => by omega⟩
  | succ n ih =>
    by_cases hs : (sensorAt s acts (n + 1)).state = .init
    · exact ⟨n + 1, Nat.le_refl _, hs, fun l hl hln => by omega⟩
    · obtain ⟨k, hkn, hk, hlast⟩ := ih
      refine ⟨k, by omega, hk, ?_⟩
      intro l hkl hln
      rcases Nat.le_succ_iff.mp hln with hle | rfl
      · exact hlast l hkl hle
      · exact hs

/-- **The enrollment is sound without foreign addresses.**  In every run, from the
init state, of a sensor that reports no CIE address but 0, all ones and the
address `mac` of the gateway: whenever it is enrolled it has reported, since the
most recent init state, the zone state 1 and the address of the gateway. -/
theorem enrolled_only_after_reports (mac : Nat) {s : IasSensor} (hinit : s.state = .init)
    (acts : List IasAction)
    (hown : ∀ act ∈ acts, ∀ address, ReportsCieAddress act address → IsAddress address → address =
      mac)
    {n : Nat} (hn : n ≤ acts.length) (henrolled : (sensorAt s acts n).state = .enrolled) :
    ∃ k, LastInit s acts k n ∧ Between acts k n ReportsZoneState ∧
      Between acts k n fun act => ReportsCieAddress act mac := by
  obtain ⟨k, hlast⟩ := exists_lastInit hinit acts n
  have hkn : k ≤ n := hlast.1
  have hk : (sensorAt s acts k).state = .init := hlast.2.1
  have hne : k ≠ n := by
    rintro rfl
    rw [hk] at henrolled
    exact IasState.noConfusion henrolled
  rcases evidence_since s acts hk (by omega) hn with hfresh | ⟨-, -, hreports⟩
  · rcases hfresh with hs | hs <;> rw [henrolled] at hs <;> exact IasState.noConfusion hs
  · obtain ⟨hzone, i, act, hki, hin, hact, address, haddress, hreport⟩ := hreports henrolled
    have hmac := hown act (List.mem_of_getElem? hact) address hreport haddress
    rw [hmac] at hreport
    exact ⟨k, hlast, hzone, i, act, hki, hin, hact, hreport⟩

def createdSensor : IasSensor :=
  { state := .init, lastSet := 0, pending := 0, hasInCluster := true }

def readOnce (address : Nat) : List IasAction :=
  [.check 0 true,
    .attributes 100 true true
      [{ attrId := iasZoneState, value := some 1 },
        { attrId := iasCieAddress, value := some address }]]

theorem readOnce_reports {address address' : Nat} {act : IasAction}
    (hact : act ∈ readOnce address) (h : ReportsCieAddress act address') :
    address' = address % 2 ^ 64 := by
  obtain ⟨value, hvalue, rfl⟩ := h
  have hmem : act = .check 0 true ∨ act = .attributes 100 true true
      [{ attrId := iasZoneState, value := some 1 },
        { attrId := iasCieAddress, value := some address }] := by
    simpa [readOnce] using hact
  rcases hmem with rfl | rfl
  · exact absurd hvalue List.not_mem_nil
  · have hpair : value = address := by
      simpa [IasAction.reported, AttrRecord.reported, iasZoneState, iasCieAddress] using hvalue
    rw [hpair]

theorem enrolled_only_after_reports_readOnce :
    (sensorAt createdSensor (readOnce 0x00212EFFFF000001) 2).state = .enrolled ∧
      ∃ k, LastInit createdSensor (readOnce 0x00212EFFFF000001) k 2 ∧
        Between (readOnce 0x00212EFFFF000001) k 2 ReportsZoneState ∧
        Between (readOnce 0x00212EFFFF000001) k 2 fun act =>
          ReportsCieAddress act 0x00212EFFFF000001 := by
  have henrolled : (sensorAt createdSensor (readOnce 0x00212EFFFF000001) 2).state = .enrolled := by
    decide
  refine ⟨henrolled, enrolled_only_after_reports _ rfl _ ?_ (by decide) henrolled⟩
  intro act hact address hreport _
  exact (readOnce_reports hact hreport).trans (by decide)

/-- A foreign CIE address enrolls the sensor as well: it never reported the address
of the gateway. -/
theorem enrolled_with_foreign_address :
    ¬ ∀ (mac : Nat) (s : IasSensor) (acts : List IasAction) (n : Nat), s.state = .init → n <
        acts.length → (sensorAt s acts n).state ≠ .enrolled →
        (sensorAt s acts (n + 1)).state = .enrolled →
        ∃ k, LastInit s acts k n ∧ ∃ i act, k ≤ i ∧ i ≤ n ∧ acts[i]? = some act ∧
          ReportsCieAddress act mac := by
  intro hclaim
  obtain ⟨k, -, i, act, -, hi, hact, hreport⟩ :=
    hclaim 0x00212EFFFF000001 createdSensor (readOnce 0x0011223344556677) 1 rfl (by decide)
      (by decide) (by decide)
  have hforeign := readOnce_reports (List.mem_of_getElem? hact) hreport
  exact absurd hforeign (by decide)

end IasSensor
end Ias
end DeconzRest

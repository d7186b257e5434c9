import DeconzRest.Alarm.DeviceTable
import DeconzRest.Alarm.Requests

/-!
# The code in an arm command

A keypad sends the code as a pascal string behind the arm mode.  The length octet is read as a
`char`, which is signed: from 0x80 on the length is negative, passes the comparison with the size
of the payload, and Qt is asked for a text of negative size.  A length that is too large makes the
code "invalid_code", which is verified like any other code.

`code_honoured_iff` says what is left of both: a payload is treated as declared exactly where
neither of the two happens, or where it does no harm.
-/

namespace DeconzRest

open QString List Option

/-- What the code asks of others: the hash of a password with the parameters in a stored hash,
and the text that Qt makes of a negative size other than -1. -/
structure CodeEnv where
  rehash : List UInt8 → List UInt8 → Option (List UInt8)
  negativeSize : Int → List UInt8 → QString

structure ArmStore where
  alarmSystems : List AlarmSystem
  table : List TableEntry
  secrets : QString → Option (List UInt8)

namespace ArmStore

def belongs (w : ArmStore) (srcExtAddress : Nat) (as : AlarmSystem) : Bool :=
  (w.table.find? fun entry => entry.extAddress == srcExtAddress).any fun entry =>
    entry.isValid && ((entry.alarmSystemId : Int) == as.id)

/-- `AS_GetAlarmSystemForDevice` -/
def getAlarmSystemForDevice (w : ArmStore) (extAddress : Nat) : Option Nat :=
  w.alarmSystems.findIdx? (w.belongs extAddress)

/-- `AS_ID_CODE0` -/
def idCode0 (id : Int) : QString :=
  arg (ofLatin1 "as_%1_code0") (number id)

/-- `CRYPTO_ScryptVerify` -/
def scryptVerify (env : CodeEnv) (phcHash password : List UInt8) : Bool :=
  if phcHash = [] ∨ password = [] then false else env.rehash phcHash password == some phcHash

/-- `AlarmSystem::isValidCode` -/
def isValidCode (env : CodeEnv) (w : ArmStore) (as : AlarmSystem) (code : QString)
    (srcExtAddress : Nat) : Bool :=
  if srcExtAddress ≠ 0 ∧ w.belongs srcExtAddress as = false then
    false
  else
    match w.secrets (idCode0 as.id) with
    | some secret => scryptVerify env secret (toUtf8 code)
    | none => false

end ArmStore

/-- The value of a signed `char` -/
def signedChar (b : UInt8) : Int := if b.toNat < 128 then b.toNat else b.toNat - 256

/-- `QString::fromUtf8` with a size; for -1 the octets end at the first NUL. -/
def fromUtf8Sized (env : CodeEnv) (size : Int) (octets : List UInt8) : QString :=
  if 0 ≤ size then fromUtf8 (octets.take size.toNat)
  else if size = -1 then fromUtf8 (cString octets)
  else env.negativeSize size octets

/-- The code of an arm command, and the response where no alarm system answers -/
def armCode (env : CodeEnv) (payload : List UInt8) : QString × Nat :=
  if 2 < payload.length then
    let length := signedChar (payload.getD 1 0)
    if length ≤ (payload.length : Int) - 2 then
      (fromUtf8Sized env length (payload.drop 2), 5)
    else
      (ofLatin1 "invalid_code", 4)
  else
    ([], 5)

/-- What an arm command brings about: the alarm systems, the response if there is one, and the
code that was verified. -/
structure ArmResult where
  alarmSystems : List AlarmSystem
  armRsp : Option Nat := none
  verified : Option QString := none

/-- The branch of `IAS_IasAceClusterIndication` for `IAS_ACE_CMD_ARM` -/
def armCommand (env : CodeEnv) (w : ArmStore) (srcExtAddress : Nat) (payload : List UInt8) :
    ArmResult :=
  match payload with
  | armMode :: _ :: _ =>
    if 3 < armMode.toNat then
      { alarmSystems := w.alarmSystems }
    else
      let code := armCode env payload
      match w.getAlarmSystemForDevice srcExtAddress with
      | none => { alarmSystems := w.alarmSystems, armRsp := some code.2 }
      | some i =>
        match w.alarmSystems[i]? with
        | none => { alarmSystems := w.alarmSystems, armRsp := some code.2 }
        | some as =>
          let r := as.handleArmCommand armMode.toNat
            (w.isValidCode env as code.1 srcExtAddress)
          { alarmSystems := w.alarmSystems.set i r.1
            armRsp := some r.2
            verified := some code.1 }
  | _ => { alarmSystems := w.alarmSystems }

def declaredLength (payload : List UInt8) : Nat := (payload.getD 1 0).toNat

def present (payload : List UInt8) : List UInt8 := payload.drop 2

def declaredCode (payload : List UInt8) : QString :=
  fromUtf8 ((present payload).take (declaredLength payload))

/-- The code that is verified is the declared one, and a declared length above the octets that are
present changes no alarm system. -/
structure HonoursCode (env : CodeEnv) (w : ArmStore) (srcExtAddress : Nat) (payload : List UInt8) :
    Prop where
  declared : declaredLength payload ≤ (present payload).length →
    ∀ code, (armCommand env w srcExtAddress payload).verified = some code → code =
      declaredCode payload
  exceeding : (present payload).length < declaredLength payload →
    (armCommand env w srcExtAddress payload).alarmSystems = w.alarmSystems

/-- A request for the mode would be heeded: it is a mode other than the target, and not the one
that is requested already. -/
def AlarmSystem.Heeds (as : AlarmSystem) (armMode : Nat) : Prop :=
  ∃ mode, ArmMode.ofNat? armMode = some mode ∧ mode ≠ as.targetState ∧ as.text .armMode ≠
    mode.toString

/-- The code that stands in for a declared length above the octets that are present -/
def standIn (env : CodeEnv) (payload : List UInt8) : QString :=
  if declaredLength payload < 128 then ofLatin1 "invalid_code"
  else fromUtf8Sized env ((declaredLength payload : Int) - 256) (present payload)

/-- The condition: where a code is present and an alarm system answers, a length that fits is less
than 0x80 or Qt makes the declared text of the negative size, and the code that stands in for a
length that does not fit is not a code of the alarm system, or nothing would be heeded. -/
def CodeSafe (env : CodeEnv) (w : ArmStore) (srcExtAddress : Nat) (payload : List UInt8) : Prop :=
  ∀ i as, w.getAlarmSystemForDevice srcExtAddress = some i → w.alarmSystems[i]? = some as →
    present payload ≠ [] → (payload.getD 0 0).toNat ≤ 3 →
    if declaredLength payload ≤ (present payload).length then
      declaredLength payload < 128 ∨
        fromUtf8Sized env ((declaredLength payload : Int) - 256) (present payload) =
          declaredCode payload
    else
      w.isValidCode env as (standIn env payload) srcExtAddress = true →
        ¬ as.Heeds (payload.getD 0 0).toNat

theorem setTargetArmMode_eq_self_iff (as : AlarmSystem) (n : Nat) :
    (as.setTargetArmMode n).1 = as ↔ ¬ as.Heeds n := by
  unfold AlarmSystem.setTargetArmMode AlarmSystem.Heeds
  cases hmode : ArmMode.ofNat? n with
  | none => simp
  | some mode =>
    by_cases hsame : mode = as.targetState
    · simp [hsame]
    · by_cases htext : as.text .armMode = mode.toString
      · simp [hsame, AlarmSystem.setText, htext]
      · -- the written mode emits an event
        have hchanged : (as.setText .armMode mode.toString).1 ≠ as := by
          unfold AlarmSystem.setText
          rw [if_pos htext]
          intro h
          have hlength := congrArg (fun as : AlarmSystem => as.emitted.length) h
          simp [AlarmSystem.emitItem, AlarmSystem.setItem] at hlength
        simp [hsame, htext, hchanged]

theorem handleArmCommand_eq_self_iff (as : AlarmSystem) (n : Nat) (validCode : Bool) :
    (as.handleArmCommand n validCode).1 = as ↔ (validCode = true → ¬ as.Heeds n) := by
  rw [ArmWorld.handleArmCommand_eq]
  split
  · rename_i h
    rw [setTargetArmMode_eq_self_iff]
    exact ⟨fun hno _ => hno, fun hno => hno h.1⟩
  · rename_i h
    refine ⟨fun _ hvalid hheeds => h ⟨hvalid, ?_⟩, fun _ => rfl⟩
    obtain ⟨mode, hmode, hne, -⟩ := hheeds
    intro hsame
    rw [← hsame, ArmMode.ofNat?_toNat] at hmode
    exact hne (some.inj hmode).symm

theorem isValidCode_nil (env : CodeEnv) (w : ArmStore) (as : AlarmSystem) (srcExtAddress : Nat) :
    w.isValidCode env as [] srcExtAddress = false := by
  unfold ArmStore.isValidCode
  split
  · rfl
  · split
    · exact if_pos (.inr rfl)
    · rfl

section Code

variable (env : CodeEnv) (armMode length : UInt8) (rest : List UInt8)

theorem present_cons : present (armMode :: length :: rest) = rest := rfl

theorem declaredLength_cons : declaredLength (armMode :: length :: rest) = length.toNat := rfl

theorem armCode_of_fits (hne : rest ≠ []) (hlow : length.toNat < 128)
    (hfits : length.toNat ≤ rest.length) :
    (armCode env (armMode :: length :: rest)).1 = declaredCode (armMode :: length :: rest) := by
  have hpos := length_pos_iff.mpr hne
  have hsigned : signedChar length = length.toNat := if_pos hlow
  unfold armCode
  rw [if_pos (by simp only [length_cons]; omega)]
  simp only [getD_cons_succ, getD_cons_zero, hsigned]
  rw [if_pos (by simp only [length_cons]; omega)]
  unfold fromUtf8Sized
  rw [if_pos (Int.natCast_nonneg _), Int.toNat_natCast]
  rfl

theorem armCode_of_exceeds (hne : rest ≠ []) (hlow : length.toNat < 128)
    (hexceeds : rest.length < length.toNat) :
    (armCode env (armMode :: length :: rest)).1 = ofLatin1 "invalid_code" := by
  have hpos := length_pos_iff.mpr hne
  have hsigned : signedChar length = length.toNat := if_pos hlow
  unfold armCode
  rw [if_pos (by simp only [length_cons]; omega)]
  simp only [getD_cons_succ, getD_cons_zero, hsigned]
  rw [if_neg (by simp only [length_cons]; omega)]

theorem armCode_of_negative (hne : rest ≠ []) (hhigh : ¬ length.toNat < 128) :
    (armCode env (armMode :: length :: rest)).1 =
      fromUtf8Sized env ((length.toNat : Int) - 256) rest := by
  have hpos := length_pos_iff.mpr hne
  have hoctet := length.toNat_lt
  have hsigned : signedChar length = (length.toNat : Int) - 256 := if_neg hhigh
  unfold armCode
  rw [if_pos (by simp only [length_cons]; omega)]
  simp only [getD_cons_succ, getD_cons_zero, hsigned]
  rw [if_pos (by simp only [length_cons]; omega)]
  rfl

theorem armCode_of_nil : (armCode env [armMode, length]).1 = [] := rfl

end Code

/-! ## The command -/

section Command

variable {env : CodeEnv} {w : ArmStore} {src : Nat} {armMode length : UInt8} {rest : List UInt8}

theorem honoursCode_of_unverified {payload : List UInt8}
    (hverified : (armCommand env w src payload).verified = none)
    (hsystems : (armCommand env w src payload).alarmSystems = w.alarmSystems) :
    HonoursCode env w src payload where
  declared := by
    intro _ code hcode
    rw [hverified] at hcode
    cases hcode
  exceeding := fun _ => hsystems

variable {i : Nat} {as : AlarmSystem}

theorem armCommand_answered (hi : w.getAlarmSystemForDevice src = some i)
    (has : w.alarmSystems[i]? = some as) (hmode : armMode.toNat ≤ 3) :
    armCommand env w src (armMode :: length :: rest) =
      let code := armCode env (armMode :: length :: rest)
      let r := as.handleArmCommand armMode.toNat (w.isValidCode env as code.1 src)
      { alarmSystems := w.alarmSystems.set i r.1, armRsp := some r.2, verified := some code.1 } := by
  have hvalid : ¬ 3 < armMode.toNat := by omega
  simp only [armCommand, if_neg hvalid, hi, has]

theorem set_eq_self_iff {systems : List AlarmSystem} {as as' : AlarmSystem}
    (has : systems[i]? = some as) : systems.set i as' = systems ↔ as' = as := by
  obtain ⟨hi, hvalue⟩ := List.getElem?_eq_some_iff.mp has
  constructor
  · intro h
    have hself := List.getElem?_set_self (a := as') hi
    rw [h, has] at hself
    exact (some.inj hself).symm
  · rintro rfl
    rw [← hvalue, set_getElem_self]

theorem honoursCode_answered (hi : w.getAlarmSystemForDevice src = some i)
    (has : w.alarmSystems[i]? = some as) (hmode : armMode.toNat ≤ 3) :
    HonoursCode env w src (armMode :: length :: rest) ↔ if length.toNat ≤
      rest.length then
        (armCode env (armMode :: length :: rest)).1 = declaredCode (armMode :: length :: rest)
      else
        w.isValidCode env as (armCode env (armMode :: length :: rest)).1 src = true →
          ¬ as.Heeds armMode.toNat := by
  have hcommand := @armCommand_answered env w src armMode length rest i as hi has hmode
  by_cases hfits : length.toNat ≤ rest.length
  · rw [if_pos hfits]
    constructor
    · intro h
      exact h.declared hfits _ (by rw [hcommand])
    · intro hcode
      refine ⟨fun _ code hverified => ?_, fun hexceeds => absurd hfits (Nat.not_le.mpr hexceeds)⟩
      rw [hcommand] at hverified
      obtain rfl := some.inj hverified
      exact hcode
  · rw [if_neg hfits, ← handleArmCommand_eq_self_iff, ← set_eq_self_iff has]
    constructor
    · intro h
      have hsystems := h.exceeding (Nat.not_le.mp hfits)
      rw [hcommand] at hsystems
      exact hsystems
    · intro hsystems
      refine ⟨fun hle => absurd hle hfits, fun _ => ?_⟩
      rw [hcommand]
      exact hsystems

/-- What becomes of the code, by the length octet and the octets behind it -/
theorem code_cases (as : AlarmSystem) (armMode length : UInt8) (rest : List UInt8) :
    (if length.toNat ≤ rest.length then
        (armCode env (armMode :: length :: rest)).1 = declaredCode (armMode :: length :: rest)
      else
        w.isValidCode env as (armCode env (armMode :: length :: rest)).1 src = true →
          ¬ as.Heeds armMode.toNat) ↔
    (rest ≠ [] → if length.toNat ≤
      rest.length then
        length.toNat < 128 ∨ fromUtf8Sized env ((length.toNat : Int) - 256) rest =
          declaredCode (armMode :: length :: rest)
      else
        w.isValidCode env as (standIn env (armMode :: length :: rest)) src = true →
          ¬ as.Heeds armMode.toNat) := by
  by_cases hne : rest = []
  · -- an empty code is the declared one, or it is not valid
    subst hne
    refine ⟨fun _ h => absurd rfl h, fun _ => ?_⟩
    rw [armCode_of_nil]
    split
    · unfold declaredCode
      rw [present_cons, take_nil]
      rfl
    · intro hvalid
      rw [isValidCode_nil] at hvalid
      cases hvalid
  · rw [forall_prop_of_true hne]
    by_cases hfits : length.toNat ≤ rest.length
    · rw [if_pos hfits, if_pos hfits]
      by_cases hlow : length.toNat < 128
      · exact ⟨fun _ => .inl hlow, fun _ => armCode_of_fits env armMode length rest hne hlow hfits⟩
      · rw [armCode_of_negative env armMode length rest hne hlow]
        exact ⟨.inr, fun h => h.resolve_left hlow⟩
    · rw [if_neg hfits, if_neg hfits]
      unfold standIn
      rw [declaredLength_cons, present_cons]
      by_cases hlow : length.toNat < 128
      · rw [if_pos hlow, armCode_of_exceeds env armMode length rest hne hlow (Nat.not_le.mp hfits)]
      · rw [if_neg hlow, armCode_of_negative env armMode length rest hne hlow]

theorem codeSafe_answered (hi : w.getAlarmSystemForDevice src = some i)
    (has : w.alarmSystems[i]? = some as) (hmode : armMode.toNat ≤ 3) :
    CodeSafe env w src (armMode :: length :: rest) ↔ (rest ≠ [] → if length.toNat ≤
      rest.length then
        length.toNat < 128 ∨ fromUtf8Sized env ((length.toNat : Int) - 256) rest =
          declaredCode (armMode :: length :: rest)
      else
        w.isValidCode env as (standIn env (armMode :: length :: rest)) src = true →
          ¬ as.Heeds armMode.toNat) := by
  constructor
  · intro h hne
    exact h i as hi has hne hmode
  · intro h i' as' hi' has' hne _
    rw [hi] at hi'
    obtain rfl := some.inj hi'
    rw [has] at has'
    obtain rfl := some.inj has'
    exact h hne

/-- **The code of an arm command.**  A payload is treated as declared exactly where the condition
holds. -/
theorem code_honoured_iff (env : CodeEnv) (w : ArmStore) (srcExtAddress : Nat)
    (payload : List UInt8) :
    HonoursCode env w srcExtAddress payload ↔ CodeSafe env w srcExtAddress payload := by
  match payload with
  | [] | [_] =>
    refine ⟨fun _ i as _ _ hne => absurd rfl hne, fun _ => ?_⟩
    exact honoursCode_of_unverified rfl rfl
  | armMode :: length :: rest =>
    by_cases hmode : 3 < armMode.toNat
    · refine ⟨fun _ i as _ _ _ hle => absurd hle (Nat.not_le.mpr hmode), fun _ => ?_⟩
      have hcommand : armCommand env w srcExtAddress (armMode :: length :: rest) =
          { alarmSystems := w.alarmSystems } := if_pos hmode
      refine honoursCode_of_unverified ?_ ?_
      · rw [hcommand]
      · rw [hcommand]
    · have hle : armMode.toNat ≤ 3 := Nat.not_lt.mp hmode
      cases hi : w.getAlarmSystemForDevice srcExtAddress with
      | none =>
        refine ⟨fun _ i as hsome => ?_, fun _ => ?_⟩
        · rw [hi] at hsome
          cases hsome
        · refine honoursCode_of_unverified ?_ ?_
          · simp only [armCommand, if_neg hmode, hi]
          · simp only [armCommand, if_neg hmode, hi]
      | some i =>
        cases has : w.alarmSystems[i]? with
        | none =>
          refine ⟨fun _ i' as hi' has' => ?_, fun _ => ?_⟩
          · rw [hi] at hi'
            obtain rfl := some.inj hi'
            rw [has] at has'
            cases has'
          · refine honoursCode_of_unverified ?_ ?_
            · simp only [armCommand, if_neg hmode, hi, has]
            · simp only [armCommand, if_neg hmode, hi, has]
        | some as =>
          rw [honoursCode_answered hi has hle, codeSafe_answered hi has hle]
          exact code_cases as armMode length rest

end Command

/-- A store with one alarm system, one keypad and a code; the hash of a code is the code. -/
def oneCode (code : String) : ArmStore where
  alarmSystems := [AlarmSystem.started 1 [] true]
  table := [{ uniqueId := [0x31], extAddress := 5, flags := 8, alarmSystemId := 1, armMask := [] }]
  secrets := fun _ => some (toUtf8 (ofLatin1 code))

def plainCodeEnv : CodeEnv where
  rehash := fun _ password => some password
  negativeSize := fun _ _ => []

/-- Arm away with a length octet of 0xFF in front of the code 1234 and a zone id of 0: the code is
read up to the NUL, and the alarm system is armed.  With the code "invalid_code" a length of 9 in
front of one octet does the same. -/
theorem malformed_code_arms :
    ¬ HonoursCode plainCodeEnv (oneCode "1234") 5 [3, 0xFF, 0x31, 0x32, 0x33, 0x34, 0] ∧
      ¬ HonoursCode plainCodeEnv (oneCode "invalid_code") 5 [3, 9, 0x31] := by
  have hheeds : (AlarmSystem.started 1 [] true).Heeds 3 :=
    ⟨.armedAway, rfl, by decide, by decide⟩
  have hsystem : ∀ code, (oneCode code).getAlarmSystemForDevice 5 = some 0 := by
    intro code
    rfl
  refine ⟨fun h => ?_, fun h => ?_⟩
  · have hanswered := (honoursCode_answered (hsystem "1234") rfl (by decide)).mp h
    rw [if_neg (by decide)] at hanswered
    exact hanswered (by decide) hheeds
  · have hanswered := (honoursCode_answered (hsystem "invalid_code") rfl (by decide)).mp h
    rw [if_neg (by decide)] at hanswered
    exact hanswered (by decide) hheeds

end DeconzRest

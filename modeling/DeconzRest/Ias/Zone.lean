import Mathlib.Data.BitVec

/-!
# IAS zone enrollment

The enrollment of an IAS zone sensor is a state machine whose state is the number
of the item `config/enrolled`; the flags of `config/pending` say what is still to
be verified.  Three parts of the code move it: the handler of received frames
(`handleIasZoneClusterIndication`), the periodic check
(`checkIasEnrollmentStatus`), and a device announcement.

* A frame is taken after its header and payload are read: the attribute records
  of a read response or report, or the kind of the frame.  The frames are those
  for which the code finds this sensor.
* `apsdeDataRequest` and the like may fail; `sendOk` is their result.  No call of
  the check sends more than once.
* Times are in milliseconds.
* What `processIasZoneStatus` does to the state items of the sensor is left out.
-/

namespace DeconzRest
namespace Ias

/-- `IAS_STATE_*`; `invalid` stands for every number from `IAS_STATE_MAX` on. -/
inductive IasState where
  | init | enrolled | read | waitRead | writeCieAddr | waitWriteCieAddr
  | delayEnroll | enroll | waitEnroll | invalid
deriving DecidableEq, Repr

/-- `R_PENDING_WRITE_CIE_ADDRESS` -/
def pendingWriteCieAddress : BitVec 64 := BitVec.twoPow 64 4

/-- `R_PENDING_ENROLL_RESPONSE` -/
def pendingEnrollResponse : BitVec 64 := BitVec.twoPow 64 5

/-- `R_SetFlags` -/
def setFlags (num flags : BitVec 64) : BitVec 64 := num ||| flags

/-- `R_ClearFlags` -/
def clearFlags (num flags : BitVec 64) : BitVec 64 := num &&& ~~~flags

/-- `R_HasFlags` -/
def hasFlags (num flags : BitVec 64) : Bool := num &&& flags == flags

/-- Attribute ids of the IAS zone cluster. -/
def iasZoneState : Nat := 0x0000
def iasCieAddress : Nat := 0x0010

/-- A sensor with the items `config/enrolled` (its number and `lastSet`) and
`config/pending`. -/
structure IasSensor where
  state : IasState
  lastSet : Int
  pending : BitVec 64
  hasInCluster : Bool
deriving DecidableEq, Repr

/-- One attribute record of a read response or a report; the status is only in a
read response, and there is no value where it could not be read. -/
structure AttrRecord where
  attrId : Nat
  status : Nat := 0
  value : Option Nat
deriving DecidableEq, Repr

def AttrRecord.reported (isReadAttr : Bool) (r : AttrRecord) : Option (Nat × Nat) :=
  if isReadAttr && r.status != 0 then none else r.value.map fun v => (r.attrId, v)

namespace IasSensor

/-- `IAS_SetState` -/
def setState (now : Int) (state : IasState) (s : IasSensor) : IasSensor :=
  if s.state = state then s else { s with state := state, lastSet := now }

/-- `IAS_EnsureValidState` -/
def ensureValidState (now : Int) (s : IasSensor) : IasSensor :=
  if s.state = .invalid then { s with state := .init, lastSet := now } else s

/-- `itemIasState->lastSet().secsTo(now)` -/
def secsSince (now : Int) (s : IasSensor) : Int := (now - s.lastSet).tdiv 1000

/-- The first part of `checkIasEnrollmentStatus`: the states that are left without
sending anything. -/
def proceed (now : Int) (s : IasSensor) : IasSensor :=
  match s.state with
  | .init =>
    { s with pending := setFlags s.pending (pendingEnrollResponse ||| pendingWriteCieAddress) }
      |>.setState now .read
  | .delayEnroll => if 5 < s.secsSince now then s.setState now .enroll else s
  | .waitEnroll => if 2 < s.secsSince now then s.setState now .read else s
  | _ => s

/-- The last part of `checkIasEnrollmentStatus`: send what the state asks for, or
give up waiting. -/
def sendOrWait (now : Int) (sendOk : Bool) (s : IasSensor) : IasSensor :=
  match s.state with
  | .read => if sendOk then s.setState now .waitRead else s
  | .writeCieAddr =>
    if sendOk && hasFlags s.pending pendingWriteCieAddress then
      s.setState now .waitWriteCieAddr
    else
      s
  | .enroll => if sendOk then s.setState now .waitEnroll else s
  | .waitRead | .waitWriteCieAddr => if 8 < s.secsSince now then s.setState now .init else s
  | _ => s

/-- `checkIasEnrollmentStatus` -/
def checkIasEnrollmentStatus (now : Int) (sendOk : Bool) (s : IasSensor) : IasSensor :=
  let s := s.ensureValidState now
  if s.state = .enrolled ∨ s.hasInCluster = false then
    s
  else
    let s := s.proceed now
    if !hasFlags s.pending pendingEnrollResponse && !hasFlags s.pending pendingWriteCieAddress then
      s.setState now .enrolled
    else
      s.sendOrWait now sendOk

/-- The `switch` over the attribute of a record. -/
def readAttribute (s : IasSensor) : Nat × Nat → IasSensor
  | (attrId, value) =>
    if attrId = iasZoneState then
      if value % 2 ^ 8 = 1 then
        { s with pending := clearFlags s.pending pendingEnrollResponse }
      else if value % 2 ^ 8 = 0 then
        { s with pending := setFlags s.pending pendingEnrollResponse }
      else
        s
    else if attrId = iasCieAddress then
      if value % 2 ^ 64 ≠ 0 ∧ value % 2 ^ 64 ≠ 0xFFFFFFFFFFFFFFFF then
        { s with pending := clearFlags s.pending pendingWriteCieAddress }
      else
        { s with pending := setFlags s.pending pendingWriteCieAddress }
    else
      s

def decideNext (now : Int) (s : IasSensor) : IasSensor :=
  if s.state = .waitRead then
    if hasFlags s.pending pendingWriteCieAddress then
      s.setState now .writeCieAddr
    else if hasFlags s.pending pendingEnrollResponse then
      s.setState now .delayEnroll
    else
      s.setState now .enrolled
  else
    s

end IasSensor

/-- What can happen to a sensor: a received frame (attributes, a zone status
change, an enroll request, a write response), a call of the check by a timer, and
a device announcement. -/
inductive IasAction where
  | attributes (now : Int) (sendOk isReadAttr : Bool) (records : List AttrRecord)
  | statusChange (now : Int) (sendOk : Bool)
  | enrollRequest (now : Int) (sendOk : Bool)
  | writeResponse (now : Int) (sendOk : Bool)
  | check (now : Int) (sendOk : Bool)
  | announce (now : Int)
deriving DecidableEq, Repr

def IasAction.reported : IasAction → List (Nat × Nat)
  | .attributes _ _ isReadAttr records => records.filterMap (AttrRecord.reported isReadAttr)
  | _ => []

namespace IasSensor

/-- `handleIasZoneClusterIndication` for each kind of frame, the timer, and the
handler of device announcements.  Frames reach only a sensor that has the
cluster. -/
def step (s : IasSensor) (act : IasAction) : IasSensor :=
  match act with
  | .check now sendOk => s.checkIasEnrollmentStatus now sendOk
  | .announce now => { s with state := .init, lastSet := now }
  | .attributes now sendOk _ _ =>
    if s.hasInCluster then
      let s := act.reported.foldl readAttribute (s.ensureValidState now)
      (s.decideNext now).checkIasEnrollmentStatus now sendOk
    else
      s
  | .statusChange now sendOk =>
    if s.hasInCluster then
      (s.ensureValidState now).checkIasEnrollmentStatus now sendOk
    else
      s
  | .enrollRequest now sendOk =>
    if s.hasInCluster then
      let s := s.ensureValidState now
      if s.state = .delayEnroll ∨ s.state = .enroll then
        (s.setState now .enroll).checkIasEnrollmentStatus now sendOk
      else
        s
    else
      s
  | .writeResponse now sendOk =>
    if s.hasInCluster then
      let s := s.ensureValidState now
      let s := if s.state = .waitWriteCieAddr then s.setState now .read else s
      s.checkIasEnrollmentStatus now sendOk
    else
      s

end IasSensor
end Ias
end DeconzRest

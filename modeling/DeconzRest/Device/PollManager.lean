import DeconzRest.Qt.Time

/-!
# The poll manager

The manager keeps a queue of nodes with the items that are still to be polled.  Each time its timer
fires it takes one item of the front node, turns it into attributes of one cluster and asks the
node for them.  Attributes that the node reports itself are not asked for while their last report
is fresh.

A date is `none` where Qt has an invalid one.
-/

namespace DeconzRest
namespace PollManager

open QString List Option

/-- `deCONZ::ZclAttribute` -/
structure ZclAttribute where
  id : UInt16
  isAvailable : Bool := true
  dataType : UInt8
  text : QString := []
  lastRead : Int := 0
deriving DecidableEq

/-- `deCONZ::ZclCluster` -/
structure ZclCluster where
  id : UInt16
  attributes : List ZclAttribute
deriving DecidableEq

/-- `deCONZ::SimpleDescriptor` -/
structure SimpleDescriptor where
  endpoint : UInt8
  profileId : UInt16
  inClusters : List ZclCluster
deriving DecidableEq

/-- `NodeValue`; `isValid` says that its `updateType` is not `UpdateInvalid`. -/
structure NodeValue where
  isValid : Bool := false
  timestamp : Option Int := none
  timestampLastReport : Option Int := none
  endpoint : UInt8 := 0
  clusterId : UInt16 := 0
  attributeId : UInt16 := 0
  maxInterval : UInt16 := 0
deriving DecidableEq

structure TextItem where
  text : QString
  lastSet : Option Int := none
deriving DecidableEq

/-- What `LightNode` has besides -/
structure LightNode where
  manufacturerCode : UInt16
  manufacturer : QString
  haEndpoint : SimpleDescriptor
deriving DecidableEq

/-- `RestNodeBase` and its resource; `light` is there for a light and not for a sensor, and
`reachable` is `RStateReachable` of the one and `RConfigReachable` of the other. -/
structure RestNode where
  light : Option LightNode := none
  reachable : Option Bool := none
  on : Option Bool := none
  colorCapabilities : Option Int := none
  modelId : Option TextItem := none
  swVersion : Option TextItem := none
  simpleDescriptors : List SimpleDescriptor := []
  values : List NodeValue := []
deriving DecidableEq

namespace RestNode

/-- `RestNodeBase::getZclValue`; an endpoint of 0 means no check, and a value that is not there is
`m_invalidValue`. -/
def getZclValue (node : RestNode) (clusterId attributeId : UInt16) (endpoint : UInt8) : NodeValue :=
  (node.values.find? fun val => (endpoint == 0 || val.endpoint == endpoint) &&
    val.clusterId == clusterId && val.attributeId == attributeId).getD {}

/-- `getSimpleDescriptor` -/
def getSimpleDescriptor (node : RestNode) (endpoint : UInt8) : Option SimpleDescriptor :=
  node.simpleDescriptors.find? fun sd => sd.endpoint == endpoint

def cluster (node : RestNode) (endpoint : UInt8) (clusterId : UInt16) : Option ZclCluster :=
  (node.getSimpleDescriptor endpoint).bind fun sd => sd.inClusters.find? fun cl =>
    cl.id == clusterId

end RestNode

/-! ## Poll candidates -/

inductive Suffix where
  | stateOn | stateBri | stateColorMode | statePresence | stateLightLevel | stateConsumption
  | statePower | stateLift | attrModelId | attrSwVersion
deriving DecidableEq, Repr

def basicClusterId : UInt16 := 0x0000

def invalidClusterId : UInt16 := 0xffff

def zllProfileId : UInt16 := 0xc05e

def haProfileId : UInt16 := 0x0104

/-- What an item is turned into; a node can be changed on the way. -/
structure Candidates where
  node : RestNode
  clusterId : UInt16 := invalidClusterId
  attributes : List UInt16 := []
deriving DecidableEq

/-- `secsTo(now)`; 0 for an invalid date -/
def age (date : Option Int) (now : Int) : Int := date.elim 0 fun ms => QDateTime.secsTo ms now

def colorToCheck (cap : UInt16) : List UInt16 :=
  [0x0008, 0x4001] ++
    (if cap &&& 0x0002 ≠ 0 then [0x4000, 0x0001]
      else if cap &&& 0x0001 ≠ 0 then [0x0000, 0x0001] else []) ++
    (if cap &&& 0x0004 ≠ 0 then [0x4002] else []) ++
    (if cap &&& 0x0008 ≠ 0 then [0x0003, 0x0004] else []) ++
    (if cap &&& 0x0010 ≠ 0 then [0x0007] else [])

/-- The branch of `RStateColorMode` -/
def colorCandidates (node : RestNode) (light : LightNode) (isOn : Bool) : Candidates :=
  let unknown := node.colorCapabilities.all fun n => decide (n ≤ 0)
  -- XIAOMI, MUELLER, XAL and LEDVANCE
  if unknown ∧ (light.haEndpoint.profileId = zllProfileId ∨ light.manufacturerCode ∈
      [0x115f, 0x121b, 0x122a, 0x1189]) then
    let node :=
      if node.colorCapabilities.isSome ∧ node.modelId.map TextItem.text =
          some (ofLatin1 "lumi.light.aqcn02") then
        { node with colorCapabilities := some 0x0010 }
      else node
    { node, clusterId := 0x0300, attributes := [0x0008, 0x4001, 0x400a, 0x400b, 0x400c] }
  else
    let cap : UInt16 := UInt16.ofInt (node.colorCapabilities.getD 0)
    let cap := if cap = 0 ∧ light.haEndpoint.profileId = haProfileId then 0x0019 else cap
    let attributes :=
      match light.haEndpoint.inClusters.find? fun cl => cl.id == 0x0300 with
      | none => []
      | some cl =>
        cl.attributes.flatMap fun attr => (colorToCheck cap).filter fun attrId =>
          attrId == attr.id && attr.isAvailable &&
            (isOn || (node.getZclValue 0x0300 attrId 0).timestamp.isNone)
    { node, clusterId := 0x0300, attributes }

/-- A covering that does not say how often it reports is taken to report within 10 s. -/
def liftInterval : List NodeValue → List NodeValue
  | [] => []
  | val :: values =>
    if val.clusterId = 0x0102 ∧ val.attributeId = 0x0008 then
      (if val.isValid ∧ val.maxInterval = 0 then { val with maxInterval := 10 } else val) :: values
    else val :: liftInterval values

/-- The branch of `RAttrModelId` -/
def modelIdCandidates (node : RestNode) (now : Int) : Candidates :=
  match node.modelId with
  | some item =>
    if item.text = [] ∨
        (age item.lastSet now > 3600 ∧ startsWith item.text (ofLatin1 "FLS-A") = true) then
      { node, clusterId := basicClusterId, attributes := [0x0005] }
    else { node }
  | none => { node }

/-- The branch of `RAttrSwVersion` -/
def swVersionCandidates (node : RestNode) (light : LightNode) (now : Int) : Candidates :=
  match node.swVersion with
  | some item =>
    if item.text = [] ∨ age item.lastSet now > 3600 then
      let whenEmpty (attrId : UInt16) : Candidates :=
        if item.text = [] then { node, clusterId := basicClusterId, attributes := [attrId] }
        else { node }
      -- EMBER, a plug of Tuya
      if light.manufacturerCode = 0x1002 ∧ node.modelId.map TextItem.text =
          some (ofLatin1 "TS011F") then whenEmpty 0x0001
      -- UBISYS, EMBER, HEIMAN, XIAOMI and DEVELCO
      else if light.manufacturerCode ∈ [0x10f2, 0x1002, 0x120b, 0x115f, 0x1015] ∨
          startsWith light.manufacturer (ofLatin1 "Climax") = true ∨
          light.manufacturer = ofLatin1 "SZ" then whenEmpty 0x0006
      -- IKEA, OSRAM, OSRAM_STACK, XAL, PHILIPS and DDEL
      else if light.manufacturerCode ∈ [0x117c, 0x110c, 0xbbaa, 0x122a, 0x100b, 0x1135] then
        { node, clusterId := basicClusterId, attributes := [0x4000] }
      else whenEmpty 0x4000
    else { node }
  | none => { node }

/-- The cluster and the attributes that `PollManager::pollTimerFired` asks for an item -/
def candidates (now : Int) (node : RestNode) : Option Suffix → Candidates
  | some .stateOn =>
    if node.light.isSome then { node, clusterId := 0x0006, attributes := [0x0000] }
    else { node }
  | some .stateBri =>
    if node.on.getD false then { node, clusterId := 0x0008, attributes := [0x0000] }
    else { node }
  | some .stateColorMode =>
    match node.light with
    | some light => colorCandidates node light (node.on.getD false)
    | none => { node }
  | some .statePresence => { node, clusterId := 0x0406, attributes := [0x0000, 0x0010] }
  | some .stateLightLevel => { node, clusterId := 0x0400, attributes := [0x0000] }
  | some .stateConsumption => { node, clusterId := 0x0702, attributes := [0x0000, 0x0400] }
  | some .statePower => { node, clusterId := 0x0b04, attributes := [0x050b, 0x0505, 0x0508] }
  | some .stateLift =>
    { node := { node with values := liftInterval node.values }, clusterId := 0x0102,
      attributes := [0x0008] }
  | some .attrModelId => modelIdCandidates node now
  | some .attrSwVersion =>
    match node.light with
    | some light => swVersionCandidates node light now
    | none => { node }
  | none => { node }

/-- `reportWaitTime` -/
def reportWaitTime : UInt16 := 360

/-- The seconds that a report stays fresh; the `int` is put into a `quint16`. -/
def freshLimit (val : NodeValue) : UInt16 :=
  if 0 < val.maxInterval ∧ val.maxInterval < 65535 then
    UInt16.ofNat (val.maxInterval.toNat * 3 / 2)
  else reportWaitTime

def isFresh (now : Int) (val : NodeValue) : Bool :=
  match val.timestampLastReport with
  | none => false
  | some reported => decide (QDateTime.secsTo reported now < (freshLimit val).toNat)

/-- A string attribute which is available and empty, and was not read yet; `ZclCharacterString` is
0x42. -/
def isUnreadText (attr : ZclAttribute) : Bool :=
  attr.dataType == 0x42 && attr.text.isEmpty && decide (attr.lastRead ≤ 0)

/-- A turn of the inner loop over the poll candidates: the attributes that are kept, and how many of
them are fresh -/
def checkCandidate (now : Int) (node : RestNode) (clusterId : UInt16) (attr : ZclAttribute)
    (found : List UInt16 × Nat) (attrId : UInt16) : List UInt16 × Nat :=
  if attrId = attr.id ∧ attr.isAvailable then
    if isUnreadText attr then found
    else
      let check := found.1 ++ [attr.id]
      if clusterId = basicClusterId then (check, found.2) -- don't rely on reporting
      else if isFresh now (node.getZclValue clusterId attrId 0) then (check, found.2 + 1)
      else (check, found.2)
  else found

def checkCluster (now : Int) (node : RestNode) (cl : ZclCluster) (attributes : List UInt16) :
    List UInt16 × Nat :=
  cl.attributes.foldl
    (fun found attr => attributes.foldl (checkCandidate now node cl.id attr) found) ([], 0)

/-! ## The manager -/

/-- `PollManager::PollState` -/
inductive PollState where
  | idle | wait | done
deriving DecidableEq, Repr

/-- `PollItem` of the poll manager; a cleared item is a `nullptr`. -/
structure PollItem where
  id : QString
  light : Bool
  items : List (Option Suffix)
  tStart : Option Int := none
  endpoint : UInt8
  address : UInt64
deriving DecidableEq

structure Request where
  address : UInt64
  endpoint : UInt8
  clusterId : UInt16
  attributes : List UInt16
deriving DecidableEq, Repr

/-- `PollManager`.  The resources of the plugin are kept by their prefix, which is `RLights` or
`RSensors`, and their id; `dones` counts how often `done` was emitted, `pollDone` keeps the devices
that got `REventPollDone`, and `requests` the read requests that were sent, the last one in
front. -/
structure Manager where
  pollState : PollState := .idle
  items : List PollItem := []
  apsReqId : UInt8 := 0
  dstAddr : UInt64 := 0
  timer : Option Nat := none
  resource : Bool → QString → Option RestNode
  dones : Nat := 0
  pollDone : List UInt64 := []
  requests : List Request := []

/-- The clock, whether `DEV_GetDevice` finds a device, and `DeRestPluginPrivate::readAttributes`:
the id of the APS request that it puts into a task, if it does so. -/
structure World where
  now : Int
  getDevice : UInt64 → Bool
  readAttributes : RestNode → UInt8 → UInt16 → List UInt16 → Option UInt8

/-- `items.front() = items.back(); items.pop_back();` -/
def dropFront : List PollItem → List PollItem
  | [] => []
  | _ :: rest => rest.getLast?.toList ++ rest.dropLast

def swapFront : List PollItem → List PollItem
  | [] => []
  | pitem :: rest =>
    match rest.getLast? with
    | none => [pitem]
    | some back => back :: rest.dropLast ++ [pitem]

def moveToFront : List (Option Suffix) → List (Option Suffix)
  | none :: items =>
    match items.findIdx? Option.isSome with
    | some i => items.getD i none :: items.set i none
    | none => none :: items
  | items => items

namespace PollItem

def suffix (pitem : PollItem) : Option Suffix := (moveToFront pitem.items).head?.join

/-- `suffix = nullptr;` -/
def cleared (pitem : PollItem) : PollItem :=
  { pitem with items := (moveToFront pitem.items).set 0 none }

end PollItem

namespace Manager

def setNode (m : Manager) (pitem : PollItem) (node : RestNode) : Manager :=
  { m with resource := fun light id =>
      if light = pitem.light ∧ id = pitem.id then some node else m.resource light id }

/-- The rest of `PollManager::pollTimerFired`, when the candidates are collected -/
def ask (m : Manager) (w : World) (pitem : PollItem) (rest : List PollItem) (c : Candidates) :
    Manager :=
  let found : Option (List UInt16 × Nat) :=
    if c.clusterId = invalidClusterId then none
    else (c.node.cluster pitem.endpoint c.clusterId).map fun cl =>
      checkCluster w.now c.node cl c.attributes
  let cleared := pitem.cleared :: rest
  let giveUp : Manager :=
    if pitem.suffix.isSome then { m with items := cleared, timer := some 100 }
    else { m with items := dropFront (pitem :: rest), timer := some 100 }
  match found with
  | none => giveUp -- cluster doesn't exist
  | some (attributes, fresh) =>
    if 0 < fresh ∧ fresh = attributes.length then -- values are fresh enough
      { m with items := cleared, timer := some 100 }
    else if attributes = [] then giveUp
    else
      match w.readAttributes c.node pitem.endpoint c.clusterId attributes with
      | none => giveUp
      | some apsReqId =>
        { m with
          pollState := .wait
          apsReqId
          dstAddr := pitem.address
          timer := some 60000 -- wait for confirm
          items := cleared
          requests := ⟨pitem.address, pitem.endpoint, c.clusterId, attributes⟩ :: m.requests }

def pollFront (m : Manager) (w : World) (pitem : PollItem) (rest : List PollItem) : Manager :=
  if pitem.tStart.any fun tStart => decide (w.now < tStart) then
    { m with items := swapFront (pitem :: rest), timer := some 1 }
  else
    match m.resource pitem.light pitem.id with
    | none => { m with items := dropFront (pitem :: rest), timer := some 1 }
    | some node =>
      if pitem.items = [] ∨ node.reachable ≠ some true then
        { m with items := dropFront (pitem :: rest), timer := some 1 }
      else
        let c := candidates w.now node pitem.suffix
        (m.setNode pitem c.node).ask w pitem rest c

/-- `PollManager::pollTimerFired` -/
def pollTimerFired (m : Manager) (w : World) : Manager :=
  match m.pollState with
  | .done =>
    let pollDone := if w.getDevice m.dstAddr then m.dstAddr :: m.pollDone else m.pollDone
    { m with pollState := .idle, timer := some 50, pollDone, dones := m.dones + 1 }
  | .idle | .wait => -- a timeout when it waits
      let m := { m with pollState := .idle }
      match m.items with
      | [] => { m with pollState := .done, timer := some 500 }
      | pitem :: rest => m.pollFront w pitem rest

end Manager

/-! ## What the loops find -/

def isChecked (attr : ZclAttribute) (attrId : UInt16) : Bool :=
  attrId == attr.id && attr.isAvailable && !isUnreadText attr

def checked (cl : ZclCluster) (attributes : List UInt16) : List UInt16 :=
  cl.attributes.flatMap fun attr => attributes.filter (isChecked attr)

section

variable {now : Int} {node : RestNode} {clusterId : UInt16}

def countFresh (now : Int) (node : RestNode) (clusterId : UInt16) (attributes : List UInt16) :
    Nat :=
  attributes.countP fun attrId => isFresh now (node.getZclValue clusterId attrId 0)

theorem checkCandidate_eq (hbasic : clusterId ≠ basicClusterId) (attr : ZclAttribute)
    (found : List UInt16 × Nat) (attrId : UInt16) :
    checkCandidate now node clusterId attr found attrId =
      (found.1 ++ [attrId].filter (isChecked attr), found.2 +
        countFresh now node clusterId ([attrId].filter (isChecked attr))) := by
  unfold checkCandidate
  by_cases hcandidate : attrId = attr.id ∧ attr.isAvailable
  · obtain ⟨rfl, havailable⟩ := hcandidate
    cases htext : isUnreadText attr with
    | true => simp [isChecked, htext, havailable, countFresh]
    | false =>
      have hkept : [attr.id].filter (isChecked attr) = [attr.id] := by
        simp [isChecked, htext, havailable]
      rw [if_pos ⟨rfl, havailable⟩, hkept, if_neg Bool.false_ne_true, if_neg hbasic]
      unfold countFresh
      rw [countP_singleton]
      split
      · rfl
      · rfl
  · have hnot : [attrId].filter (isChecked attr) = [] := by
      rw [filter_eq_nil_iff]
      intro candidate hmem hchecked
      obtain rfl := mem_singleton.mp hmem
      simp only [isChecked, Bool.and_eq_true, beq_iff_eq] at hchecked
      exact hcandidate hchecked.1
    rw [if_neg hcandidate, hnot, append_nil]
    rfl

theorem foldl_checkCandidate (hbasic : clusterId ≠ basicClusterId) (attr : ZclAttribute)
    (attributes : List UInt16) (found : List UInt16 × Nat) :
    attributes.foldl (checkCandidate now node clusterId attr) found =
      (found.1 ++ attributes.filter (isChecked attr), found.2 +
        countFresh now node clusterId (attributes.filter (isChecked attr))) := by
  induction attributes generalizing found with
  | nil => simp [countFresh]
  | cons attrId attributes ih =>
    have hcons : (attrId :: attributes).filter (isChecked attr) =
        [attrId].filter (isChecked attr) ++ attributes.filter (isChecked attr) :=
      filter_append (p := isChecked attr) [attrId] attributes
    rw [foldl_cons, ih, checkCandidate_eq hbasic, hcons]
    unfold countFresh
    rw [countP_append, append_assoc, Nat.add_assoc]

/-- **Both loops**: what is kept, and how many of it are fresh -/
theorem checkCluster_eq {cl : ZclCluster} (hbasic : cl.id ≠ basicClusterId)
    (attributes : List UInt16) : checkCluster now node cl attributes =
      (checked cl attributes, countFresh now node cl.id (checked cl attributes)) := by
  have hloop (attrs : List ZclAttribute) (found : List UInt16 × Nat) :
      attrs.foldl (fun found attr =>
          attributes.foldl (checkCandidate now node cl.id attr) found) found =
        (found.1 ++ attrs.flatMap fun attr => attributes.filter (isChecked attr), found.2 +
          countFresh now node cl.id
            (attrs.flatMap fun attr => attributes.filter (isChecked attr))) := by
    induction attrs generalizing found with
    | nil => simp [countFresh]
    | cons attr attrs ih =>
      rw [foldl_cons, ih, foldl_checkCandidate hbasic, flatMap_cons]
      unfold countFresh
      rw [countP_append, append_assoc, Nat.add_assoc]
  unfold checkCluster checked
  rw [hloop, nil_append, Nat.zero_add]

end

/-- The last report is younger than the maximum reporting interval, which is neither unset nor
disabled. -/
structure Young (now : Int) (val : NodeValue) : Prop where
  set : 0 < val.maxInterval
  enabled : val.maxInterval < 65535
  reported : ∃ reported, val.timestampLastReport = some reported ∧ now - reported <
    1000 * (val.maxInterval.toNat : Int)

/-- From 43691 s on one and a half of the interval has no place in 16 bits: the report is younger
than what is left of it. -/
def InWrapped (now : Int) (val : NodeValue) : Prop :=
  43691 ≤ val.maxInterval → age val.timestampLastReport now <
    ((val.maxInterval.toNat * 3 / 2 : Nat) : Int) - 65536

instance (now : Int) (val : NodeValue) : Decidable (InWrapped now val) :=
  inferInstanceAs (Decidable (_ → _))

theorem freshLimit_toNat {val : NodeValue} (hset : 0 < val.maxInterval)
    (henabled : val.maxInterval < 65535) :
    (freshLimit val).toNat = val.maxInterval.toNat * 3 / 2 % 65536 := by
  unfold freshLimit
  rw [if_pos ⟨hset, henabled⟩, UInt16.toNat_ofNat']

theorem isFresh_iff {now : Int} {val : NodeValue} (h : Young now val) :
    isFresh now val = true ↔ InWrapped now val := by
  obtain ⟨hset, henabled, reported, hreported, hyoung⟩ := h
  have hpos : 0 < val.maxInterval.toNat := UInt16.lt_iff_toNat_lt.mp hset
  have hlt : val.maxInterval.toNat < 65535 := UInt16.lt_iff_toNat_lt.mp henabled
  have hfresh : isFresh now val = true ↔ QDateTime.secsTo reported now <
      ((val.maxInterval.toNat * 3 / 2 % 65536 : Nat) : Int) := by
    unfold isFresh
    rw [hreported, freshLimit_toNat hset henabled]
    exact decide_eq_true_iff
  have hage : age val.timestampLastReport now = QDateTime.secsTo reported now := by
    rw [hreported]
    rfl
  have hwraps : 43691 ≤ val.maxInterval ↔ 43691 ≤ val.maxInterval.toNat :=
    UInt16.le_iff_toNat_le
  have hseconds := (QDateTime.secsTo_lt_iff hpos).mpr hyoung
  unfold InWrapped
  rw [hfresh, hage, hwraps]
  by_cases hwrap : 43691 ≤ val.maxInterval.toNat
  · have hleft : val.maxInterval.toNat * 3 / 2 % 65536 = val.maxInterval.toNat * 3 / 2 - 65536 := by
      omega
    rw [hleft]
    omega
  · have hfits : val.maxInterval.toNat * 3 / 2 % 65536 = val.maxInterval.toNat * 3 / 2 := by omega
    rw [hfits]
    omega

/-! ## What is sent -/

/-- What stands for no cluster has no attributes. -/
def Named (c : Candidates) : Prop := c.clusterId = invalidClusterId → c.attributes = []

variable (node : RestNode)

theorem named_mk {clusterId : UInt16} (h : clusterId ≠ invalidClusterId) (attributes : List UInt16)
    : Named ⟨node, clusterId, attributes⟩ :=
  fun heq => absurd heq h

theorem named_none : Named { node } := fun _ => rfl

theorem named_colorCandidates (light : LightNode) (isOn : Bool) :
    Named (colorCandidates node light isOn) := by
  unfold colorCandidates
  simp only
  split
  · exact named_mk _ (by decide) _
  · exact named_mk _ (by decide) _

theorem named_modelIdCandidates (now : Int) : Named (modelIdCandidates node now) := by
  unfold modelIdCandidates
  split
  · split
    · exact named_mk _ (by decide) _
    · exact named_none _
  · exact named_none _

theorem named_swVersionCandidates (light : LightNode) (now : Int) :
    Named (swVersionCandidates node light now) := by
  have hwhenEmpty (text : QString) (attrId : UInt16) : Named (if text = [] then
      { node, clusterId := basicClusterId, attributes := [attrId] } else { node }) := by
    split
    · exact named_mk _ (by decide) _
    · exact named_none _
  unfold swVersionCandidates
  split
  · simp only
    split
    · split
      · exact hwhenEmpty _ _
      · split
        · exact hwhenEmpty _ _
        · split
          · exact named_mk _ (by decide) _
          · exact hwhenEmpty _ _
    · exact named_none _
  · exact named_none _

theorem named_candidates (now : Int) (node : RestNode) (suffix : Option Suffix) :
    Named (candidates now node suffix) := by
  cases suffix with
  | none => exact named_none _
  | some suffix =>
    cases suffix with
    | stateOn | stateBri =>
      simp only [candidates]
      split
      · exact named_mk _ (by decide) _
      · exact named_none _
    | stateColorMode =>
      simp only [candidates]
      split
      · exact named_colorCandidates _ _ _
      · exact named_none _
    | statePresence | stateLightLevel | stateConsumption | statePower | stateLift =>
      exact named_mk _ (by decide) _
    | attrModelId => exact named_modelIdCandidates node now
    | attrSwVersion =>
      simp only [candidates]
      split
      · exact named_swVersionCandidates _ _ _
      · exact named_none _

theorem mem_checked {cl : ZclCluster} {attributes : List UInt16} {attrId : UInt16}
    (h : attrId ∈ checked cl attributes) :
    attrId ∈ attributes ∧ ∃ attr ∈ cl.attributes, attr.id = attrId ∧ attr.isAvailable = true := by
  obtain ⟨attr, hattr, hmem⟩ := mem_flatMap.mp h
  obtain ⟨hcandidate, hchecked⟩ := mem_filter.mp hmem
  simp only [isChecked, Bool.and_eq_true, beq_iff_eq] at hchecked
  exact ⟨hcandidate, attr, hattr, hchecked.1.1.symm, hchecked.1.2⟩

namespace Manager

variable {m : Manager} {w : World} {pitem : PollItem} {rest : List PollItem}

theorem ask_requests_iff {c : Candidates} (hnamed : Named c)
    (hbasic : c.clusterId ≠ basicClusterId) : (m.ask w pitem rest c).requests = m.requests ↔
      ∀ cl, c.node.cluster pitem.endpoint c.clusterId = some cl →
        (∀ attrId ∈ checked cl c.attributes,
          isFresh w.now (c.node.getZclValue c.clusterId attrId 0) = true) ∨
        w.readAttributes c.node pitem.endpoint c.clusterId (checked cl c.attributes) = none := by
  have hgiveUp : (if pitem.suffix.isSome then
      { m with items := pitem.cleared :: rest, timer := some 100 }
    else { m with items := dropFront (pitem :: rest), timer := some 100 }).requests =
      m.requests := by
    split
    · rfl
    · rfl
  unfold ask
  by_cases hinvalid : c.clusterId = invalidClusterId
  · have hnil (cl : ZclCluster) : checked cl [] = [] := flatMap_eq_nil_iff.mpr fun _ _ => rfl
    simp only [if_pos hinvalid, hnamed hinvalid, hnil]
    exact iff_of_true hgiveUp fun cl _ => .inl fun attrId hmem => nomatch hmem
  simp only [if_neg hinvalid]
  cases hcluster : c.node.cluster pitem.endpoint c.clusterId with
  | none => exact iff_of_true hgiveUp fun cl hcl => nomatch hcl
  | some cl =>
    have hid : cl.id = c.clusterId := by
      obtain ⟨sd, -, hfound⟩ := bind_eq_some_iff.mp hcluster
      have hmatches :=
        List.find?_some (p := fun cl : ZclCluster => cl.id == c.clusterId) hfound
      exact beq_iff_eq.mp hmatches
    have hcount : countFresh w.now c.node cl.id (checked cl c.attributes) =
        (checked cl c.attributes).length ↔ ∀ attrId ∈ checked cl c.attributes,
          isFresh w.now (c.node.getZclValue c.clusterId attrId 0) = true := by
      rw [← hid]
      exact countP_eq_length
    have hbasic' : cl.id ≠ basicClusterId := fun heq => hbasic (hid ▸ heq)
    have hall (P : ZclCluster → Prop) : (∀ cl', some cl = some cl' → P cl') ↔ P cl :=
      ⟨fun h => h cl rfl, fun h cl' heq => some_inj.mp heq ▸ h⟩
    rw [hall, map_some, checkCluster_eq hbasic', ← hcount]
    simp only
    by_cases hnil : checked cl c.attributes = []
    · rw [hnil]
      exact iff_of_true hgiveUp (.inl rfl)
    by_cases hfresh : countFresh w.now c.node cl.id (checked cl c.attributes) =
        (checked cl c.attributes).length
    · have hpos := length_pos_iff.mpr hnil
      rw [if_pos ⟨hfresh ▸ hpos, hfresh⟩]
      exact iff_of_true rfl (.inl hfresh)
    · rw [if_neg fun h => hfresh h.2, if_neg hnil, or_iff_right hfresh]
      cases w.readAttributes c.node pitem.endpoint c.clusterId (checked cl c.attributes) with
      | none => exact iff_of_true hgiveUp rfl
      | some apsReqId =>
        refine iff_of_false (fun heq => ?_) (some_ne_none _)
        exact absurd (congrArg List.length heq) (Nat.succ_ne_self _)

/-- The front item is due and its node is there and reachable: one of its items is polled. -/
structure Polls (m : Manager) (w : World) (pitem : PollItem) (rest : List PollItem)
    (node : RestNode) : Prop where
  state : m.pollState ≠ .done
  items : m.items = pitem :: rest
  due : ∀ tStart, pitem.tStart = some tStart → tStart ≤ w.now
  resource : m.resource pitem.light pitem.id = some node
  nonempty : pitem.items ≠ []
  reachable : node.reachable = some true

theorem Polls.pollTimerFired_eq {node : RestNode} (h : Polls m w pitem rest node) :
    m.pollTimerFired w =
      ({ m with pollState := .idle }.setNode pitem
        (candidates w.now node pitem.suffix).node).ask w pitem rest
          (candidates w.now node pitem.suffix) := by
  have hdue : pitem.tStart.any (fun tStart => decide (w.now < tStart)) = false := by
    cases htStart : pitem.tStart with
    | none => rfl
    | some tStart => exact decide_eq_false (Int.not_lt.mpr (h.due tStart htStart))
  have hready : ¬ (pitem.items = [] ∨ node.reachable ≠ some true) :=
    not_or.mpr ⟨h.nonempty, not_not.mpr h.reachable⟩
  have hfront : ({ m with pollState := .idle } : Manager).pollFront w pitem rest =
      ({ m with pollState := .idle }.setNode pitem
        (candidates w.now node pitem.suffix).node).ask w pitem rest
          (candidates w.now node pitem.suffix) := by
    unfold pollFront
    rw [hdue, if_neg Bool.false_ne_true]
    simp only [h.resource, if_neg hready]
  unfold pollTimerFired
  rw [← hfront]
  cases hstate : m.pollState with
  | done => exact absurd hstate h.state
  | idle => simp only [h.items]
  | wait => simp only [h.items]

/-- **Fresh reports.**  When all available candidates of a cluster were reported within their
maximum interval, no read request is sent exactly if those that are kept and have an interval from
43691 s on were reported within what is left of one and a half of it in 16 bits; or the request is
not taken. -/
theorem pollTimerFired_requests_iff {node : RestNode} (h : Polls m w pitem rest node)
    {c : Candidates} (hc : c = candidates w.now node pitem.suffix)
    (hbasic : c.clusterId ≠ basicClusterId)
    (hyoung : ∀ cl, c.node.cluster pitem.endpoint c.clusterId = some cl → ∀ attr ∈
      cl.attributes, attr.id ∈ c.attributes → attr.isAvailable = true →
        Young w.now (c.node.getZclValue c.clusterId attr.id 0)) :
    (m.pollTimerFired w).requests = m.requests ↔ ∀ cl, c.node.cluster pitem.endpoint c.clusterId =
      some cl →
        (∀ attrId ∈ checked cl c.attributes,
          InWrapped w.now (c.node.getZclValue c.clusterId attrId 0)) ∨
        w.readAttributes c.node pitem.endpoint c.clusterId (checked cl c.attributes) = none := by
  rw [h.pollTimerFired_eq, ← hc]
  refine (ask_requests_iff (hc ▸ named_candidates w.now node pitem.suffix) hbasic).trans ?_
  refine forall₂_congr fun cl hcl => or_congr_left ?_
  refine forall₂_congr fun attrId hmem => ?_
  obtain ⟨hcandidate, attr, hattr, rfl, havailable⟩ := mem_checked hmem
  exact isFresh_iff (hyoung cl hcl attr hattr hcandidate havailable)

def motionSensor (maxInterval : UInt16) : RestNode :=
  { reachable := some true
    simpleDescriptors := [⟨1, haProfileId, [⟨0x0406, [{ id := 0x0000, dataType := 0x18 }]⟩]⟩]
    values := [{ isValid := true, timestamp := some 0, timestampLastReport := some 0, endpoint := 1,
                 clusterId := 0x0406, attributeId := 0x0000, maxInterval }] }

def motionItem : PollItem :=
  { id := ofLatin1 "5", light := false, items := [some .statePresence], endpoint := 1,
    address := 0x00158d00045c9a21 }

def motionManager (maxInterval : UInt16) : Manager :=
  { items := [motionItem], resource := fun _ _ => some (motionSensor maxInterval) }

def eightHours : World :=
  { now := 28800000, getDevice := fun _ => true, readAttributes := fun _ _ _ _ => some 1 }

def motionCandidates (maxInterval : UInt16) : Candidates :=
  candidates eightHours.now (motionSensor maxInterval) motionItem.suffix

theorem motion_polls (maxInterval : UInt16) :
    Polls (motionManager maxInterval) eightHours motionItem [] (motionSensor maxInterval) where
  state := fun h => nomatch h
  items := rfl
  due := fun _ htStart => nomatch htStart
  resource := rfl
  nonempty := cons_ne_nil _ _
  reachable := rfl

theorem motion_cluster (maxInterval : UInt16) {cl : ZclCluster}
    (h : (motionCandidates maxInterval).node.cluster motionItem.endpoint
      (motionCandidates maxInterval).clusterId = some cl) :
    cl = ⟨0x0406, [{ id := 0x0000, dataType := 0x18 }]⟩ :=
  (some_inj.mp h).symm

theorem motion_young {maxInterval : UInt16} (hage : 28800 < maxInterval)
    (henabled : maxInterval < 65535) {cl : ZclCluster}
    (hcl : (motionCandidates maxInterval).node.cluster motionItem.endpoint
      (motionCandidates maxInterval).clusterId = some cl) :
    ∀ attr ∈ cl.attributes, attr.id ∈ (motionCandidates maxInterval).attributes → attr.isAvailable =
      true → Young eightHours.now
        ((motionCandidates maxInterval).node.getZclValue
          (motionCandidates maxInterval).clusterId attr.id 0) := by
  obtain rfl := motion_cluster maxInterval hcl
  intro attr hattr _ _
  obtain rfl := mem_singleton.mp hattr
  have hlt : 28800 < maxInterval.toNat := UInt16.lt_iff_toNat_lt.mp hage
  have hyoung : eightHours.now - 0 < 1000 * (maxInterval.toNat : Int) := by
    show (28800000 : Int) - 0 < _
    omega
  exact ⟨UInt16.lt_iff_toNat_lt.mpr (show 0 < maxInterval.toNat by omega), henabled, 0, rfl, hyoung⟩

/-- A report every twelve hours -/
theorem motion_notPolled :
    ((motionManager 43200).pollTimerFired eightHours).requests =
      (motionManager 43200).requests := by
  refine (pollTimerFired_requests_iff (motion_polls 43200) rfl (by decide)
    fun cl hcl => motion_young (by decide) (by decide) hcl).mpr fun cl hcl => .inl ?_
  intro attrId hmem hlarge
  -- nothing of the interval is lost
  obtain ⟨-, attr, hattr, rfl, -⟩ := mem_checked hmem
  obtain rfl := motion_cluster 43200 hcl
  obtain rfl := mem_singleton.mp hattr
  exact absurd hlarge (show ¬ (43691 : UInt16) ≤ 43200 by decide)

/-- **A young report is not waited for**: it is 8 hours old, its interval is one of 61440 s, and one
and a half of that is taken for 26624 s. -/
theorem motion_polled : Polls (motionManager 61440) eightHours motionItem [] (motionSensor 61440) ∧
    (motionCandidates 61440).clusterId ≠ basicClusterId ∧
    (∀ cl, (motionCandidates 61440).node.cluster motionItem.endpoint
      (motionCandidates 61440).clusterId = some cl → ∀ attr ∈ cl.attributes, attr.id ∈
        (motionCandidates 61440).attributes → attr.isAvailable = true →
          Young eightHours.now ((motionCandidates 61440).node.getZclValue
            (motionCandidates 61440).clusterId attr.id 0)) ∧
    ((motionManager 61440).pollTimerFired eightHours).requests =
      [⟨motionItem.address, 1, 0x0406, [0x0000]⟩] := by
  refine ⟨motion_polls 61440, by decide, fun cl hcl => ?_, by decide +kernel⟩
  exact motion_young (by decide) (by decide) hcl

end Manager

end PollManager
end DeconzRest

import DeconzRest.Lib.DataStream
import DeconzRest.Scene.Storage

/-!
# Add scene and view scene

`addTaskAddScene` writes a light state as extension field sets into an add scene command, and
`handleSceneClusterIndication` reads the sets of a view scene response back.  The two do not share
code: the writer writes its bytes one after the other, and the reader counts the length of a set
down by hand.

The address of a light is what finds it, so the light of a response is a parameter.
-/

namespace DeconzRest
namespace Scene

open QString

/-- `LightState`, with what is not stored -/
structure Light extends LightState where
  needRead : Bool := false
  colorloopDirection : UInt8 := 0
deriving DecidableEq, Repr

/-- `Scene` -/
structure Entry where
  id : UInt8
  deleted : Bool := false
  externalMaster : Bool := false
  lights : List Light := []
deriving DecidableEq, Repr

/-- `Group` -/
structure Group where
  address : UInt16
  scenes : List Entry := []
deriving DecidableEq, Repr

/-- `LightNode` -/
structure Node where
  id : QString
  modelId : QString := []
  manufacturerCode : UInt16 := 0
  /-- There is an item `state/colormode`. -/
  hasColorMode : Bool := true
  ctMin : Option Int := none
  ctMax : Option Int := none
deriving DecidableEq, Repr

def Node.startsWith (node : Node) (front : String) : Bool :=
  QString.startsWith node.modelId (ofLatin1 front)

/-- These store the color temperature in `x`. -/
def Node.ctInX (node : Node) : Bool :=
  node.startsWith "FLS-H" || node.startsWith "FLS-CT" || node.startsWith "Ribag Air O"

/-- `getGroupForId` -/
def getGroupForId (gwGroup0 : UInt16) (groups : List Group) (id : UInt16) : Option Group :=
  groups.find? fun group => group.address = if id ≠ 0 then id else gwGroup0

/-- `Group::getScene` -/
def Group.getScene (group : Group) (sceneId : UInt8) : Option Entry :=
  group.scenes.find? fun scene => scene.id = sceneId ∧ scene.deleted = false

/-! ## Writing -/

/-- `MiredColorTemperatureToXY` -/
def miredColorTemperatureToXY (temperature : UInt16) : UInt16 × UInt16 :=
  let temperature := if temperature = 0 then 153 else temperature
  let temp : Int := (1000000 / temperature.toNat % 2 ^ 16 : Nat)
  let localX : UInt64 := UInt64.ofInt <|
    if 4000 > temp then
      57520658 / temp + 11790 - 15358885888 / temp / temp - 17440695910400 / temp / temp / temp
    else
      138086835814 / temp / temp + 14590587 / temp + 15754 - 198301902438400 / temp / temp / temp
  let localY : UInt64 :=
    if 2222 > temp then
      35808 * localX / 65536 - 18126 * localX * localX * localX / 281474976710656 -
        22087 * localX * localX / 4294967296 - 3312
    else if 4000 > temp then
      34265 * localX / 65536 - 15645 * localX * localX * localX / 281474976710656 -
        22514 * localX * localX / 4294967296 - 2744
    else
      61458 * localX / 65536 + 50491 * localX * localX * localX / 281474976710656 -
        96229 * localX * localX / 4294967296 - 6062
  (localX.toUInt16, (localY * 4).toUInt16)

structure Color where
  x : UInt16
  y : UInt16
  enhancedHue : UInt16
  saturation : UInt8
deriving DecidableEq, Repr

/-- The color temperature in the range of the light -/
def clampCt (node : Node) (ct : UInt16) : UInt16 :=
  match node.ctMin, node.ctMax with
  | some ctMin, some ctMax =>
    if 0 < ctMin ∧ 0 < ctMax then
      if ct.toNat < ctMin then UInt16.ofInt ctMin
      else if ctMax < ct.toNat then UInt16.ofInt ctMax
      else ct
    else ct
  | _, _ => ct

def ctColor (node : Node) (l : Light) : Color :=
  if node.ctInX then ⟨l.colorTemperature, 0, 0, 0⟩
  else if node.startsWith "ICZB-F" || node.manufacturerCode = 0x121B then
    ⟨0, 0, l.colorTemperature, 0⟩
  else
    let (x, y) := miredColorTemperatureToXY (clampCt node l.colorTemperature)
    ⟨if 65279 < x then 65279 else if x = 0 then 1 else x, if 65279 < y then 65279 else if y =
      0 then 1 else y, 0, 0⟩

def sentColor (node : Node) (l : Light) : Option Color :=
  if node.hasColorMode ∧ node.startsWith "FLS-PP3" = false then
    if l.colorMode = ofLatin1 "ct" then some (ctColor node l)
    else some ⟨l.x, l.y, l.enhancedHue, l.saturation⟩
  else none

def colorFields (l : Light) (c : Color) : List UInt8 :=
  writeLE 2 0x0300 ++ [11] ++ writeLE 2 c.x.toNat ++ writeLE 2 c.y.toNat ++
    writeLE 2 c.enhancedHue.toNat ++ [c.saturation] ++ [if l.colorloopActive then 1 else 0] ++
    [l.colorloopDirection] ++ writeLE 2 l.colorloopTime.toNat

def extensionFields (node : Node) (l : Light) : List UInt8 :=
  writeLE 2 0x0006 ++ [1] ++ [if l.on then 1 else 0] ++ writeLE 2 0x0008 ++ [1] ++ [l.bri] ++
    match sentColor node l with
    | none => []
    | some c => colorFields l c

/-- The command: `commandId`, and the transition time in its unit -/
def addCommand (l : Light) : UInt8 × UInt16 :=
  if 10 ≤ l.transitionTime then (0x00, l.transitionTime / 10)  -- deci-seconds -> seconds
  else (0x40, l.transitionTime)

structure AddScene where
  commandId : UInt8
  payload : List UInt8
  light : Light
deriving DecidableEq, Repr

/-- What is written for a light state -/
def addScene (node : Node) (groupId : UInt16) (sceneId : UInt8) (l : Light) : AddScene where
  commandId := (addCommand l).1
  payload := writeLE 2 groupId.toNat ++ [sceneId] ++ writeLE 2 (addCommand l).2.toNat ++ [0] ++
    extensionFields node l
  light :=
    match sentColor node l with
    | some c => if l.colorMode = ofLatin1 "ct" then { l with x := c.x, y := c.y } else l
    | none => l

/-- `addTaskAddScene`, up to the queue: none where a group is used that does not exist -/
def addTaskAddScene (gwGroup0 : UInt16) (groups : List Group) (node : Node) (groupId : UInt16)
    (sceneId : UInt8) (lightId : QString) : Option (Option AddScene) :=
  match getGroupForId gwGroup0 groups groupId with
  | none => none
  | some group =>
    match group.getScene sceneId with
    | none => some none
    | some scene =>
      some ((scene.lights.find? fun l => l.lid = lightId).map (addScene node groupId sceneId))

/-- What has been read of the sets -/
structure Viewed where
  hasOnOff : Bool := false
  hasBri : Bool := false
  hasXY : Bool := false
  hasHueSat : Bool := false
  onOff : UInt8 := 0
  bri : UInt8 := 0
  x : UInt16 := 0
  y : UInt16 := 0
  ehue : UInt16 := 0
  sat : UInt8 := 0
deriving DecidableEq, Repr

/-- The fields of a set: the length that is left, the stream and what has been read -/
def readFields (clusterId : UInt16) (extLength : UInt8) (s : DataStream) (v : Viewed) :
    UInt8 × DataStream × Viewed :=
  if clusterId = 0x0006 ∧ 1 ≤ extLength then
    let (onOff, s) := s.read8
    (extLength - 1, s,
      { v with onOff, hasOnOff := v.hasOnOff || (onOff = 0 || onOff = 1) && !s.readPastEnd })
  else if clusterId = 0x0008 ∧ 1 ≤ extLength then
    let (bri, s) := s.read8
    (extLength - 1, s, { v with bri, hasBri := v.hasBri || !s.readPastEnd })
  else if clusterId = 0x0300 ∧ 4 ≤ extLength then
    let (x, s) := s.read16
    let (y, s) := s.read16
    let extLength := extLength - 4
    let v := { v with x, y, hasXY := v.hasXY || x ≠ 0 && y ≠ 0 && !s.readPastEnd }
    if 3 ≤ extLength then
      let (ehue, s) := s.read16
      let (sat, s) := s.read8
      (extLength - 4, s, { v with ehue, sat, hasHueSat := v.hasHueSat || !s.readPastEnd })
    else (extLength, s, v)
  else (extLength, s, v)

/-- One set, and the bytes of it that are not used -/
def readSet (s : DataStream) (v : Viewed) : DataStream × Viewed :=
  let (clusterId, s) := s.read16
  let (extLength, s) := s.read8
  let (extLength, s, v) := readFields clusterId extLength s v
  (s.discard extLength.toNat, v)

/-- The sets up to the end of the stream: each takes a byte at least. -/
def readSets : Nat → DataStream → Viewed → Viewed
  | 0, _, v => v
  | n + 1, s, v =>
    if s.bytes = [] then v else readSets n (readSet s v).1 (readSet s v).2

def viewSets (s : DataStream) (v : Viewed) : Viewed := readSets s.bytes.length s v

def skipName : Nat → DataStream → DataStream
  | 0, s => s
  | n + 1, s => if s.bytes = [] then s else skipName n s.read8.2

structure ViewResponse where
  groupId : UInt16
  sceneId : UInt8
  transitionTime : UInt16
  viewed : Viewed
deriving DecidableEq, Repr

def readResponse (s : DataStream) : ViewResponse :=
  let (groupId, s) := s.read16
  let (sceneId, s) := s.read8
  let (transitionTime, s) := s.read16
  let (nameLength, s) := s.read8
  ⟨groupId, sceneId, transitionTime, viewSets (skipName nameLength.toNat s) {}⟩

/-! ## What is done -/

def Viewed.applyTo (v : Viewed) (ls : Light) : Light :=
  { ls with
    on := if v.hasOnOff then v.onOff ≠ 0 else ls.on
    bri := if v.hasBri then v.bri else ls.bri
    x := if v.hasXY then v.x else ls.x
    y := if v.hasXY then v.y else ls.y
    enhancedHue := if v.hasHueSat then v.ehue else ls.enhancedHue
    saturation := if v.hasHueSat then v.sat else ls.saturation }

def Viewed.differs (v : Viewed) (ls : Light) : Bool :=
  v.hasOnOff && (if ls.on then 1 else 0) ≠ v.onOff ||
  v.hasBri && ls.bri ≠ v.bri ||
  v.hasXY && (ls.x ≠ v.x || ls.y ≠ v.y) ||
  v.hasHueSat && (ls.enhancedHue ≠ v.ehue || ls.saturation ≠ v.sat)

def verify (node : Node) (externalMaster : Bool) (v : Viewed) (ls : Light) : Light :=
  if ls.needRead then
    let ls := { v.applyTo ls with needRead := false }
    if v.hasXY ∧ node.ctInX then { ls with colorTemperature := v.x } else ls
  else if v.differs ls ∧ externalMaster then v.applyTo ls
  else ls

/-- A new light state, with what its constructor leaves in the color temperature -/
def newLightState (node : Node) (r : ViewResponse) (colorTemperature : UInt16) : Light :=
  let ls := r.viewed.applyTo
    { lid := node.id, transitionTime := r.transitionTime * 10, colorTemperature }
  if r.viewed.hasXY then
    if node.ctInX then
      { ls with colorMode := ofLatin1 "ct", colorTemperature := r.viewed.x }
    else { ls with colorMode := ofLatin1 "xy" }
  else ls

def applyView (node : Node) (r : ViewResponse) (colorTemperature : UInt16) (scene : Entry) :
    Entry :=
  let i := scene.lights.findIdx fun ls => ls.lid = node.id
  if i < scene.lights.length then
    { scene with lights := scene.lights.modify i (verify node scene.externalMaster r.viewed) }
  else { scene with lights := scene.lights ++ [newLightState node r colorTemperature] }

/-- `ls->setNeedRead(false)` for a scene that the light does not have -/
def clearNeedRead (node : Node) (scene : Entry) : Entry :=
  { scene with
    lights := scene.lights.modify (scene.lights.findIdx fun ls => ls.lid = node.id) fun ls =>
      { ls with needRead := false } }

def Group.changeScene (sceneId : UInt8) (change : Entry → Entry) (group : Group) : Group :=
  { group with
    scenes := group.scenes.modify
      (group.scenes.findIdx fun scene => scene.id = sceneId ∧ scene.deleted = false) change }

def changeGroup (gwGroup0 : UInt16) (groups : List Group) (id : UInt16)
    (change : Group → Group) : List Group :=
  groups.modify
    (groups.findIdx fun group => group.address = if id ≠ 0 then id else gwGroup0) change

/-- A view scene response, or an enhanced one, in `handleSceneClusterIndication`: none where a
group is used that does not exist -/
def viewSceneResponse (gwGroup0 colorTemperature : UInt16) (light : Option Node)
    (payload : List UInt8) (groups : List Group) : Option (List Group) :=
  if payload.length < 4 then some groups
  else
    match light with
    | none => some groups
    | some node =>
      let (status, s) := DataStream.read8 ⟨payload, false⟩
      if status = 0x00 ∧ s.bytes ≠ [] then
        let r := readResponse s
        -- the scene is taken from the group in front of the check of the group
        match getGroupForId gwGroup0 groups r.groupId with
        | none => none
        | some _ =>
          some (changeGroup gwGroup0 groups r.groupId
            (Group.changeScene r.sceneId (applyView node r colorTemperature)))
      else if status = 0x8B ∧ 4 ≤ payload.length then
        let (groupId, s) := s.read16
        let (sceneId, _) := s.read8
        match getGroupForId gwGroup0 groups groupId with
        | none => none
        | some _ =>
          some (changeGroup gwGroup0 groups groupId
            (Group.changeScene sceneId (clearNeedRead node)))
      else some groups

variable {gwGroup0 : UInt16} {status : UInt8} {rest : List UInt8} {groups : List Group}

theorem viewSceneResponse_cons (colorTemperature : UInt16) (node : Node)
    (hlength : ¬ (status :: rest).length < 4) :
    viewSceneResponse gwGroup0 colorTemperature (some node) (status :: rest) groups = if status =
      0x00 then
        let r := readResponse ⟨rest, false⟩
        (getGroupForId gwGroup0 groups r.groupId).map fun _ =>
          changeGroup gwGroup0 groups r.groupId
            (Group.changeScene r.sceneId (applyView node r colorTemperature))
      else if status = 0x8B then
        let (groupId, s) := DataStream.read16 ⟨rest, false⟩
        (getGroupForId gwGroup0 groups groupId).map fun _ =>
          changeGroup gwGroup0 groups groupId
            (Group.changeScene s.read8.1 (clearNeedRead node))
      else some groups := by
  have hrest : rest ≠ [] := by
    rintro rfl
    exact hlength (by rw [List.length_singleton]; decide)
  unfold viewSceneResponse
  rw [if_neg hlength, DataStream.read8_cons]
  simp only
  by_cases hok : status = 0x00
  · rw [if_pos ⟨hok, hrest⟩, if_pos hok]
    cases getGroupForId gwGroup0 groups (readResponse ⟨rest, false⟩).groupId <;> rfl
  · rw [if_neg fun h => hok h.1, if_neg hok]
    by_cases hmissing : status = 0x8B
    · rw [if_pos ⟨hmissing, Nat.le_of_not_lt hlength⟩, if_pos hmissing]
      cases getGroupForId gwGroup0 groups (DataStream.read16 ⟨rest, false⟩).1 <;> rfl
    · rw [if_neg fun h => hmissing h.1, if_neg hmissing]

end Scene
end DeconzRest

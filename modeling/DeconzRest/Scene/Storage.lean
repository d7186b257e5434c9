import DeconzRest.Json.Octets
import DeconzRest.Json.Reread

/-!
# Storage of scene lights

`Scene::lightsToString` writes the light states of a scene as a JSON list of maps, and
`Scene::jsonToLights` reads them.  Which fields are written depends on the color mode, and which
are read on the color mode and on what is there.  Each written map holds what the reader looks
for (`holds_lightMap`), behind the UTF-8 form as well (`Holds.reread`), so a light comes back
unless UTF-8 changes its id or its color mode (`lights_survive_iff`).
-/

namespace DeconzRest

open QVariant (value contains)
open QString
open Json (Parts Every Numbers ReadBack reread)

variable {D : Type}

/-- `LightState`, without what is not stored. -/
structure LightState where
  lid : QString := []
  on : Bool := false
  bri : UInt8 := 0
  x : UInt16 := 0
  y : UInt16 := 0
  /-- The constructor does not set it. -/
  colorTemperature : UInt16
  enhancedHue : UInt16 := 0
  saturation : UInt8 := 0
  colorloopActive : Bool := false
  colorloopTime : UInt8 := 0
  colorMode : QString := ofLatin1 "none"
  transitionTime : UInt16 := 0
deriving DecidableEq, Repr

namespace Scene

def put (map : List (QString × QVariant D)) (key : String) (value : QVariant D) :
    List (QString × QVariant D) := Json.insert (ofLatin1 key) value map

/-- The map of one light in `Scene::lightsToString`. -/
def lightMap (qt : Qt D) (i : LightState) : List (QString × QVariant D) :=
  let map := put [] "lid" (.string i.lid)
  let map := put map "on" (.bool i.on)
  let map := put map "bri" (.double (qt.ofInt i.bri.toNat))
  let map := put map "tt" (.double (qt.ofInt i.transitionTime.toNat))
  let map := put map "cm" (.string i.colorMode)
  if i.colorMode ≠ ofLatin1 "none" then
    let map := put map "x" (.double (qt.ofInt i.x.toNat))
    let map := put map "y" (.double (qt.ofInt i.y.toNat))
    let map :=
      if i.colorMode = ofLatin1 "hs" then
        let map := put map "ehue" (.double (qt.ofInt i.enhancedHue.toNat))
        put map "sat" (.double (qt.ofInt i.saturation.toNat))
      else if i.colorMode = ofLatin1 "ct" then
        put map "ct" (.double (qt.ofInt i.colorTemperature.toNat))
      else
        map
    let map := put map "cl" (.bool i.colorloopActive)
    put map "clTime" (.double (qt.ofInt i.colorloopTime.toNat))
  else
    map

/-- `Scene::lightsToString` -/
def lightsToString (qt : Qt D) (lights : List LightState) : QString :=
  fromUtf8 (Json.serialize qt (.list (lights.map fun i => .map (lightMap qt i))))

section reading

variable (qt : Qt D) (toUInt : QVariant D → Option Nat)

/-- `QVariant::toUInt`; 0 when it is no number. -/
def uint (v : QVariant D) : Nat := (toUInt v).getD 0

def readState (colorTemperature : UInt16) (map : List (QString × QVariant D)) : LightState :=
  { lid := (value map "lid").toString qt
    on := qt.toBool (value map "on")
    bri := UInt8.ofNat (uint toUInt (value map "bri"))
    transitionTime := UInt16.ofNat (uint toUInt (value map "tt"))
    colorTemperature := colorTemperature }

def readXy (map : List (QString × QVariant D)) (state : LightState) : LightState :=
  if contains map "x" && contains map "y" then
    let state := { state with
      x := UInt16.ofNat (uint toUInt (value map "x"))
      y := UInt16.ofNat (uint toUInt (value map "y")) }
    if !contains map "cm" then
      { state with colorMode := ofLatin1 "xy" } -- backward compatibility
    else
      state
  else
    state

def readColorloop (map : List (QString × QVariant D)) (state : LightState) : LightState :=
  if contains map "cl" && contains map "clTime" then
    { state with
      colorloopActive := qt.toBool (value map "cl")
      colorloopTime := UInt8.ofNat (uint toUInt (value map "clTime")) }
  else
    state

def readColorMode (map : List (QString × QVariant D)) (state : LightState) : LightState :=
  if contains map "cm" then
    let colorMode := (value map "cm").toString qt
    if colorMode ≠ [] then { state with colorMode := colorMode } else state
  else
    state

def readColor (map : List (QString × QVariant D)) (state : LightState) : LightState :=
  if state.colorMode = ofLatin1 "ct" ∧ contains map "ct" then
    match toUInt (value map "ct") with
    | some ct => { state with colorTemperature := UInt16.ofNat ct }
    | none => state
  else if state.colorMode = ofLatin1 "hs" ∧ contains map "ehue" ∧ contains map "sat" then
    match toUInt (value map "ehue"), toUInt (value map "sat") with
    | some ehue, some sat =>
      { state with
        enhancedHue := UInt16.ofNat ehue
        saturation := UInt8.ofNat (UInt16.ofNat sat).toNat }
    | _, _ => state
  else
    state

/-- The light state of one map in `Scene::jsonToLights`. -/
def readLight (colorTemperature : UInt16) (map : List (QString × QVariant D)) : LightState :=
  readColor toUInt map (readColorMode qt map (readColorloop qt toUInt map
    (readXy toUInt map (readState qt toUInt colorTemperature map))))

/-- `Scene::jsonToLights`; `colorTemperature` is what a new light state happens to have. -/
def jsonToLights (colorTemperature : UInt16) (json : QString) : List LightState :=
  let var := Json.parse qt json
  if var.2 = false then []
  else var.1.toList.map fun i => readLight qt toUInt colorTemperature i.toMap

end reading

/-! ## What is written -/

/-- The map has what the reader looks for, with texts behind `f`. -/
structure Holds (f : QString → QString) (qt : Qt D) (i : LightState)
    (map : List (QString × QVariant D)) : Prop where
  lid : value map "lid" = .string (f i.lid)
  on : value map "on" = .bool i.on
  bri : value map "bri" = .double (qt.ofInt i.bri.toNat)
  tt : value map "tt" = .double (qt.ofInt i.transitionTime.toNat)
  cm : value map "cm" = .string (f i.colorMode)
  xy : i.colorMode ≠ ofLatin1 "none" → value map "x" = .double (qt.ofInt i.x.toNat) ∧
    value map "y" = .double (qt.ofInt i.y.toNat)
  colorloop : i.colorMode ≠ ofLatin1 "none" → value map "cl" =
    .bool i.colorloopActive ∧ value map "clTime" = .double (qt.ofInt i.colorloopTime.toNat)
  hs : i.colorMode = ofLatin1 "hs" → value map "ehue" =
    .double (qt.ofInt i.enhancedHue.toNat) ∧ value map "sat" = .double (qt.ofInt i.saturation.toNat)
  ct : i.colorMode = ofLatin1 "ct" → value map "ct" = .double (qt.ofInt i.colorTemperature.toNat)

section written

variable (qt : Qt D) {i : LightState}

theorem lightMap_none (h : i.colorMode = ofLatin1 "none") :
    lightMap qt i =
      [(ofLatin1 "bri", .double (qt.ofInt i.bri.toNat)), (ofLatin1 "cm", .string i.colorMode),
        (ofLatin1 "lid", .string i.lid),
        (ofLatin1 "on", .bool i.on),
        (ofLatin1 "tt", .double (qt.ofInt i.transitionTime.toNat))] := by
  unfold lightMap
  rw [if_neg (not_not.mpr h)]
  rfl

theorem lightMap_color (h : i.colorMode ≠ ofLatin1 "none") :
    lightMap qt i =
      [(ofLatin1 "bri", .double (qt.ofInt i.bri.toNat)), (ofLatin1 "cl", .bool i.colorloopActive),
        (ofLatin1 "clTime", .double (qt.ofInt i.colorloopTime.toNat)),
        (ofLatin1 "cm", .string i.colorMode)] ++
      (if i.colorMode = ofLatin1 "hs" then
        [(ofLatin1 "ehue", .double (qt.ofInt i.enhancedHue.toNat))]
      else if i.colorMode = ofLatin1 "ct" then
        [(ofLatin1 "ct", .double (qt.ofInt i.colorTemperature.toNat))]
      else []) ++
      [(ofLatin1 "lid", .string i.lid), (ofLatin1 "on", .bool i.on)] ++
      (if i.colorMode = ofLatin1 "hs" then
        [(ofLatin1 "sat", .double (qt.ofInt i.saturation.toNat))]
      else []) ++
      [(ofLatin1 "tt", .double (qt.ofInt i.transitionTime.toNat)),
        (ofLatin1 "x", .double (qt.ofInt i.x.toNat)),
        (ofLatin1 "y", .double (qt.ofInt i.y.toNat))] := by
  unfold lightMap
  rw [if_pos h]
  by_cases hhs : i.colorMode = ofLatin1 "hs"
  · simp only [if_pos hhs]
    rfl
  · by_cases hct : i.colorMode = ofLatin1 "ct"
    · simp only [if_neg hhs, if_pos hct]
      rfl
    · simp only [if_neg hhs, if_neg hct]
      rfl

/-- **Each written map holds what the reader looks for.** -/
theorem holds_lightMap (i : LightState) : Holds id qt i (lightMap qt i) := by
  by_cases hnone : i.colorMode = ofLatin1 "none"
  · rw [lightMap_none qt hnone]
    refine ⟨rfl, rfl, rfl, rfl, rfl, ?_, ?_, ?_, ?_⟩
    · exact fun h => absurd hnone h
    · exact fun h => absurd hnone h
    · intro h
      rw [hnone] at h
      exact absurd h (by decide)
    · intro h
      rw [hnone] at h
      exact absurd h (by decide)
  · rw [lightMap_color qt hnone]
    by_cases hhs : i.colorMode = ofLatin1 "hs"
    · simp only [if_pos hhs]
      refine ⟨rfl, rfl, rfl, rfl, rfl, fun _ => ⟨rfl, rfl⟩, fun _ => ⟨rfl, rfl⟩,
        fun _ => ⟨rfl, rfl⟩, ?_⟩
      intro h
      rw [hhs] at h
      exact absurd h (by decide)
    · by_cases hct : i.colorMode = ofLatin1 "ct"
      · simp only [if_neg hhs, if_pos hct]
        exact ⟨rfl, rfl, rfl, rfl, rfl, fun _ => ⟨rfl, rfl⟩, fun _ => ⟨rfl, rfl⟩,
          fun h => absurd h hhs, fun _ => rfl⟩
      · simp only [if_neg hhs, if_neg hct]
        exact ⟨rfl, rfl, rfl, rfl, rfl, fun _ => ⟨rfl, rfl⟩, fun _ => ⟨rfl, rfl⟩,
          fun h => absurd h hhs, fun h => absurd h hct⟩

/-- What is put into a map: a text, a flag or a number of 16 bits. -/
inductive Simple : QVariant D → Prop
  | string (s : QString) : Simple (.string s)
  | bool (b : Bool) : Simple (.bool b)
  | number {n : Nat} (h : n < 2 ^ 16) : Simple (.double (qt.ofInt n))

theorem simple_uint16 (n : UInt16) : Simple qt (.double (qt.ofInt n.toNat)) := .number n.toNat_lt

theorem simple_uint8 (n : UInt8) : Simple qt (.double (qt.ofInt n.toNat)) :=
  .number (Nat.lt_of_lt_of_le n.toNat_lt (by decide))

variable {qt}

theorem lightMap_put {P : List (QString × QVariant D) → Prop} (hnil : P [])
    (hput : ∀ map key v, P map → QString.WellFormed (ofLatin1 key) → Simple qt v →
      P (put map key v)) (i : LightState) : P (lightMap qt i) := by
  have ascii : ∀ {key : String}, (key.toList.all fun c => c.toNat < 0x10000) = true →
      QString.WellFormed (ofLatin1 key) := wellFormed_ofLatin1
  have hlid := hput _ "lid" _ hnil (ascii (by decide)) (.string i.lid)
  have hon := hput _ "on" _ hlid (ascii (by decide)) (.bool i.on)
  have hbri := hput _ "bri" _ hon (ascii (by decide)) (simple_uint8 qt i.bri)
  have htt := hput _ "tt" _ hbri (ascii (by decide)) (simple_uint16 qt i.transitionTime)
  have hcm := hput _ "cm" _ htt (ascii (by decide)) (.string i.colorMode)
  have hloop : ∀ map, P map → P (put (put map "cl" (.bool i.colorloopActive)) "clTime"
      (.double (qt.ofInt i.colorloopTime.toNat))) := by
    intro map hmap
    have hcl := hput _ "cl" _ hmap (ascii (by decide)) (.bool i.colorloopActive)
    exact hput _ "clTime" _ hcl (ascii (by decide))
      (simple_uint8 qt i.colorloopTime)
  unfold lightMap
  simp only
  split
  · have hx := hput _ "x" _ hcm (ascii (by decide)) (simple_uint16 qt i.x)
    have hy := hput _ "y" _ hx (ascii (by decide)) (simple_uint16 qt i.y)
    apply hloop
    split
    · have hhue := hput _ "ehue" _ hy (ascii (by decide))
        (simple_uint16 qt i.enhancedHue)
      exact hput _ "sat" _ hhue (ascii (by decide)) (simple_uint8 qt i.saturation)
    · split
      · exact hput _ "ct" _ hy (ascii (by decide)) (simple_uint16 qt i.colorTemperature)
      · exact hy
  · exact hcm

theorem sorted_lightMap (i : LightState) : ((lightMap qt i).map Prod.fst).Pairwise (· < ·) := by
  apply lightMap_put (P := fun map => (map.map Prod.fst).Pairwise (· < ·)) List.Pairwise.nil
  intro map key v hmap _ _
  exact Json.sorted_insert _ v hmap

theorem keys_lightMap (i : LightState) : ∀ e ∈ lightMap qt i, repair e.1 = e.1 := by
  have hkeys : ∀ k ∈ (lightMap qt i).map Prod.fst, repair k = k := by
    apply lightMap_put
      (P := fun map => ∀ k ∈ map.map Prod.fst, repair k = k)
    · exact fun k hk => absurd hk List.not_mem_nil
    · intro map key v hmap hkey _ k hk
      rcases Json.keys_insert _ v map k hk with rfl | hk
      · exact hkey.repair_eq
      · exact hmap k hk
  exact fun e he => hkeys e.1 (List.mem_map_of_mem he)

end written

/-! ## What is read -/

/-- What Qt documents of whole numbers below 2^16 and of flags: a `double` holds the number, and
`toUInt` and `toBool` give it back. -/
structure SmallNumbers (qt : Qt D) (toUInt : QVariant D → Option Nat) (finite : D → Prop) :
    Prop where
  finite : ∀ n : Nat, n < 2 ^ 16 → finite (qt.ofInt n)
  toUInt : ∀ n : Nat, n < 2 ^ 16 → toUInt (.double (qt.ofInt n)) = some n
  toBool : ∀ b, qt.toBool (.bool b) = b

theorem Holds.reread {qt : Qt D} {i : LightState} {map : List (QString × QVariant D)}
    (h : Holds id qt i map) (f : QString → QString) :
    Holds f qt i (map.map fun e => (e.1, Json.reread f qt e.2)) := by
  have hvalue : ∀ key, value (map.map fun e => (e.1, Json.reread f qt e.2)) key =
      Json.reread f qt (value map key) := by
    intro key
    unfold value
    rw [Json.lookup_map_snd]
    cases map.lookup (ofLatin1 key) with
    | none => rw [Option.map_none, Option.getD_none, Json.reread]
    | some v => rfl
  refine ⟨?_, ?_, ?_, ?_, ?_, fun hcolor => ?_, fun hcolor => ?_, fun hhs => ?_, fun hct => ?_⟩
  · rw [hvalue, h.lid, Json.reread]
    rfl
  · rw [hvalue, h.on, Json.reread]
  · rw [hvalue, h.bri, Json.reread]
  · rw [hvalue, h.tt, Json.reread]
  · rw [hvalue, h.cm, Json.reread]
    rfl
  · rw [hvalue, hvalue, (h.xy hcolor).1, (h.xy hcolor).2, Json.reread, Json.reread]
    exact ⟨rfl, rfl⟩
  · rw [hvalue, hvalue, (h.colorloop hcolor).1, (h.colorloop hcolor).2, Json.reread, Json.reread]
    exact ⟨rfl, rfl⟩
  · rw [hvalue, hvalue, (h.hs hhs).1, (h.hs hhs).2, Json.reread, Json.reread]
    exact ⟨rfl, rfl⟩
  · rw [hvalue, h.ct hct, Json.reread]

theorem contains_of_value {map : List (QString × QVariant D)} {key : String} {v : QVariant D}
    (h : value map key = v) (hv : v.isValid = true) :
    contains map key = true := by
  unfold value at h
  unfold contains
  cases hlookup : map.lookup (ofLatin1 key) with
  | none =>
    rw [hlookup, Option.getD_none] at h
    rw [← h] at hv
    cases hv
  | some w => rfl

section read

variable {qt : Qt D} {toUInt : QVariant D → Option Nat} {finite : D → Prop}
  {i : LightState} {map : List (QString × QVariant D)} {f : QString → QString}

theorem uint_ofInt (h : SmallNumbers qt toUInt finite) {n : Nat} (hn : n < 2 ^ 16) :
    uint toUInt (.double (qt.ofInt n)) = n := by
  unfold uint
  rw [h.toUInt n hn]
  rfl

theorem uint16_ofInt (h : SmallNumbers qt toUInt finite) (n : UInt16) :
    UInt16.ofNat (uint toUInt (.double (qt.ofInt n.toNat))) = n := by
  rw [uint_ofInt h n.toNat_lt, UInt16.ofNat_toNat]

theorem uint8_ofInt (h : SmallNumbers qt toUInt finite) (n : UInt8) :
    UInt8.ofNat (uint toUInt (.double (qt.ofInt n.toNat))) = n := by
  have hn : n.toNat < 2 ^ 16 := Nat.lt_of_lt_of_le n.toNat_lt (by decide)
  rw [uint_ofInt h hn, UInt8.ofNat_toNat]

theorem readState_eq (hqt : SmallNumbers qt toUInt finite) (h : Holds f qt i map)
    (colorTemperature : UInt16) :
    readState qt toUInt colorTemperature map =
      { lid := f i.lid, on := i.on, bri := i.bri, transitionTime := i.transitionTime,
        colorTemperature := colorTemperature } := by
  unfold readState
  rw [h.lid, h.on, h.bri, h.tt, hqt.toBool, uint8_ofInt hqt, uint16_ofInt hqt]
  rfl

theorem readXy_eq (hqt : SmallNumbers qt toUInt finite) (h : Holds f qt i map)
    (state : LightState) :
    ∃ x y, readXy toUInt map state = { state with x := x, y := y } ∧
      (i.colorMode ≠ ofLatin1 "none" → x = i.x ∧ y = i.y) := by
  have hcm := contains_of_value h.cm rfl
  unfold readXy
  split
  · refine ⟨UInt16.ofNat (uint toUInt (value map "x")), UInt16.ofNat (uint toUInt (value map "y")),
      ?_, fun hcolor => ?_⟩
    · simp only
      rw [hcm]
      rfl
    · rw [(h.xy hcolor).1, (h.xy hcolor).2]
      exact ⟨uint16_ofInt hqt i.x, uint16_ofInt hqt i.y⟩
  · rename_i hmissing
    refine ⟨state.x, state.y, rfl, fun hcolor => ?_⟩
    rw [contains_of_value (h.xy hcolor).1 rfl, contains_of_value (h.xy hcolor).2 rfl] at hmissing
    exact absurd rfl hmissing

theorem readColorloop_eq (hqt : SmallNumbers qt toUInt finite) (h : Holds f qt i map)
    (state : LightState) :
    ∃ active time, readColorloop qt toUInt map state =
        { state with colorloopActive := active, colorloopTime := time } ∧
      (i.colorMode ≠ ofLatin1 "none" → active = i.colorloopActive ∧ time = i.colorloopTime) := by
  unfold readColorloop
  split
  · refine ⟨_, _, rfl, fun hcolor => ?_⟩
    rw [(h.colorloop hcolor).1, (h.colorloop hcolor).2]
    exact ⟨hqt.toBool _, uint8_ofInt hqt i.colorloopTime⟩
  · rename_i hmissing
    refine ⟨state.colorloopActive, state.colorloopTime, rfl, fun hcolor => ?_⟩
    rw [contains_of_value (h.colorloop hcolor).1 rfl,
      contains_of_value (h.colorloop hcolor).2 rfl] at hmissing
    exact absurd rfl hmissing

theorem readColorMode_eq (h : Holds f qt i map) (hmode : f i.colorMode ≠ [])
    (state : LightState) :
    readColorMode qt map state = { state with colorMode := f i.colorMode } := by
  unfold readColorMode
  rw [contains_of_value h.cm rfl, if_pos rfl, h.cm]
  exact if_pos hmode

theorem readColor_frame (toUInt : QVariant D → Option Nat) (map : List (QString × QVariant D))
    (state : LightState) :
    ∃ ct ehue sat, readColor toUInt map state =
      { state with colorTemperature := ct, enhancedHue := ehue, saturation := sat } := by
  have hsame : ∃ ct ehue sat, state =
      { state with colorTemperature := ct, enhancedHue := ehue, saturation := sat } :=
    ⟨state.colorTemperature, state.enhancedHue, state.saturation, rfl⟩
  unfold readColor
  split
  · split
    · rename_i ct _
      exact ⟨UInt16.ofNat ct, state.enhancedHue, state.saturation, rfl⟩
    · exact hsame
  · split
    · split
      · rename_i ehue sat _ _
        exact ⟨state.colorTemperature, UInt16.ofNat ehue, UInt8.ofNat (UInt16.ofNat sat).toNat, rfl⟩
      · exact hsame
    · exact hsame

theorem readColor_ct (hqt : SmallNumbers qt toUInt finite) (h : Holds f qt i map)
    (hmode : i.colorMode = ofLatin1 "ct") {state : LightState}
    (hstate : state.colorMode = i.colorMode) :
    readColor toUInt map state = { state with colorTemperature := i.colorTemperature } := by
  have hct := h.ct hmode
  unfold readColor
  rw [if_pos ⟨hstate.trans hmode, contains_of_value hct rfl⟩, hct,
    hqt.toUInt _ i.colorTemperature.toNat_lt]
  simp only
  rw [UInt16.ofNat_toNat]

theorem readColor_hs (hqt : SmallNumbers qt toUInt finite) (h : Holds f qt i map)
    (hmode : i.colorMode = ofLatin1 "hs") {state : LightState}
    (hstate : state.colorMode = i.colorMode) :
    readColor toUInt map state =
      { state with enhancedHue := i.enhancedHue, saturation := i.saturation } := by
  obtain ⟨hhue, hsat⟩ := h.hs hmode
  have hother : ¬ (state.colorMode = ofLatin1 "ct" ∧ contains map "ct" = true) := by
    rintro ⟨hct, -⟩
    rw [hstate, hmode] at hct
    exact absurd hct (by decide)
  have hsmall : i.saturation.toNat < 2 ^ 16 :=
    Nat.lt_of_lt_of_le i.saturation.toNat_lt (by decide)
  unfold readColor
  rw [if_neg hother, if_pos ⟨hstate.trans hmode, contains_of_value hhue rfl,
    contains_of_value hsat rfl⟩, hhue, hsat, hqt.toUInt _ i.enhancedHue.toNat_lt,
    hqt.toUInt _ hsmall]
  simp only
  rw [UInt16.ofNat_toNat, UInt16.toNat_ofNat_of_lt' hsmall, UInt8.ofNat_toNat]

end read

/-! ## Round trip -/

/-- The light kept what is stored for its color mode. -/
structure Kept (i i' : LightState) : Prop where
  lid : i'.lid = i.lid
  on : i'.on = i.on
  bri : i'.bri = i.bri
  transitionTime : i'.transitionTime = i.transitionTime
  colorMode : i'.colorMode = i.colorMode
  xy : i.colorMode ≠ ofLatin1 "none" → i'.x = i.x ∧ i'.y = i.y
  colorloop : i.colorMode ≠ ofLatin1 "none" → i'.colorloopActive = i.colorloopActive ∧
    i'.colorloopTime = i.colorloopTime
  hs : i.colorMode = ofLatin1 "hs" → i'.enhancedHue = i.enhancedHue ∧ i'.saturation = i.saturation
  ct : i.colorMode = ofLatin1 "ct" → i'.colorTemperature = i.colorTemperature

section roundTrip

variable {qt : Qt D} {toUInt : QVariant D → Option Nat} {finite : D → Prop}

/-- **One light**: it comes back if its texts do. -/
theorem kept_readLight_iff (hqt : SmallNumbers qt toUInt finite) {i : LightState}
    {map : List (QString × QVariant D)} {f : QString → QString} (h : Holds f qt i map)
    (hmode : f i.colorMode ≠ []) (colorTemperature : UInt16) :
    Kept i (readLight qt toUInt colorTemperature map) ↔ f i.lid = i.lid ∧ f i.colorMode =
      i.colorMode := by
  -- each reader gets the state that the one before left
  obtain ⟨x, y, hxy, hposition⟩ := readXy_eq hqt h
    { lid := f i.lid, on := i.on, bri := i.bri, transitionTime := i.transitionTime,
      colorTemperature := colorTemperature }
  obtain ⟨active, time, hloop, hcolorloop⟩ := readColorloop_eq hqt h
    { lid := f i.lid, on := i.on, bri := i.bri, x := x, y := y,
      transitionTime := i.transitionTime, colorTemperature := colorTemperature }
  have hread : readLight qt toUInt colorTemperature map = readColor toUInt map
      { lid := f i.lid, on := i.on, bri := i.bri, x := x, y := y, colorMode := f i.colorMode,
        colorloopActive := active, colorloopTime := time,
        transitionTime := i.transitionTime, colorTemperature := colorTemperature } := by
    unfold readLight
    rw [readState_eq hqt h, hxy, hloop, readColorMode_eq h hmode]
  rw [hread]
  constructor
  · intro hkept
    obtain ⟨ct, ehue, sat, hcolor⟩ := readColor_frame toUInt map
      { lid := f i.lid, on := i.on, bri := i.bri, x := x, y := y, colorMode := f i.colorMode,
        colorloopActive := active, colorloopTime := time,
        transitionTime := i.transitionTime, colorTemperature := colorTemperature }
    -- the id and the color mode were read before
    rw [hcolor] at hkept
    exact ⟨hkept.lid, hkept.colorMode⟩
  · rintro ⟨hlid, hsame⟩
    -- the color mode came back, so the reader takes the writer's branch
    by_cases hct : i.colorMode = ofLatin1 "ct"
    · rw [readColor_ct hqt h hct hsame]
      refine ⟨hlid, rfl, rfl, rfl, hsame, hposition, hcolorloop, fun hhs => ?_, fun _ => rfl⟩
      rw [hct] at hhs
      exact absurd hhs (by decide)
    · by_cases hhs : i.colorMode = ofLatin1 "hs"
      · rw [readColor_hs hqt h hhs hsame]
        exact ⟨hlid, rfl, rfl, rfl, hsame, hposition, hcolorloop, fun _ => ⟨rfl, rfl⟩,
          fun h => absurd h hct⟩
      · obtain ⟨ct, ehue, sat, hcolor⟩ := readColor_frame toUInt map
          { lid := f i.lid, on := i.on, bri := i.bri, x := x, y := y,
            colorMode := f i.colorMode, colorloopActive := active, colorloopTime := time,
            transitionTime := i.transitionTime, colorTemperature := colorTemperature }
        rw [hcolor]
        exact ⟨hlid, rfl, rfl, rfl, hsame, hposition, hcolorloop, fun h => absurd h hhs,
          fun h => absurd h hct⟩

theorem every_lightMap (hnumbers : Numbers qt finite) (hqt : SmallNumbers qt toUInt finite)
    (i : LightState) : Every (Parts.doubles (ReadBack qt)) (.map (lightMap qt i)) := by
  have hentries : Json.EveryEntry (Parts.doubles (ReadBack qt)) (lightMap qt i) := by
    apply lightMap_put (P := Json.EveryEntry (Parts.doubles (ReadBack qt))) trivial
    intro map key v hmap _ hv
    apply Json.everyEntry_insert trivial ?_ hmap
    cases hv with
    | string s => exact trivial
    | bool b => exact trivial
    | number hn => exact hnumbers.number_finite _ (hqt.finite _ hn)
  exact ⟨hentries, trivial⟩

theorem jsonToLights_lightsToString (hnumbers : Numbers qt finite)
    (hqt : SmallNumbers qt toUInt finite) (colorTemperature : UInt16)
    (lights : List LightState) :
    jsonToLights qt toUInt colorTemperature (lightsToString qt lights) =
      lights.map fun i => readLight qt toUInt colorTemperature
        ((lightMap qt i).map fun e => (e.1, reread repair qt e.2)) := by
  have hevery : Every (Parts.doubles (ReadBack qt))
      (.list (lights.map fun i => .map (lightMap qt i))) := by
    rw [Every, Json.everyValue_iff, List.forall_mem_map]
    exact fun i _ => every_lightMap hnumbers hqt i
  have hread : reread repair qt (.list (lights.map fun i => .map (lightMap qt i))) =
      .list (lights.map fun i =>
        .map ((lightMap qt i).map fun e => (e.1, reread repair qt e.2))) := by
    rw [reread, Json.rereadList_eq_map, List.map_map]
    congr 1
    apply List.map_congr_left
    intro i _
    show reread repair qt (.map (lightMap qt i)) = _
    -- the keys are ASCII and sorted, so no entry replaces another
    rw [reread, Json.rereadEntries_nil qt (keys_lightMap i) (sorted_lightMap i)]
  unfold jsonToLights lightsToString
  rw [Json.parse_serialize_readBack hevery, hread]
  show (lights.map _).map _ = _
  rw [List.map_map]
  rfl

/-- **Which scenes survive storage.**  As many lights come back, in order, and all of them keep
what is stored exactly if no id and no color mode has an unpaired surrogate. -/
theorem lights_survive_iff (hnumbers : Numbers qt finite) (hqt : SmallNumbers qt toUInt finite)
    {lights : List LightState} (hmodes : ∀ i ∈ lights, i.colorMode ≠ [])
    (colorTemperature : UInt16) :
    (jsonToLights qt toUInt colorTemperature (lightsToString qt lights)).length = lights.length ∧
    (List.Forall₂ Kept lights
        (jsonToLights qt toUInt colorTemperature (lightsToString qt lights)) ↔
      ∀ i ∈ lights, QString.WellFormed i.lid ∧ QString.WellFormed i.colorMode) := by
  rw [jsonToLights_lightsToString hnumbers hqt]
  refine ⟨List.length_map _, ?_⟩
  rw [List.forall₂_map_right_iff, List.forall₂_same]
  apply forall₂_congr
  intro i hi
  have hmode : repair i.colorMode ≠ [] := by
    rw [ne_eq, repair_eq_nil_iff]
    exact hmodes i hi
  rw [kept_readLight_iff hqt ((holds_lightMap qt i).reread repair) hmode, repair_eq_self_iff,
    repair_eq_self_iff]

end roundTrip

/-- `QVariant::toUInt`, as far as `wholeQt` has numbers. -/
def wholeUInt (v : QVariant Int) : Option Nat :=
  match Json.wholeQt.toInt v with
  | none => none
  | some n => if n < 0 then none else some n.toNat

theorem smallNumbers_wholeUInt : SmallNumbers Json.wholeQt wholeUInt fun _ => True where
  finite := fun _ _ => trivial
  toUInt := by
    intro n _
    show (if (n : Int) < 0 then none else some (n : Int).toNat) = some n
    rw [if_neg (by omega)]
    rfl
  toBool := by
    intro b
    cases b with
    | false => rfl
    | true => rfl

def lightOfEachMode : List LightState :=
  [{ lid := ofLatin1 "1", on := true, bri := 254, colorTemperature := 0 },
    { lid := ofLatin1 "2", x := 0xFFFF, y := 7, colorTemperature := 0, colorMode := ofLatin1 "xy" },
    { lid := ofLatin1 "3", enhancedHue := 0xFFFF, saturation := 255, colorTemperature := 0,
      colorloopActive := true, colorloopTime := 15, colorMode := ofLatin1 "hs" },
    { lid := ofLatin1 "4", colorTemperature := 370, transitionTime := 4,
      colorMode := ofLatin1 "ct" }]

theorem lights_survive_iff_lightOfEachMode :
    List.Forall₂ Kept lightOfEachMode (jsonToLights Json.wholeQt wholeUInt 0
      (lightsToString Json.wholeQt lightOfEachMode)) := by
  have hascii : ∀ i ∈ lightOfEachMode, ∃ lid mode : String,
      (lid.toList.all fun c => c.toNat < 0x10000) = true ∧
      (mode.toList.all fun c => c.toNat < 0x10000) = true ∧
      i.lid = ofLatin1 lid ∧ i.colorMode = ofLatin1 mode := by
    unfold lightOfEachMode
    simp only [List.forall_mem_cons]
    exact ⟨⟨"1", "none", by decide, by decide, rfl, rfl⟩,
      ⟨"2", "xy", by decide, by decide, rfl, rfl⟩,
      ⟨"3", "hs", by decide, by decide, rfl, rfl⟩,
      ⟨"4", "ct", by decide, by decide, rfl, rfl⟩, fun i hi => absurd hi List.not_mem_nil⟩
  apply (lights_survive_iff Json.numbers_wholeQt smallNumbers_wholeUInt (by decide) 0).2.mpr
  intro i hi
  obtain ⟨lid, mode, hlid, hmode, heq, heq'⟩ := hascii i hi
  rw [heq, heq']
  exact ⟨wellFormed_ofLatin1 hlid, wellFormed_ofLatin1 hmode⟩

def unpairedId : LightState := { lid := [0xD83D], colorTemperature := 0 }

/-- UTF-8 has no unpaired surrogates, so the id is another one. -/
theorem unpairedId_changes :
    ¬ List.Forall₂ Kept [unpairedId] (jsonToLights Json.wholeQt wholeUInt 0
      (lightsToString Json.wholeQt [unpairedId])) := by
  intro h
  have hids : (jsonToLights Json.wholeQt wholeUInt 0
      (lightsToString Json.wholeQt [unpairedId])).map LightState.lid = [[unit '?']] := by
    decide +kernel
  have hkept : List.map LightState.lid [unpairedId] = (jsonToLights Json.wholeQt wholeUInt 0
      (lightsToString Json.wholeQt [unpairedId])).map LightState.lid := by
    rw [← List.forall₂_eq_eq_eq, List.forall₂_map_left_iff, List.forall₂_map_right_iff]
    exact h.imp fun i i' hkept => hkept.lid.symm
  rw [hids] at hkept
  exact absurd hkept (by decide)

end Scene
end DeconzRest

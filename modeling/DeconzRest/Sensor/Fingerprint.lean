import DeconzRest.Json.RoundTrip
import DeconzRest.Qt.Radix

/-!
# Fingerprints of sensors

A fingerprint is stored as a JSON object of numbers.  `readFromJsonString` assigns each number to
its field before it looks at the next one, and also when it is none.
-/

namespace DeconzRest

open QString List Json

/-- `SensorFingerprint` -/
structure SensorFingerprint where
  endpoint : UInt8 := 0xFF
  profileId : UInt16 := 0xFFFF
  deviceId : UInt16 := 0xFFFF
  inClusters : List UInt16 := []
  outClusters : List UInt16 := []
deriving DecidableEq, Repr

namespace SensorFingerprint

variable {D : Type} (qt : Qt D)

/-- `map[key] = ls`, of a list that is not empty -/
def clusterEntry (key : String) (clusters : List UInt16) : List (QString × QVariant D) :=
  if clusters ≠ [] then
    [(ofLatin1 key, .list (clusters.map fun cl => .double (qt.ofInt cl.toNat)))]
  else []

/-- The map of `toString`, in the order of its keys -/
def toVariantMap (fp : SensorFingerprint) : List (QString × QVariant D) :=
  [(ofLatin1 "d", .double (qt.ofInt fp.deviceId.toNat)),
    (ofLatin1 "ep", .double (qt.ofInt fp.endpoint.toNat))] ++
  (clusterEntry qt "in" fp.inClusters ++ (clusterEntry qt "out" fp.outClusters ++
    [(ofLatin1 "p", .double (qt.ofInt fp.profileId.toNat))]))

/-- `SensorFingerprint::toString` -/
def toString (fp : SensorFingerprint) : QString :=
  if fp.endpoint = 0xFF ∨ fp.profileId = 0xFFFF then []
  else fromUtf8 (serialize qt (.map (toVariantMap qt fp)))

/-- `toString().toUInt(&ok, 0)`; the number is 0 when `ok` is false. -/
def toUInt (v : QVariant D) : UInt32 × Bool :=
  match toUIntC (v.toString qt) with
  | some n => (n, true)
  | none => (0, false)

def readClusters (map : List (QString × QVariant D)) (key : String) : List UInt16 :=
  match QVariant.value map key with
  | .list values => values.filterMap fun v => (toUIntC (v.toString qt)).map UInt32.toUInt16
  | _ => []

/-- The assignments of `readFromJsonString` -/
def readMap (fp : SensorFingerprint) (map : List (QString × QVariant D)) :
    Bool × SensorFingerprint :=
  let (endpoint, ok) := toUInt qt (QVariant.value map "ep")
  let fp := { fp with endpoint := endpoint.toUInt8 }
  if !ok then (false, fp)
  else
    let (profileId, ok) := toUInt qt (QVariant.value map "p")
    let fp := { fp with profileId := profileId.toUInt16 }
    if !ok then (false, fp)
    else
      let (deviceId, ok) := toUInt qt (QVariant.value map "d")
      let fp := { fp with deviceId := deviceId.toUInt16 }
      if !ok then (false, fp)
      else
        (true, { fp with
          inClusters := readClusters qt map "in"
          outClusters := readClusters qt map "out" })

/-- `SensorFingerprint::readFromJsonString` -/
def readFromJsonString (fp : SensorFingerprint) (json : QString) : Bool × SensorFingerprint :=
  if json = [] then (false, fp)
  else
    let (var, ok) := parse qt json
    if !ok then (false, fp)
    else
      let map := var.toMap
      if QVariant.contains map "ep" && QVariant.contains map "p" && QVariant.contains map "d" then
        readMap qt fp map
      else (false, fp)

def keyedMap (json : QString) : Option (List (QString × QVariant D)) :=
  let map := (parse qt json).1.toMap
  if json ≠ [] ∧ (parse qt json).2 ∧ QVariant.contains map "ep" ∧ QVariant.contains map "p" ∧
      QVariant.contains map "d" then some map
  else none

/-- Where a number of the map is wrong, the fields up to it have what they are assigned, the last
one 0. -/
def Assigned (fp : SensorFingerprint) (map : List (QString × QVariant D)) : Prop :=
  match toUIntC ((QVariant.value map "ep").toString qt),
    toUIntC ((QVariant.value map "p").toString qt),
    toUIntC ((QVariant.value map "d").toString qt) with
  | none, _, _ => fp.endpoint = 0
  | some ep, none, _ => fp.endpoint = ep.toUInt8 ∧ fp.profileId = 0
  | some ep, some p, none =>
    fp.endpoint = ep.toUInt8 ∧ fp.profileId = p.toUInt16 ∧ fp.deviceId = 0
  | some _, some _, some _ => True

/-- What Qt does with small numbers: they are finite, and the text of one is its digits. -/
structure ClusterNumbers (finite : D → Prop) : Prop where
  numbers : Json.Numbers qt finite
  finite_ofInt : ∀ n : Nat, n < 2 ^ 16 → finite (qt.ofInt n)
  toText_ofInt : ∀ n : Nat, n < 2 ^ 16 → qt.toText (.double (qt.ofInt n)) = number n

/-! ## Writing and reading -/

variable {qt} {finite : D → Prop}

theorem toUIntC_ofInt (h : ClusterNumbers qt finite) {n : Nat} (hn : n < 2 ^ 16) :
    toUIntC ((QVariant.double (qt.ofInt n)).toString qt) = some (UInt32.ofNat n) := by
  show toUIntC (qt.toText (.double (qt.ofInt n))) = _
  rw [h.toText_ofInt n hn, toUIntC_number (Nat.lt_trans hn (by decide))]

theorem mem_clusterEntry {key : String} {clusters : List UInt16} {e : QString × QVariant D}
    (he : e ∈ clusterEntry qt key clusters) :
    e = (ofLatin1 key, .list (clusters.map fun cl => .double (qt.ofInt cl.toNat))) := by
  unfold clusterEntry at he
  split at he
  · exact mem_singleton.mp he
  · cases he

theorem every_toVariantMap {p : Json.Parts D} (fp : SensorFingerprint)
    (hdouble : ∀ n : Nat, n < 2 ^ 16 → p.double (qt.ofInt n))
    (htext : ∀ key ∈ ["d", "ep", "in", "out", "p"], p.text (ofLatin1 key))
    (hkeys : p.keys ((toVariantMap qt fp).map Prod.fst)) :
    Json.Every p (.map (toVariantMap qt fp)) := by
  have hlist (clusters : List UInt16) :
      Json.Every p (.list (clusters.map fun cl => .double (qt.ofInt cl.toNat))) := by
    rw [Json.Every, everyValue_iff]
    intro v hv
    obtain ⟨cl, -, rfl⟩ := mem_map.mp hv
    exact hdouble _ cl.toNat_lt
  rw [Json.Every, everyEntry_iff]
  refine ⟨fun e he => ?_, hkeys⟩
  unfold toVariantMap at he
  simp only [mem_append, mem_cons, not_mem_nil, or_false] at he
  rcases he with (rfl | rfl) | he | he | rfl
  · exact ⟨htext "d" (by simp), hdouble _ fp.deviceId.toNat_lt⟩
  · exact ⟨htext "ep" (by simp), hdouble _ (Nat.lt_trans fp.endpoint.toNat_lt (by decide))⟩
  · rw [mem_clusterEntry he]
    exact ⟨htext "in" (by simp), hlist _⟩
  · rw [mem_clusterEntry he]
    exact ⟨htext "out" (by simp), hlist _⟩
  · exact ⟨htext "p" (by simp), hdouble _ fp.profileId.toNat_lt⟩

theorem parse_toVariantMap (h : ClusterNumbers qt finite) (fp : SensorFingerprint) :
    parse qt (fromUtf8 (serialize qt (.map (toVariantMap qt fp)))) =
      (.map (toVariantMap qt fp), true) := by
  have hread : Json.Every (Json.Parts.doubles (Json.ReadBack qt)) (.map (toVariantMap qt fp)) :=
    every_toVariantMap fp (fun n hn => h.numbers.number_finite _ (h.finite_ofInt n hn))
      (fun _ _ => trivial) trivial
  rw [parse_serialize_readBack hread]
  refine congrArg (·, true)
    (reread_eq_self qt (every_toVariantMap fp (fun _ _ => trivial) ?_ ?_))
  · show ∀ key ∈ ["d", "ep", "in", "out", "p"], QString.repair (ofLatin1 key) = ofLatin1 key
    decide
  · unfold toVariantMap clusterEntry
    split_ifs <;> simp only [map_append, map_cons, map_nil] <;> decide

theorem readClusters_clusterEntry (h : ClusterNumbers qt finite) {key : String}
    {clusters : List UInt16} {map : List (QString × QVariant D)}
    (hmap : map.lookup (ofLatin1 key) = (clusterEntry qt key clusters).lookup (ofLatin1 key)) :
    readClusters qt map key = clusters := by
  unfold readClusters QVariant.value
  rw [hmap, clusterEntry]
  split_ifs with hne
  · have hback : ((fun v => (toUIntC (QVariant.toString qt v)).map UInt32.toUInt16) ∘
        fun cl : UInt16 => QVariant.double (qt.ofInt cl.toNat)) = some := by
      funext cl
      show (toUIntC ((QVariant.double (qt.ofInt cl.toNat)).toString qt)).map _ = _
      rw [toUIntC_ofInt h cl.toNat_lt, Option.map_some]
      exact congrArg some (UInt16.toNat.inj (by simp))
    rw [lookup_cons_self, Option.getD_some]
    simp only
    rw [filterMap_map, hback, filterMap_some]
  · rw [not_not.mp hne]
    rfl

theorem lookup_toVariantMap (fp : SensorFingerprint) :
    (toVariantMap qt fp).lookup (ofLatin1 "ep") = some (.double (qt.ofInt fp.endpoint.toNat)) ∧
      (toVariantMap qt fp).lookup (ofLatin1 "p") = some (.double (qt.ofInt fp.profileId.toNat)) ∧
      (toVariantMap qt fp).lookup (ofLatin1 "d") = some (.double (qt.ofInt fp.deviceId.toNat)) ∧
      (toVariantMap qt fp).lookup (ofLatin1 "in") =
        (clusterEntry qt "in" fp.inClusters).lookup (ofLatin1 "in") ∧
      (toVariantMap qt fp).lookup (ofLatin1 "out") =
        (clusterEntry qt "out" fp.outClusters).lookup (ofLatin1 "out") := by
  unfold toVariantMap clusterEntry
  split_ifs <;> exact ⟨rfl, rfl, rfl, rfl, rfl⟩

/-- **Round trip.** -/
theorem read_toString (h : ClusterNumbers qt finite) (fp old : SensorFingerprint)
    (hep : fp.endpoint ≠ 0xFF) (hp : fp.profileId ≠ 0xFFFF) :
    readFromJsonString qt old (toString qt fp) = (true, fp) := by
  have hlookup := @lookup_toVariantMap D qt fp
  obtain ⟨hlep, hlp, hld, hlin, hlout⟩ := hlookup
  have hparse := parse_toVariantMap h fp
  have hne : fromUtf8 (serialize qt (.map (toVariantMap qt fp))) ≠ [] := by
    intro hnil
    rw [hnil] at hparse
    cases hparse
  rw [toString, if_neg (not_or.mpr ⟨hep, hp⟩), readFromJsonString, if_neg hne, hparse]
  unfold readMap
  have hread {n : Nat} (hn : n < 2 ^ 16) :
      toUInt qt (.double (qt.ofInt n)) = (UInt32.ofNat n, true) := by
    rw [toUInt, toUIntC_ofInt h hn]
  simp only [QVariant.toMap, QVariant.contains, QVariant.value, hlep, hlp, hld, Option.isSome_some,
    Option.getD_some, hread fp.deviceId.toNat_lt, hread fp.profileId.toNat_lt,
    hread (Nat.lt_trans fp.endpoint.toNat_lt (by decide : 2 ^ 8 < 2 ^ 16)),
    readClusters_clusterEntry h hlin, readClusters_clusterEntry h hlout]
  simp

theorem readMap_iff (fp : SensorFingerprint) (map : List (QString × QVariant D)) :
    ((readMap qt fp map).1 = false → (readMap qt fp map).2 = fp) ↔ Assigned qt fp map := by
  obtain ⟨endpoint, profileId, deviceId, inClusters, outClusters⟩ := fp
  unfold readMap Assigned toUInt
  cases toUIntC ((QVariant.value map "ep").toString qt) with
  | none => simp [eq_comm]
  | some ep =>
    cases toUIntC ((QVariant.value map "p").toString qt) with
    | none => simp [eq_comm]
    | some p =>
      cases toUIntC ((QVariant.value map "d").toString qt) with
      | none => simp [eq_comm]
      | some d => simp

theorem read_eq (fp : SensorFingerprint) (json : QString) :
    readFromJsonString qt fp json = (keyedMap qt json).elim (false, fp) (readMap qt fp) := by
  unfold readFromJsonString keyedMap
  by_cases hjson : json = []
  · simp [hjson]
  · cases hok : (parse qt json).2 with
    | false => simp [hjson, hok]
    | true =>
      by_cases hkeys : QVariant.contains (parse qt json).1.toMap "ep" = true ∧
          QVariant.contains (parse qt json).1.toMap "p" = true ∧
          QVariant.contains (parse qt json).1.toMap "d" = true
      · simp [hjson, hok, hkeys]
      · simp [hjson, hok, hkeys, and_assoc]

theorem unchanged_iff (fp : SensorFingerprint) (json : QString) :
    ((readFromJsonString qt fp json).1 = false → (readFromJsonString qt fp json).2 = fp) ↔ ∀ map ∈
      keyedMap qt json, Assigned qt fp map := by
  rw [read_eq]
  cases keyedMap qt json with
  | none => simp
  | some map =>
    rw [Option.elim_some, readMap_iff]
    simp

/-- **Fingerprints.** -/
theorem fingerprint_iff (h : ClusterNumbers qt finite) :
    (∀ fp old : SensorFingerprint, fp.endpoint ≠ 0xFF → fp.profileId ≠ 0xFFFF →
      readFromJsonString qt old (toString qt fp) = (true, fp)) ∧
    ∀ fp json, ((readFromJsonString qt fp json).1 = false → (readFromJsonString qt fp json).2 =
      fp) ↔ ∀ map ∈ keyedMap qt json, Assigned qt fp map :=
  ⟨read_toString h, unchanged_iff⟩

theorem clusterNumbers_wholeQt : ClusterNumbers wholeQt fun _ => True where
  numbers := numbers_wholeQt
  finite_ofInt := fun _ _ => trivial
  toText_ofInt := fun _ _ => rfl

theorem fingerprint_iff_wholeQt :
    readFromJsonString wholeQt {} (toString wholeQt
      { endpoint := 1, profileId := 0x0104, deviceId := 0x0402, inClusters := [0, 0x0500, 0] }) =
    (true, { endpoint := 1, profileId := 0x0104, deviceId := 0x0402,
             inClusters := [0, 0x0500, 0] }) :=
  (fingerprint_iff clusterNumbers_wholeQt).1 _ _ (by decide) (by decide)

/-- An object whose `"p"` is no number -/
def badProfile : QString := ofLatin1 "\x7b\"ep\":2,\"p\":\"\",\"d\":0\x7d"

theorem badProfile_assigns :
    ¬ ((readFromJsonString wholeQt { endpoint := 1, profileId := 0x0104 } badProfile).1 =
        false →
      (readFromJsonString wholeQt { endpoint := 1, profileId := 0x0104 } badProfile).2 =
        { endpoint := 1, profileId := 0x0104 }) := by
  decide +kernel

end SensorFingerprint
end DeconzRest

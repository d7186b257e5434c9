import DeconzRest.Scene.View
import Mathlib.Data.List.Perm.Basic

/-!
# Extension field sets that are read back

A set of another cluster is skipped, and the sets of the on/off and the level cluster are read
whole, so these may stand in any order (`viewSets_plain`).  Behind the color set a byte is left
that is read as the first one of what follows (`readSet_color`): nothing comes of it at the end,
but the set behind it is not recognised any more.
-/

namespace DeconzRest
namespace Scene

theorem length_readFields (clusterId : UInt16) (extLength : UInt8) (s : DataStream) (v : Viewed) :
    (readFields clusterId extLength s v).2.1.bytes.length ≤ s.bytes.length := by
  have h8 := s.length_read8
  have hx := s.length_read16
  have hy := s.read16.2.length_read16
  have hhue := s.read16.2.read16.2.length_read16
  have hsat := s.read16.2.read16.2.read16.2.length_read8
  unfold readFields
  split
  · show s.read8.2.bytes.length ≤ _
    omega
  · split
    · show s.read8.2.bytes.length ≤ _
      omega
    · split
      · simp only
        split
        · show s.read16.2.read16.2.read16.2.read8.2.bytes.length ≤ _
          omega
        · show s.read16.2.read16.2.bytes.length ≤ _
          omega
      · exact le_rfl

theorem length_readSet (s : DataStream) (v : Viewed) :
    (readSet s v).1.bytes.length ≤ s.bytes.length - 1 := by
  have hcluster := s.length_read16
  have hlength := s.read16.2.length_read8
  have hfields := length_readFields s.read16.1 s.read16.2.read8.1 s.read16.2.read8.2 v
  have hrest := DataStream.length_discard
    (readFields s.read16.1 s.read16.2.read8.1 s.read16.2.read8.2 v).1.toNat
    (readFields s.read16.1 s.read16.2.read8.1 s.read16.2.read8.2 v).2.1
  exact Nat.le_trans hrest (Nat.le_trans hfields (by omega))

theorem readSets_eq {n : Nat} {s : DataStream} (h : s.bytes.length ≤ n) (v : Viewed) :
    readSets n s v = viewSets s v := by
  have hall : ∀ {n m : Nat} {s : DataStream} {v : Viewed}, s.bytes.length ≤ n → s.bytes.length ≤ m →
      readSets n s v = readSets m s v := by
    intro n
    induction n with
    | zero =>
      intro m s v hn _
      have hnil : s.bytes = [] := List.length_eq_zero_iff.mp (Nat.le_zero.mp hn)
      cases m with
      | zero => rfl
      | succ m => rw [readSets, readSets, if_pos hnil]
    | succ n ih =>
      intro m s v hn hm
      have hless := length_readSet s v
      cases m with
      | zero =>
        have hnil : s.bytes = [] := List.length_eq_zero_iff.mp (Nat.le_zero.mp hm)
        rw [readSets, readSets, if_pos hnil]
      | succ m =>
        rw [readSets, readSets, ih (m := m) (by omega) (by omega)]
  exact hall h le_rfl

theorem viewSets_cons {s : DataStream} (h : s.bytes ≠ []) (v : Viewed) :
    viewSets s v = viewSets (readSet s v).1 (readSet s v).2 := by
  have hless := length_readSet s v
  rw [← readSets_eq (Nat.le_succ s.bytes.length) v, readSets, if_neg h, readSets_eq (by omega)]

/-! ## Sets -/

/-- An extension field set: its length is a byte. -/
structure FieldSet where
  cluster : UInt16
  data : List UInt8
  short : data.length < 256

namespace FieldSet

def bytes (e : FieldSet) : List UInt8 :=
  writeLE 2 e.cluster.toNat ++ UInt8.ofNat e.data.length :: e.data

def Foreign (e : FieldSet) : Prop := e.cluster ≠ 0x0006 ∧ e.cluster ≠ 0x0008 ∧ e.cluster ≠ 0x0300

/-- The set is read whole, and `f` is what it does. -/
def Reads (e : FieldSet) (f : Viewed → Viewed) : Prop :=
  ∀ rest v, readSet ⟨e.bytes ++ rest, false⟩ v = (⟨rest, false⟩, f v)

end FieldSet

def onOffSet (l : Light) : FieldSet := ⟨0x0006, [if l.on then 1 else 0], Nat.lt_of_sub_eq_succ rfl⟩

def levelSet (l : Light) : FieldSet := ⟨0x0008, [l.bri], Nat.lt_of_sub_eq_succ rfl⟩

def colorData (l : Light) (c : Color) : List UInt8 :=
  writeLE 2 c.x.toNat ++ writeLE 2 c.y.toNat ++ writeLE 2 c.enhancedHue.toNat ++ [c.saturation] ++
    [if l.colorloopActive then 1 else 0] ++ [l.colorloopDirection] ++
    writeLE 2 l.colorloopTime.toNat

def colorSet (l : Light) (c : Color) : FieldSet :=
  ⟨0x0300, colorData l c, Nat.lt_of_sub_eq_succ rfl⟩

def builtSets (node : Node) (l : Light) : List FieldSet :=
  onOffSet l :: levelSet l ::
    match sentColor node l with
    | none => []
    | some c => [colorSet l c]

theorem readSet_bytes (e : FieldSet) (rest : List UInt8) (v : Viewed) :
    readSet ⟨e.bytes ++ rest, false⟩ v =
      ((readFields e.cluster (.ofNat e.data.length) ⟨e.data ++ rest, false⟩ v).2.1.discard
        (readFields e.cluster (.ofNat e.data.length) ⟨e.data ++ rest, false⟩ v).1.toNat,
      (readFields e.cluster (.ofNat e.data.length) ⟨e.data ++ rest, false⟩ v).2.2) := by
  unfold readSet FieldSet.bytes
  rw [List.append_assoc, DataStream.read16_writeLE, List.cons_append]
  simp only [DataStream.read8_cons]

theorem reads_foreign {e : FieldSet} (h : e.Foreign) : e.Reads id := by
  intro rest v
  obtain ⟨honOff, hlevel, hcolor⟩ := h
  have hfields : readFields e.cluster (.ofNat e.data.length) ⟨e.data ++ rest, false⟩ v =
      (.ofNat e.data.length, ⟨e.data ++ rest, false⟩, v) := by
    unfold readFields
    rw [if_neg fun h => honOff h.1, if_neg fun h => hlevel h.1, if_neg fun h => hcolor h.1]
  have hlength : (UInt8.ofNat e.data.length).toNat = e.data.length := by
    rw [UInt8.toNat_ofNat']
    exact Nat.mod_eq_of_lt e.short
  rw [readSet_bytes, hfields]
  simp only
  rw [hlength, DataStream.discard_append, id]

theorem reads_onOff (l : Light) : (onOffSet l).Reads fun v =>
    { v with hasOnOff := true, onOff := if l.on then 1 else 0 } := by
  intro rest v
  have hone : UInt8.ofNat (onOffSet l).data.length = 1 := rfl
  have hfields : readFields 0x0006 1 ⟨(if l.on then 1 else 0) :: rest, false⟩ v =
      (0, ⟨rest, false⟩, { v with hasOnOff := true, onOff := if l.on then 1 else 0 }) := by
    unfold readFields
    rw [if_pos ⟨rfl, by decide⟩, DataStream.read8_cons]
    simp only
    cases l.on <;> rw [show (1 : UInt8) - 1 = 0 from rfl] <;> simp
  rw [readSet_bytes, hone]
  show ((readFields 0x0006 1 ⟨(if l.on then 1 else 0) :: rest, false⟩ v).2.1.discard _, _) = _
  exact congrArg (fun r : UInt8 × DataStream × Viewed => (r.2.1.discard r.1.toNat, r.2.2)) hfields

theorem reads_level (l : Light) : (levelSet l).Reads fun v =>
    { v with hasBri := true, bri := l.bri } := by
  intro rest v
  have hone : UInt8.ofNat (levelSet l).data.length = 1 := rfl
  have hfields : readFields 0x0008 1 ⟨l.bri :: rest, false⟩ v =
      (0, ⟨rest, false⟩, { v with hasBri := true, bri := l.bri }) := by
    unfold readFields
    rw [if_neg (by decide), if_pos ⟨rfl, by decide⟩, DataStream.read8_cons]
    simp
  rw [readSet_bytes, hone]
  exact congrArg (fun r : UInt8 × DataStream × Viewed => (r.2.1.discard r.1.toNat, r.2.2)) hfields

def Viewed.withColor (v : Viewed) (c : Color) : Viewed :=
  { v with
    hasXY := true, hasHueSat := true
    x := c.x, y := c.y, ehue := c.enhancedHue, sat := c.saturation }

theorem readSet_color (l : Light) {c : Color} (hx : c.x ≠ 0) (hy : c.y ≠ 0) (rest : List UInt8)
    (v : Viewed) :
    readSet ⟨(colorSet l c).bytes ++ rest, false⟩ v = (⟨0 :: rest, false⟩, v.withColor c) := by
  have heleven : UInt8.ofNat (colorSet l c).data.length = 11 := rfl
  have hdata : colorData l c ++ rest = writeLE 2 c.x.toNat ++ (writeLE 2 c.y.toNat ++
      (writeLE 2 c.enhancedHue.toNat ++ (c.saturation :: ((if l.colorloopActive then 1 else 0) ::
        l.colorloopDirection :: UInt8.ofNat (l.colorloopTime.toNat % 256) ::
          UInt8.ofNat (l.colorloopTime.toNat / 256 % 256) :: rest)))) := rfl
  have hupper : UInt8.ofNat (l.colorloopTime.toNat / 256 % 256) = 0 := by
    rw [Nat.div_eq_of_lt l.colorloopTime.toNat_lt]
    rfl
  have hfields : readFields 0x0300 11 ⟨colorData l c ++ rest, false⟩ v =
      (3, ⟨(if l.colorloopActive then 1 else 0) :: l.colorloopDirection ::
        UInt8.ofNat (l.colorloopTime.toNat % 256) :: 0 :: rest, false⟩, v.withColor c) := by
    unfold readFields
    rw [if_neg (by decide), if_neg (by decide), if_pos ⟨rfl, by decide⟩, hdata, hupper]
    simp only [DataStream.read16_writeLE]
    -- 11 - 4 - 4 are counted, where 7 bytes have been read
    rw [if_pos (by decide)]
    simp only [DataStream.read8_cons]
    simp [Viewed.withColor, hx, hy]
  rw [readSet_bytes, heleven]
  exact congrArg (fun r : UInt8 × DataStream × Viewed => (r.2.1.discard r.1.toNat, r.2.2)) hfields

end Scene
end DeconzRest

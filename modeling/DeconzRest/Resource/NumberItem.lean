import DeconzRest.Lib.Binary64
import DeconzRest.Qt.Text

/-!
# Numbers in resource items

An item of an integer type holds 64 bits.  `setValue(qint64)` takes all of them, `toVariant` makes
a `double` of them, and `setValue(const QVariant &)` makes an `int` of 32 bits of the `double`.
-/

namespace DeconzRest
namespace NumberItem

/-- The integers of `ApiDataType` -/
inductive IntegerType where
  | uint8
  | uint16
  | uint32
  | uint64
  | int8
  | int16
  | int32
  | int64
deriving DecidableEq, Repr

/-- `ResourceItemDescriptor` -/
structure Descriptor where
  type : IntegerType
  validMin : Binary64 := .zero
  validMax : Binary64 := .zero
deriving DecidableEq, Repr

/-- `ResourceItem::ValueSource` -/
inductive ValueSource where
  | unknown
  | device
  | api
deriving DecidableEq, Repr

/-- `ResourceItem`; a time is `none` where it is not valid. -/
structure Item where
  num : Int := 0
  numPrev : Int := 0
  lastSet : Option Int := none
  lastChanged : Option Int := none
  valueSource : ValueSource := .unknown
  needPushSet : Bool := false
  needPushChange : Bool := false
  needStore : Bool := false
deriving DecidableEq, Repr

/-- The range check of `setValue(qint64)` fails. -/
def outOfRange (rid : Descriptor) (val : Binary64) : Bool :=
  (!rid.validMin.eqv .zero || !rid.validMax.eqv .zero) &&
    (val.lt rid.validMin || rid.validMax.lt val)

/-- The range check of `setValue(const QVariant &)` -/
def inRange (rid : Descriptor) (n : Binary64) : Bool :=
  (rid.validMin.eqv .zero && rid.validMax.eqv .zero) || (rid.validMin.le n && n.le rid.validMax)

/-- What both do with a number that they take -/
def Item.store (item : Item) (now : Int) (source : ValueSource) (n : Int) : Item :=
  { num := n
    numPrev := item.num
    lastSet := some now
    lastChanged := if item.num = n then item.lastChanged else some now
    valueSource := source
    needPushSet := true
    needPushChange := item.needPushChange || decide (item.num ≠ n)
    needStore := true }

/-- `ResourceItem::setValue(qint64)` -/
def setNumber (rid : Descriptor) (now : Int) (source : ValueSource) (item : Item) (val : Int) :
    Item × Bool :=
  if outOfRange rid (.ofInt val) then (item, false) else (item.store now source val, true)

/-- `ResourceItem::setValue(const QVariant &)`; `toInt` is `QVariant::toInt(&ok)`, and `none` where
`ok` is false. -/
def setVariant (toInt : QVariant Binary64 → Option Int32) (rid : Descriptor) (now : Int)
    (source : ValueSource) (item : Item) (val : QVariant Binary64) : Item × Bool :=
  if val.isValid = false then
    ({ item with lastSet := none, lastChanged := none, valueSource := .unknown }, true)
  else
    match toInt val with
    | some n =>
      if inRange rid (.ofInt n.toInt) then (item.store now source n.toInt, true)
      else ({ item with valueSource := .unknown }, false)
    | none => ({ item with valueSource := .unknown }, false)

/-- `ResourceItem::toVariant` -/
def toVariant (item : Item) : QVariant Binary64 :=
  if item.lastSet = none then .invalid else .double (.ofInt item.num)

/-- The loop of `DEV_FillItemFromSubdevices`; a sub-device can be without the item. -/
def fillFrom (toInt : QVariant Binary64 → Option Int32) (rid : Descriptor) (now : Int)
    (ditem : Item) : List (Option Item) → Item × Bool
  | [] => (ditem, false)
  | none :: rest => fillFrom toInt rid now ditem rest
  | some sitem :: rest =>
    if sitem.lastSet = none then fillFrom toInt rid now ditem rest
    else
      let copied := setVariant toInt rid now .unknown ditem (toVariant sitem)
      if copied.2 then copied else fillFrom toInt rid now copied.1 rest

/-- `DEV_FillItemFromSubdevices` -/
def fillItemFromSubdevices (toInt : QVariant Binary64 → Option Int32) (rid : Descriptor)
    (now : Int) (ditem : Item) (subDevices : List (Option Item)) : Item × Bool :=
  if ditem.lastSet = none then fillFrom toInt rid now ditem subDevices else (ditem, true)

/-- What Qt says about the conversion of a `double` that is an `int` -/
def Exact (toInt : QVariant Binary64 → Option Int32) : Prop :=
  ∀ n : Int32, toInt (.double (.finite n.toInt)) = some n

/-- A copy through the variant is taken and holds the number. -/
def Copies (toInt : QVariant Binary64 → Option Int32) (rid : Descriptor) (now : Int)
    (source : ValueSource) (other item : Item) (v : Int) : Prop :=
  (setVariant toInt rid now source item (toVariant other)).2 = true ∧
    (setVariant toInt rid now source item (toVariant other)).1.num = v

/-- The number fits an `int`, and the bounds are numbers. -/
structure Fits (rid : Descriptor) (v : Int) : Prop where
  le : -2 ^ 31 ≤ v
  lt : v < 2 ^ 31
  validMin : rid.validMin ≠ .nan
  validMax : rid.validMax ≠ .nan

section Copy

variable {toInt : QVariant Binary64 → Option Int32} {rid : Descriptor} {now : Int}
  {source : ValueSource} {other item : Item} {v : Int}

theorem inRange_eq_not_outOfRange (hmin : rid.validMin ≠ .nan) (hmax : rid.validMax ≠ .nan)
    {n : Binary64} (hn : n ≠ .nan) (h : outOfRange rid n = false) : inRange rid n = true := by
  unfold outOfRange at h
  unfold inRange
  rcases Bool.and_eq_false_iff.mp h with hfree | hbounds
  · rw [Bool.or_eq_false_iff, Bool.not_eq_false', Bool.not_eq_false'] at hfree
    rw [hfree.1, hfree.2]
    rfl
  · obtain ⟨hlow, hhigh⟩ := Bool.or_eq_false_iff.mp hbounds
    rw [Binary64.le_of_not_lt hmin hn hlow, Binary64.le_of_not_lt hn hmax hhigh]
    exact Bool.or_true _

theorem inRange_of_nan (h : rid.validMin = .nan ∨ rid.validMax = .nan) (n : Binary64) :
    inRange rid n = false := by
  unfold inRange
  rcases h with h | h
  · rw [h]
    rfl
  · rw [h, Binary64.le_nan, Bool.and_false, Bool.or_false]
    exact Bool.and_false _

theorem toVariant_setNumber (hset : (setNumber rid now source item v).2 = true) :
    outOfRange rid (.ofInt v) = false ∧ toVariant (setNumber rid now source item v).1 =
      .double (.ofInt v) := by
  unfold setNumber at hset ⊢
  cases hout : outOfRange rid (.ofInt v) with
  | true =>
    rw [hout] at hset
    cases hset
  | false => exact ⟨rfl, rfl⟩

theorem setVariant_double (x : Binary64) :
    ((setVariant toInt rid now source item (.double x)).2 = true ∧
        (setVariant toInt rid now source item (.double x)).1.num = v) ↔
      ∃ n, toInt (.double x) = some n ∧ inRange rid (.ofInt n.toInt) = true ∧ n.toInt = v := by
  unfold setVariant
  rw [if_neg fun h => Bool.noConfusion h]
  cases hn : toInt (.double x) with
  | none => exact ⟨fun h => (Bool.false_ne_true h.1).elim, fun ⟨n, h, _⟩ => (nomatch h)⟩
  | some n =>
    simp only
    cases hrange : inRange rid (.ofInt n.toInt) with
    | true =>
      rw [if_pos rfl]
      constructor
      · rintro ⟨-, hv⟩
        exact ⟨n, rfl, hrange, hv⟩
      · rintro ⟨m, hm, -, hv⟩
        rw [Option.some_inj.mp hm]
        exact ⟨rfl, hv⟩
    | false =>
      rw [if_neg Bool.false_ne_true]
      constructor
      · exact fun h => (Bool.false_ne_true h.1).elim
      · rintro ⟨m, hm, hin, -⟩
        rw [← Option.some_inj.mp hm, hrange] at hin
        exact (Bool.false_ne_true hin).elim

theorem fits_of_copies (hset : (setNumber rid now source other v).2 = true) {now' : Int}
    {source' : ValueSource}
    (h : Copies toInt rid now' source' (setNumber rid now source other v).1 item v) :
    Fits rid v := by
  unfold Copies at h
  rw [(toVariant_setNumber hset).2, setVariant_double] at h
  obtain ⟨n, -, hin, rfl⟩ := h
  refine ⟨n.le_toInt, n.toInt_lt, fun hnan => ?_, fun hnan => ?_⟩
  · rw [inRange_of_nan (.inl hnan)] at hin
    cases hin
  · rw [inRange_of_nan (.inr hnan)] at hin
    cases hin

theorem copies_of_fits (hexact : Exact toInt) (hv : v.natAbs < 2 ^ 53)
    (hset : (setNumber rid now source other v).2 = true) (hfits : Fits rid v) (now' : Int)
    (source' : ValueSource) (item : Item) :
    Copies toInt rid now' source' (setNumber rid now source other v).1 item v := by
  obtain ⟨hrange, hvariant⟩ := toVariant_setNumber hset
  have hint : (Int32.ofInt v).toInt = v := Int32.toInt_ofInt_of_le hfits.le hfits.lt
  unfold Copies
  rw [hvariant, setVariant_double]
  refine ⟨Int32.ofInt v, ?_, ?_, hint⟩
  · have hsame := hexact (Int32.ofInt v)
    rwa [hint, ← Binary64.ofInt_eq hv] at hsame
  · rw [hint]
    refine inRange_eq_not_outOfRange hfits.validMin hfits.validMax ?_ hrange
    rw [Binary64.ofInt_eq hv]
    exact fun h => nomatch h

/-- **A copy through the variant** keeps a number exactly if it fits an `int`. -/
theorem copies_iff (hexact : Exact toInt) (hv : v.natAbs < 2 ^ 53)
    (hset : (setNumber rid now source other v).2 = true) (now' : Int) (source' : ValueSource)
    (item : Item) :
    Copies toInt rid now' source' (setNumber rid now source other v).1 item v ↔ Fits rid v :=
  ⟨fits_of_copies hset, fun h => copies_of_fits hexact hv hset h now' source' item⟩

/-- `QVariant::toInt` of a `double`: it is rounded, and the lower 32 bits are kept. -/
def lowerBits : QVariant Binary64 → Option Int32
  | .double (.finite q) => some (Int32.ofInt (q + 1 / 2).floor)
  | _ => none

theorem exact_lowerBits : Exact lowerBits := by
  intro n
  have hhalf : ((n.toInt : Rat) + 1 / 2).floor = n.toInt := by
    have hzero : (1 / 2 : Rat).floor = 0 := by decide +kernel
    rw [Rat.add_comm, Rat.floor_add_intCast, hzero, Int.zero_add]
  rw [lowerBits, hhalf, Int32.ofInt_toInt]

/-- `state/consumption` -/
def stateConsumption : Descriptor := { type := .uint64 }

/-- Two million watt hours -/
theorem twoMillion_copied :
    Copies lowerBits stateConsumption 1 .unknown
      (setNumber stateConsumption 0 .device {} 2000000).1 {} 2000000 :=
  (copies_iff exact_lowerBits (by decide) (by decide +kernel) 1 .unknown {}).mpr
    ⟨by decide, by decide, (fun h => nomatch h), (fun h => nomatch h)⟩

/-- Three thousand millions are more than an `int` holds. -/
theorem threeMilliards_not_copied :
    ¬ ∀ (toInt : QVariant Binary64 → Option Int32) (rid : Descriptor) (other item : Item) (v : Int),
      Exact toInt → v.natAbs < 2 ^ 53 → (setNumber rid 0 .device other v).2 = true →
      Copies toInt rid 1 .unknown (setNumber rid 0 .device other v).1 item v := by
  intro hall
  have hfits := fits_of_copies (by decide +kernel)
    (hall lowerBits stateConsumption {} {} 3000000000 exact_lowerBits (by decide)
      (by decide +kernel))
  exact absurd hfits.lt (by decide)

end Copy

end NumberItem
end DeconzRest

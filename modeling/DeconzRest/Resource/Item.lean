import DeconzRest.Qt.Text

/-!
# `ResourceItem`

A resource item holds one value of a REST resource, together with the flags
that tell the web socket and the database code what is still to be sent.  The
model keeps what the code of this development reads: the number and the one
before it, the text, whether the item was ever set, and the two push flags.

The type and the valid range come from the item's descriptor, which the source
finds in the global descriptor table; here every function takes it as `rid`.
-/

namespace DeconzRest

/-- `ApiDataType`, for the types that the modelled resources use. -/
inductive ApiDataType where
  | bool
  | uint8
  | uint16
  | uint32
  | string
deriving DecidableEq, Repr

/-- `ResourceItemDescriptor`: type, suffix and valid range. -/
structure ResourceItemDescriptor where
  type : ApiDataType
  suffix : String
  validMin : Int := 0
  validMax : Int := 0
deriving DecidableEq, Repr

/-- `ResourceItem`; `isSet` is `m_lastSet.isValid()`. -/
structure ResourceItem where
  num : Int := 0
  numPrev : Int := 0
  str : QString := []
  isSet : Bool := false
  needPushSet : Bool := false
  needPushChange : Bool := false
deriving DecidableEq, Repr

namespace ResourceItem

/-- The range check of `setValue`: a descriptor with both bounds zero has none. -/
def inRange (rid : ResourceItemDescriptor) (val : Int) : Bool :=
  (rid.validMin == 0 && rid.validMax == 0) ||
    (decide (rid.validMin ≤ val) && decide (val ≤ rid.validMax))

/-- `ResourceItem::setValue(qint64)`; the second component is the result. -/
def setNumber (rid : ResourceItemDescriptor) (it : ResourceItem) (val : Int) :
    ResourceItem × Bool :=
  if inRange rid val then
    ({ it with
        isSet := true
        numPrev := it.num
        needPushSet := true
        num := val
        needPushChange := it.needPushChange || decide (it.num ≠ val) }, true)
  else
    (it, false)

/-- The string branch of `ResourceItem::setValue(const QVariant &)`. -/
def setString (it : ResourceItem) (val : QString) : ResourceItem :=
  let str := QString.trimmed val
  { it with
      isSet := true
      needPushSet := true
      str := str
      needPushChange := it.needPushChange || decide (it.str ≠ str) }

variable {D : Type}

/-- `ResourceItem::setValue(const QVariant &)`.  An invalid variant only takes
the time stamps away. -/
def setVariant (qt : Qt D) (rid : ResourceItemDescriptor) (it : ResourceItem)
    (val : QVariant D) : ResourceItem × Bool :=
  if val.isValid = false then
    ({ it with isSet := false }, true)
  else
    match rid.type with
    | .string => (setString it (val.toString qt), true)
    | .bool =>
      let n : Int := if qt.toBool val then 1 else 0
      ({ it with
          isSet := true
          numPrev := it.num
          needPushSet := true
          num := n
          needPushChange := it.needPushChange || decide (it.num ≠ n) }, true)
    | .uint8 | .uint16 | .uint32 =>
      match qt.toInt val with
      | some n => setNumber rid it n
      | none => (it, false)

/-- `ResourceItem::toVariant` -/
def toVariant (qt : Qt D) (rid : ResourceItemDescriptor) (it : ResourceItem) : QVariant D :=
  if it.isSet = false then
    match rid.type with
    | .string => .string []
    | _ => .invalid
  else
    match rid.type with
    | .string => .string it.str
    | .bool => .bool (decide (it.num ≠ 0))
    | .uint8 | .uint16 | .uint32 => .double (qt.ofInt it.num)

theorem setNumber_eq_of_inRange {rid : ResourceItemDescriptor} {val : Int}
    (h : inRange rid val = true) (it : ResourceItem) :
    (setNumber rid it val).2 = true ∧ (setNumber rid it val).1.num = val := by
  simp [setNumber, h]

end ResourceItem

end DeconzRest

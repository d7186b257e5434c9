import DeconzRest.Resource.Item

/-!
# Resource items as the rules see them

The rule code looks at more of a resource item than its value: when the value
last changed, and which rules the item triggers.  `RuleItem` adds both to
`ResourceItem`; its setters do to the value what those of `ResourceItem` do
(`setNumber_toResourceItem`).
-/

namespace DeconzRest

/-- `ResourceItem` with `m_lastChanged`, in milliseconds since the epoch and `none`
when it is invalid, and `m_rulesInvolved`. -/
structure RuleItem extends ResourceItem where
  lastChanged : Option Int := none
  rulesInvolved : List Int := []
deriving DecidableEq, Repr

namespace RuleItem

/-- `ResourceItem::setValue(qint64)` at the time `now`. -/
def setNumber (rid : ResourceItemDescriptor) (now : Int) (it : RuleItem) (val : Int) :
    RuleItem × Bool :=
  if ResourceItem.inRange rid val then
    ({ it with
        isSet := true
        numPrev := it.num
        needPushSet := true
        num := val
        lastChanged := if it.num ≠ val then some now else it.lastChanged
        needPushChange := it.needPushChange || decide (it.num ≠ val) }, true)
  else
    (it, false)

/-- `ResourceItem::setValue(QDateTime)` for an item of type `DataTypeTime`, at the time
`now`. -/
def setDateTime (now : Int) (it : RuleItem) (ms : Int) : RuleItem :=
  { it with
      isSet := true
      numPrev := it.num
      needPushSet := true
      num := ms
      lastChanged := if it.num ≠ ms then some now else it.lastChanged
      needPushChange := it.needPushChange || decide (it.num ≠ ms) }

/-- `ResourceItem::inRule` -/
def inRule (it : RuleItem) (ruleHandle : Int) : RuleItem :=
  if ruleHandle ∈ it.rulesInvolved then it
  else { it with rulesInvolved := it.rulesInvolved ++ [ruleHandle] }

theorem setNumber_lastChanged {rid : ResourceItemDescriptor} {it : RuleItem} {val : Int}
    (h : val = it.num ∨ ResourceItem.inRange rid val = false) (now : Int) :
    (setNumber rid now it val).1.lastChanged = it.lastChanged := by
  unfold setNumber
  rcases h with rfl | hrange
  · split <;> simp
  · simp [hrange]

@[simp] theorem mem_inRule (it : RuleItem) (ruleHandle handle : Int) :
    handle ∈ (it.inRule ruleHandle).rulesInvolved ↔ handle ∈ it.rulesInvolved ∨ handle =
      ruleHandle := by
  unfold inRule
  split
  · rename_i hmem
    constructor
    · exact .inl
    · rintro (h | rfl)
      · exact h
      · exact hmem
  · simp

end RuleItem
end DeconzRest

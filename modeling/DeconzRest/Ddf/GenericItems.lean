import DeconzRest.Ddf.DeviceObject

/-!
# `DDF_MergeGenericItems`

What the items of a description leave out is taken from the generic items.  An item that has taken
its parameters does not tell them from its own any more: `isGenericRead` and its like are cleared
by the next merge (`merge_idempotent_iff`).
-/

namespace DeconzRest
namespace DeviceObject

open QString

variable {D : Type}

/-- What every item gets that has a generic item -/
def Item.unmarked (item gen : Item D) : Item D :=
  { item with
      isImplicit := gen.isImplicit
      isManaged := gen.isManaged
      isGenericRead := false
      isGenericWrite := false
      isGenericParse := false }

def Item.withParameters (item gen : Item D) : Item D :=
  { item with
      readParameters := item.readParameters.or gen.readParameters
      isGenericRead := item.isGenericRead || item.readParameters.isNone
      writeParameters := item.writeParameters.or gen.writeParameters
      isGenericWrite := item.isGenericWrite || item.writeParameters.isNone
      parseParameters := item.parseParameters.or gen.parseParameters
      isGenericParse := item.isGenericParse || item.parseParameters.isNone
      refreshInterval :=
        if item.refreshInterval = -1 ∧ gen.refreshInterval ≠ item.refreshInterval then
          gen.refreshInterval
        else item.refreshInterval }

/-- The access, the visibility and the default value -/
def Item.withDefaults (item gen : Item D) : Item D :=
  { item with
      descriptor :=
        if item.descriptor.access = .unknown then
          { item.descriptor with access := gen.descriptor.access }
        else item.descriptor
      isPublic := if item.hasIsPublic then item.isPublic else gen.isPublic
      defaultValue := item.defaultValue.or gen.defaultValue }

def mergeItem (gen item : Item D) : Item D :=
  let item := item.unmarked gen
  (if item.isStatic then item else item.withParameters gen).withDefaults gen

def genericItem? (genericItems : List (Item D)) (suffix : String) : Option (Item D) :=
  genericItems.find? fun gen => gen.descriptor.suffix == suffix

/-! ## Descriptions -/

def mergeGeneric (genericItems : List (Item D)) (item : Item D) : Item D :=
  match genericItem? genericItems item.descriptor.suffix with
  | some gen => mergeItem gen item
  | none => item

/-- `DDF_MergeGenericItems` -/
def mergeGenericItems (genericItems : List (Item D)) (ddf : DeviceDescription D) :
    DeviceDescription D :=
  { ddf with
      subDevices := ddf.subDevices.map fun sub =>
        { sub with items := sub.items.map (mergeGeneric genericItems) } }

/-- What the item takes of the parameters of the generic item is nothing. -/
structure KeepsMarks (gen item : Item D) : Prop where
  read : item.readParameters = none → gen.readParameters = none
  write : item.writeParameters = none → gen.writeParameters = none
  parse : item.parseParameters = none → gen.parseParameters = none

variable {gen item : Item D}

theorem isNone_or_eq_iff {α : Type} {a b : Option α} :
    (a.or b).isNone = a.isNone ↔ (a = none → b = none) := by
  cases a with
  | none => cases b <;> simp
  | some x => simp

theorem or_or_self {α : Type} (a b : Option α) : (a.or b).or b = a.or b := by
  cases a with
  | none => cases b <;> rfl
  | some x => rfl

theorem withDefaults_withDefaults (item gen : Item D) :
    (item.withDefaults gen).withDefaults gen = item.withDefaults gen := by
  unfold Item.withDefaults
  simp only [Item.mk.injEq, or_or_self, true_and, and_true]
  refine ⟨?_, ?_⟩
  · split
    · split
      · rfl
      · rfl
    · rfl
  · split <;> rfl

theorem refreshInterval_withParameters (item gen : Item D) :
    ((item.withParameters gen).withParameters gen).refreshInterval =
      (item.withParameters gen).refreshInterval := by
  unfold Item.withParameters
  simp only
  by_cases htaken : item.refreshInterval = -1 ∧ gen.refreshInterval ≠ item.refreshInterval
  · rw [if_pos htaken]
    exact if_neg fun h => h.2 rfl
  · rw [if_neg htaken, if_neg htaken]

theorem mergeItem_of_static (gen : Item D) (hstatic : item.isStatic = true) :
    mergeItem gen item = (item.unmarked gen).withDefaults gen := by
  unfold mergeItem
  simp only
  rw [if_pos (show (item.unmarked gen).isStatic = true from hstatic)]

theorem mergeItem_of_not_static (gen : Item D) (hstatic : item.isStatic = false) :
    mergeItem gen item = ((item.unmarked gen).withParameters gen).withDefaults gen := by
  have hnot : ¬ (item.unmarked gen).isStatic = true := fun h =>
    Bool.false_ne_true (hstatic.symm.trans h)
  unfold mergeItem
  simp only
  rw [if_neg hnot]

theorem mergeItem_mergeItem_of_static (hstatic : item.isStatic = true) :
    mergeItem gen (mergeItem gen item) = mergeItem gen item := by
  have hagain : (mergeItem gen item).isStatic = true := by
    rw [mergeItem_of_static gen hstatic]
    exact hstatic
  rw [mergeItem_of_static gen hagain, mergeItem_of_static gen hstatic]
  exact withDefaults_withDefaults (item.unmarked gen) gen

theorem mergeItem_mergeItem (hstatic : item.isStatic = false) :
    mergeItem gen (mergeItem gen item) =
      { mergeItem gen item with
          isGenericRead := (item.readParameters.or gen.readParameters).isNone
          isGenericWrite := (item.writeParameters.or gen.writeParameters).isNone
          isGenericParse := (item.parseParameters.or gen.parseParameters).isNone } := by
  have hagain : (mergeItem gen item).isStatic = false := by
    rw [mergeItem_of_not_static gen hstatic]
    exact hstatic
  have hdefaults := withDefaults_withDefaults ((item.unmarked gen).withParameters gen) gen
  have hdescriptor := congrArg Item.descriptor hdefaults
  have hpublic := congrArg Item.isPublic hdefaults
  have hdefault := congrArg Item.defaultValue hdefaults
  rw [mergeItem_of_not_static gen hagain, mergeItem_of_not_static gen hstatic]
  refine Item.ext rfl ?_ rfl rfl rfl rfl ?_ rfl rfl rfl rfl rfl ?_ ?_ ?_ ?_ ?_
  · exact hdescriptor
  · exact hpublic
  · exact refreshInterval_withParameters (item.unmarked gen) gen
  · exact or_or_self _ _
  · exact or_or_self _ _
  · exact or_or_self _ _
  · exact hdefault

theorem mergeItem_idempotent_iff (hstatic : item.isStatic = false) :
    mergeItem gen (mergeItem gen item) = mergeItem gen item ↔ KeepsMarks gen item := by
  rw [mergeItem_mergeItem hstatic, mergeItem_of_not_static gen hstatic, Item.ext_iff]
  constructor
  · rintro ⟨-, -, -, hread, hwrite, hparse, -⟩
    exact ⟨isNone_or_eq_iff.mp hread, isNone_or_eq_iff.mp hwrite, isNone_or_eq_iff.mp hparse⟩
  · rintro ⟨hread, hwrite, hparse⟩
    exact ⟨rfl, rfl, rfl, isNone_or_eq_iff.mpr hread, isNone_or_eq_iff.mpr hwrite,
      isNone_or_eq_iff.mpr hparse, rfl, rfl, rfl, rfl, rfl, rfl, rfl, rfl, rfl, rfl, rfl⟩

theorem suffix_mergeItem (gen item : Item D) :
    (mergeItem gen item).descriptor.suffix = item.descriptor.suffix := by
  cases hstatic : item.isStatic with
  | true =>
    rw [mergeItem_of_static gen hstatic]
    unfold Item.withDefaults Item.unmarked
    simp only
    split <;> rfl
  | false =>
    rw [mergeItem_of_not_static gen hstatic]
    unfold Item.withDefaults Item.withParameters Item.unmarked
    simp only
    split <;> rfl

theorem mergeGeneric_idempotent_iff {genericItems : List (Item D)} :
    mergeGeneric genericItems (mergeGeneric genericItems item) = mergeGeneric genericItems item ↔
      ∀ gen, genericItem? genericItems item.descriptor.suffix = some gen → item.isStatic = false →
        KeepsMarks gen item := by
  unfold mergeGeneric
  cases hgen : genericItem? genericItems item.descriptor.suffix with
  | none =>
    simp only
    rw [hgen]
    exact ⟨fun _ gen h => (nomatch h), fun _ => rfl⟩
  | some gen =>
    simp only
    rw [suffix_mergeItem, hgen]
    simp only [Option.some.injEq, forall_eq']
    cases hstatic : item.isStatic with
    | true => exact ⟨fun _ h => (nomatch h), fun _ => mergeItem_mergeItem_of_static hstatic⟩
    | false =>
      rw [mergeItem_idempotent_iff hstatic]
      exact ⟨fun h _ => h, fun h => h rfl⟩

/-- **Merging the generic items again** changes nothing exactly if no item took parameters. -/
theorem merge_idempotent_iff (genericItems : List (Item D)) (ddf : DeviceDescription D) :
    mergeGenericItems genericItems (mergeGenericItems genericItems ddf) =
        mergeGenericItems genericItems ddf ↔
      ∀ sub ∈ ddf.subDevices, ∀ item ∈ sub.items, ∀ gen,
        genericItem? genericItems item.descriptor.suffix = some gen →
        item.isStatic = false → KeepsMarks gen item := by
  unfold mergeGenericItems
  rw [DeviceDescription.mk.injEq]
  simp only [true_and, and_true, List.map_map, List.map_inj_left, Function.comp_apply,
    SubDevice.mk.injEq, mergeGeneric_idempotent_iff]

/-- `state/on` as it is in a description without its parameters, and the generic item -/
def stateOn : Item Unit :=
  { name := "state/on", descriptor := { suffix := "state/on", isValid := true } }

def genericOn : Item Unit :=
  { stateOn with
      readParameters := some [(ofLatin1 "fn", .string (ofLatin1 "zcl:attr"))] }

def onOffLight : DeviceDescription Unit :=
  { modelIds := [ofLatin1 "Plug"]
    manufacturerNames := [ofLatin1 "Vendor"]
    subDevices :=
      [{ type := ofLatin1 "$TYPE_ON_OFF_LIGHT"
         restApi := ofLatin1 "/lights"
         uniqueId := [ofLatin1 "$address.ext", ofLatin1 "01"]
         items := [stateOn] }] }

/-- The read parameters are marked as generic after the first merge, but not after the second. -/
theorem onOffLight_mark_lost :
    ¬ ∀ (genericItems : List (Item Unit)) (ddf : DeviceDescription Unit),
      mergeGenericItems genericItems (mergeGenericItems genericItems ddf) =
        mergeGenericItems genericItems ddf := by
  intro hall
  have hmarks := congrArg (fun ddf => ddf.subDevices.map fun sub => sub.items.map Item.isGenericRead)
    (hall [genericOn] onOffLight)
  exact absurd hmarks (by decide)

end DeviceObject
end DeconzRest

import DeconzRest.Vfs.Listing

/-!
# The elements of an item directory

The list that `plCreateItemElementListForPathIndex` makes is meant to have the next path elements of
the items, each once and marked as a directory if an item is below it.  A name that one before begins
with is taken for a known one, and the mark is that of the first item with the name.
-/

namespace DeconzRest
namespace Vfs

open Paging List Option

/-- Behind the next path element of the suffix there is a slash. -/
def Continues (path suffix : List UInt8) : Prop :=
  ((suffix.drop path.length).takeWhile (· ≠ slash)).length < (suffix.drop path.length).length

instance (path suffix : List UInt8) : Decidable (Continues path suffix) :=
  inferInstanceAs (Decidable (_ < _))

def cutName (path suffix : List UInt8) : Option (List UInt8) :=
  (elementName path suffix).map (·.take 31)

/-- The list has exactly the next path elements of the items, each once and in the order of the
items, and the directories among them are those with an item below. -/
structure ElementsListed (url : UrlParse) (r : Resource) (pathAt : Nat) : Prop where
  names : (createItemElementList url r pathAt).map LsElement.name =
    distinct (r.filterMap fun item => cutName (pathFrom url pathAt) item.suffix)
  dirs : ∀ l ∈ createItemElementList url r pathAt, l.isDir = true ↔ ∃ item ∈
    r, cutName (pathFrom url pathAt) item.suffix = some l.name ∧
      Continues (pathFrom url pathAt) item.suffix

def firstItem (path : List UInt8) (r : Resource) (name : List UInt8) : Option Item :=
  r.find? fun item => decide (cutName path item.suffix = some name)

/-- Where an item is below an element, the first item with the element is, too, and this element
leaves room for the slash in the buffer. -/
def FirstContinues (path : List UInt8) (r : Resource) : Prop :=
  ∀ item ∈ r, Continues path item.suffix → ∀ name, cutName path item.suffix = some name →
    ∀ first, firstItem path r name = some first → Continues path first.suffix ∧
      ∀ element, elementName path first.suffix = some element → element.length ≤ 30

/-! ## The first item with an element -/

theorem isDir_nextElement {path suffix : List UInt8} {l : LsElement}
    (h : nextElement path suffix = some l) : l.isDir = true ↔
      Continues path suffix ∧ ∀ element, elementName path suffix = some element → element.length ≤
        30 := by
  unfold nextElement at h
  unfold elementName Continues
  split at h
  · cases h
  · rename_i hlong
    split at h
    · cases h
    · rename_i hfront
      simp only at h
      rw [if_neg hlong, if_neg hfront]
      generalize suffix.drop path.length = rest at h ⊢
      rw [takeWhile_take] at h
      have hlength : (rest.takeWhile (· ≠ slash)).length ≤ rest.length :=
        (takeWhile_sublist _).length_le
      generalize rest.takeWhile (· ≠ slash) = element at h hlength ⊢
      split at h
      · cases h
      · rename_i hne
        have helement : element ≠ [] := by
          rintro rfl
          exact hne take_nil
        rw [← some_inj.mp h]
        simp only [if_neg helement, Option.some.injEq, forall_eq', decide_eq_true_eq, length_take]
        omega

theorem name_nextElement {path suffix : List UInt8} :
    (nextElement path suffix).map LsElement.name = cutName path suffix :=
  nextElement_name path suffix

section Elements

variable {url : UrlParse} {r : Resource} {pathAt : Nat} {l : LsElement}

theorem filterMap_cutName : (r.filterMap fun item => cutName (pathFrom url pathAt) item.suffix) =
    (elementNames url r pathAt).map (·.take 31) :=
  map_filterMap.symm

theorem names_eq_uncovered :
    (createItemElementList url r pathAt).map LsElement.name =
      uncovered covers (r.filterMap fun item => cutName (pathFrom url pathAt) item.suffix) := by
  rw [filterMap_cutName]
  exact createItemElementList_names url r pathAt

theorem names_iff_apart :
    (createItemElementList url r pathAt).map LsElement.name =
        distinct (r.filterMap fun item => cutName (pathFrom url pathAt) item.suffix) ↔
      (distinct (r.filterMap fun item => cutName (pathFrom url pathAt) item.suffix)).Pairwise
        fun before name => ¬ name <+: before := by
  rw [names_eq_uncovered, uncovered_eq_iff covers_refl]
  refine List.Pairwise.iff fun before name => ?_
  rw [← isPrefixOf_iff_prefix, Bool.not_eq_true]
  rfl

theorem createItemElementList_concat (item : Item) :
    createItemElementList url (r ++ [item]) pathAt =
      listElements (pathFrom url pathAt) (createItemElementList url r pathAt) item := by
  unfold createItemElementList
  exact foldl_concat _ _ _ _

theorem firstItem_of_mem (h : l ∈ createItemElementList url r pathAt) :
    ∃ first, firstItem (pathFrom url pathAt) r l.name = some first ∧
      nextElement (pathFrom url pathAt) first.suffix = some l := by
  induction r using List.reverseRecOn with
  | nil => exact absurd h not_mem_nil
  | append_singleton r item ih =>
    have hold (h : l ∈ createItemElementList url r pathAt) :
        ∃ first, firstItem (pathFrom url pathAt) (r ++ [item]) l.name = some first ∧
          nextElement (pathFrom url pathAt) first.suffix = some l := by
      obtain ⟨first, hfirst, hnext⟩ := ih h
      refine ⟨first, ?_, hnext⟩
      unfold firstItem at hfirst ⊢
      rw [List.find?_append, hfirst, some_or]
    rw [createItemElementList_concat] at h
    unfold listElements at h
    cases hnext : nextElement (pathFrom url pathAt) item.suffix with
    | none =>
      rw [hnext] at h
      exact hold h
    | some element =>
      rw [hnext] at h
      simp only at h
      split at h
      · exact hold h
      · rename_i hnew
        rcases mem_append.mp h with h | h
        · exact hold h
        · obtain rfl := mem_singleton.mp h
          have hcut : cutName (pathFrom url pathAt) item.suffix = some l.name := by
            rw [← name_nextElement, hnext, map_some]
          refine ⟨item, ?_, hnext⟩
          unfold firstItem
          rw [List.find?_append, List.find?_eq_none.mpr, none_or]
          · rw [List.find?_cons, decide_eq_true hcut]
          · -- the name of an item before would be known
            intro before hbefore hsame
            have hname : cutName (pathFrom url pathAt) before.suffix = some l.name :=
              of_decide_eq_true hsame
            have hmem : l.name ∈ r.filterMap fun item =>
                cutName (pathFrom url pathAt) item.suffix :=
              mem_filterMap.mpr ⟨before, hbefore, hname⟩
            obtain ⟨name, hname, hcovers⟩ := exists_covers covers_refl hmem
            rw [← names_eq_uncovered] at hname
            obtain ⟨l', hl', rfl⟩ := mem_map.mp hname
            exact hnew (any_eq_true.mpr ⟨l', hl', hcovers⟩)

end Elements

/-- The list of the elements of an item directory is right exactly if no element is the front of
one before it, and the first item with an element is below it if any is, with an element of at most
30 characters. -/
theorem elementsListed_iff (url : UrlParse) (r : Resource) (pathAt : Nat) :
    ElementsListed url r pathAt ↔
      (distinct (r.filterMap fun item => cutName (pathFrom url pathAt) item.suffix)).Pairwise
          (fun before name => ¬ name <+: before) ∧
        FirstContinues (pathFrom url pathAt) r := by
  constructor
  · intro h
    refine ⟨names_iff_apart.mp h.names, fun item hitem hcontinues name hname first hfirst => ?_⟩
    have hmem : name ∈ (createItemElementList url r pathAt).map LsElement.name := by
      rw [h.names]
      exact mem_distinct.mpr (mem_filterMap.mpr ⟨item, hitem, hname⟩)
    obtain ⟨l, hl, rfl⟩ := mem_map.mp hmem
    obtain ⟨first', hfirst', hnext⟩ := firstItem_of_mem hl
    obtain rfl := some_inj.mp (hfirst.symm.trans hfirst')
    exact (isDir_nextElement hnext).mp ((h.dirs l hl).mpr ⟨item, hitem, hname, hcontinues⟩)
  · rintro ⟨hapart, hcontinued⟩
    refine ⟨names_iff_apart.mpr hapart, fun l hl => ?_⟩
    obtain ⟨first, hfirst, hnext⟩ := firstItem_of_mem hl
    rw [isDir_nextElement hnext]
    constructor
    · intro h
      have hcut : cutName (pathFrom url pathAt) first.suffix = some l.name := by
        rw [← name_nextElement, hnext, map_some]
      exact ⟨first, mem_of_find?_eq_some hfirst, hcut, h.1⟩
    · rintro ⟨item, hitem, hname, hcontinues⟩
      exact hcontinued item hitem hcontinues l.name hname first hfirst

def capUrl : UrlParse :=
  { elements := [octets "devices", octets "00:21:2e:ff:ff:00:00:01", octets "cap"] }

/-- The element `group` is missed behind `groups`. -/
theorem group_missed :
    createItemElementList capUrl [itemOf "cap/groups/not_supported" "", itemOf "cap/group" ""] 2 =
        [{ name := octets "groups", isDir := true }] ∧
      ¬ ElementsListed capUrl [itemOf "cap/groups/not_supported" "", itemOf "cap/group" ""] 2 := by
  have hlist : createItemElementList capUrl
      [itemOf "cap/groups/not_supported" "", itemOf "cap/group" ""] 2 =
        [{ name := octets "groups", isDir := true }] := by decide +kernel
  refine ⟨hlist, fun h => ?_⟩
  have hlength := congrArg List.length h.names
  rw [hlist] at hlength
  exact absurd hlength (by decide +kernel)

end Vfs
end DeconzRest

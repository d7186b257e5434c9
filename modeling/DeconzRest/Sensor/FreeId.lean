import Mathlib.Data.Int.Order.Basic
import Mathlib.Data.List.MinMax

/-!
# Ids of new sensors

`getFreeSensorId` counts on from the largest id below 1000, so that the id of a sensor that was
deleted is not given to another one.
-/

namespace DeconzRest
namespace FreeSensorId

open List

/-- Where `getFreeSensorId` starts -/
def startId (sensorIds : List Int) : Int := (sensorIds.filter (· < 1000)).max?.getD 1

/-- The loop of `getFreeSensorId` -/
def nextFree (sensorIds : List Int) : Nat → Int → Int
  | 0, sid => sid
  | n + 1, sid => if sid ∈ sensorIds then nextFree sensorIds n (sid + 1) else sid

/-- `getFreeSensorId`, for the ids that are known -/
def getFreeSensorId (sensorIds : List Int) : Int :=
  nextFree sensorIds (10000 - startId sensorIds).toNat (startId sensorIds)

variable {ids ids' : List Int}

theorem nextFree_spec (n : Nat) (sid : Int) :
    sid ≤ nextFree ids n sid ∧ (nextFree ids n sid < sid + n → nextFree ids n sid ∉ ids) ∧
      ∀ i, sid ≤ i → i < nextFree ids n sid → i ∈ ids := by
  induction n generalizing sid with
  | zero => exact ⟨le_rfl, fun h => by simp [nextFree] at h, fun i hi h => absurd h (not_lt.mpr hi)⟩
  | succ n ih =>
    rw [nextFree]
    split_ifs with hmem
    · obtain ⟨hle, hfree, hused⟩ := ih (sid + 1)
      refine ⟨by omega, fun h => hfree (by omega), fun i hi h => ?_⟩
      rcases eq_or_lt_of_le hi with rfl | hlt
      · exact hmem
      · exact hused i hlt h
    · exact ⟨le_rfl, fun _ => hmem, fun i hi h => absurd h (not_lt.mpr hi)⟩

theorem startId_cases (ids : List Int) :
    startId ids = 1 ∧ (∀ i ∈ ids, 1000 ≤ i) ∨
      startId ids < 1000 ∧ startId ids ∈ ids ∧ ∀ i ∈ ids, i < 1000 → i ≤ startId ids := by
  unfold startId
  cases hmax : (ids.filter (· < 1000)).max? with
  | none =>
    have hnone := filter_eq_nil_iff.mp (max?_eq_none_iff.mp hmax)
    exact .inl ⟨rfl, fun i hi => by simpa using hnone i hi⟩
  | some m =>
    obtain ⟨hm, hle⟩ := max?_eq_some_iff.mp hmax
    obtain ⟨hmem, hlt⟩ := mem_filter.mp hm
    exact .inr ⟨of_decide_eq_true hlt, hmem, fun i hi h =>
      hle i (mem_filter.mpr ⟨hi, decide_eq_true h⟩)⟩

theorem getFreeSensorId_spec (ids : List Int) :
    startId ids ≤ getFreeSensorId ids ∧ (getFreeSensorId ids < 10000 → getFreeSensorId ids ∉ ids) ∧
      ∀ i, startId ids ≤ i → i < getFreeSensorId ids → i ∈ ids := by
  have hstart : startId ids < 1000 := by
    rcases startId_cases ids with ⟨h, -⟩ | ⟨h, -, -⟩ <;> omega
  obtain ⟨hle, hfree, hused⟩ := @nextFree_spec ids (10000 - startId ids).toNat (startId ids)
  exact ⟨hle, fun h => hfree (by unfold getFreeSensorId at h; omega), hused⟩

/-- **Ids are given once**: a new id is not in use, and as long as ids are not forgotten, the ones
that are given later are greater. -/
theorem getFreeSensorId_increases (hlt : getFreeSensorId ids < 10000) :
    getFreeSensorId ids ∉ ids ∧ ∀ ids', ids ⊆ ids' → getFreeSensorId ids ∈ ids' →
      getFreeSensorId ids < getFreeSensorId ids' := by
  obtain ⟨hle, hfree, hused⟩ := getFreeSensorId_spec ids
  refine ⟨hfree hlt, fun ids' hsub hmem => ?_⟩
  obtain ⟨hle', hfree', -⟩ := getFreeSensorId_spec ids'
  by_contra hnot
  refine hfree' (by omega) ?_
  rcases eq_or_lt_of_le (not_lt.mp hnot) with heq | hless
  · rwa [heq]
  -- an id below 1000 that is in use is not above the place where the later search starts
  have hlater (i : Int) (hi : i ∈ ids') (h : i < 1000) : i ≤ getFreeSensorId ids' := by
    rcases startId_cases ids' with ⟨-, hall⟩ | ⟨-, -, hmax⟩
    · exact absurd (hall i hi) (by omega)
    · exact (hmax i hi h).trans hle'
  refine hsub (hused _ ?_ hless)
  rcases startId_cases ids with ⟨hone, hall⟩ | ⟨hlow, hstart, -⟩
  · by_contra hbelow
    by_cases hfirst : getFreeSensorId ids = 1
    · exact hbelow (hone ▸ hlater 1 (hfirst ▸ hmem) (by decide))
    · exact absurd (hall 1 (hused 1 (by omega) (by omega))) (by decide)
  · exact hlater _ (hsub hstart) hlow

/-- The id 4 of a sensor that is there in the database only is passed. -/
theorem getFreeSensorId_increases_deleted :
    getFreeSensorId [1, 4, 1000] ∉ [1, 4, 1000] ∧ getFreeSensorId [1, 4, 1000] = 5 :=
  ⟨(getFreeSensorId_increases (by decide)).1, by decide⟩

end FreeSensorId
end DeconzRest

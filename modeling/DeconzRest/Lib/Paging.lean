import Mathlib.Data.List.Induction
import Mathlib.Data.List.Perm.Basic

/-!
# Listings in pages

A server answers a request for an index with a page: some entries, a count, and the index to go
on with, which is 0 when there is nothing more.  A client starts at index 0 and follows the
indices.

A name that is put to those seen already only under a condition (`collect`) is the other half:
how a server keeps its entries apart.
-/

namespace DeconzRest
namespace Paging

open List

variable {α β : Type*}

structure Page (α : Type*) where
  next : Nat
  count : Nat
  entries : List α

/-- The pages that a client sees from an index on, until the next index is 0. -/
def follow (serve : Nat → Option (Page α)) : Nat → Nat → Option (List (Page α))
  | 0, _ => none
  | fuel + 1, index =>
    match serve index with
    | none => none
    | some page =>
      if page.next = 0 then some [page]
      else (follow serve fuel page.next).map (page :: ·)

def Page.Counted (page : Page α) : Prop := page.count = page.entries.length

def namesOf (name : α → β) (pages : List (Page α)) : List β :=
  pages.flatMap fun page => page.entries.map name

/-- The listing ends, every entry is listed once, and every count is right. -/
def Complete (serve : Nat → Option (Page α)) (name : α → β) (all : List β) : Prop :=
  ∃ fuel pages, follow serve fuel 0 = some pages ∧ (namesOf name pages).Perm all ∧ ∀ page ∈
    pages, page.Counted

section Follow

variable {serve : Nat → Option (Page α)} {name : α → β} {all : List β}

theorem follow_cases {fuel index : Nat} {pages : List (Page α)}
    (h : follow serve fuel index = some pages) :
    ∃ page rest, serve index = some page ∧ pages = page :: rest ∧
      ((page.next = 0 ∧ rest = []) ∨
        (page.next ≠ 0 ∧ ∃ fuel', follow serve fuel' page.next = some rest)) := by
  cases fuel with
  | zero => cases h
  | succ fuel =>
    rw [follow] at h
    split at h
    · cases h
    · rename_i page hpage
      split at h
      · rename_i hnext
        cases h
        exact ⟨page, [], hpage, rfl, .inl ⟨hnext, rfl⟩⟩
      · rename_i hnext
        obtain ⟨rest, hrest, rfl⟩ := Option.map_eq_some_iff.mp h
        exact ⟨page, rest, hpage, rfl, .inr ⟨hnext, fuel, hrest⟩⟩

theorem not_complete_of_none (h : serve 0 = none) : ¬ Complete serve name all := by
  rintro ⟨fuel, pages, hpages, -, -⟩
  obtain ⟨page, rest, hpage, -, -⟩ := follow_cases hpages
  rw [h] at hpage
  cases hpage

theorem complete_iff_of_last {page : Page α} (hpage : serve 0 = some page) (hnext : page.next = 0) :
    Complete serve name all ↔ (page.entries.map name).Perm all ∧ page.Counted := by
  constructor
  · rintro ⟨fuel, pages, hpages, hperm, hcounted⟩
    obtain ⟨page', rest, hpage', rfl, hlast⟩ := follow_cases hpages
    rw [hpage] at hpage'
    cases hpage'
    obtain ⟨-, rfl⟩ | ⟨hmore, -⟩ := hlast
    · exact ⟨by simpa [namesOf] using hperm, hcounted page mem_cons_self⟩
    · exact absurd hnext hmore
  · rintro ⟨hperm, hcounted⟩
    refine ⟨1, [page], ?_, by simpa [namesOf] using hperm, by simpa using hcounted⟩
    simp [follow, hpage, hnext]

theorem not_complete_of_next {page : Page α} (hpage : serve 0 = some page) (hnext : page.next ≠ 0)
    (hwrong : ∀ page', serve page.next = some page' → ¬ page'.Counted) :
    ¬ Complete serve name all := by
  rintro ⟨fuel, pages, hpages, -, hcounted⟩
  obtain ⟨first, rest, hfirst, rfl, hmore⟩ := follow_cases hpages
  rw [hpage] at hfirst
  cases hfirst
  obtain ⟨hlast, -⟩ | ⟨-, fuel', hrest⟩ := hmore
  · exact hnext hlast
  · obtain ⟨page', rest', hpage', rfl, -⟩ := follow_cases hrest
    exact hwrong page' hpage' (hcounted page' (by simp))

/-- The page for an index lists what is from there on, or a part of it and goes on behind it. -/
def Chunk (name : α → β) (all : List β) (index : Nat) (page : Page α) : Prop :=
  page.Counted ∧
    ((page.next = 0 ∧ page.entries.map name = all.drop index) ∨ ∃ size, 0 < size ∧ index + size ≤
      all.length ∧ page.next = index + size ∧ page.entries.map name = (all.drop index).take size)

theorem follow_of_chunks
    (h : ∀ index ≤ all.length, ∃ page, serve index = some page ∧ Chunk name all index page)
    (index : Nat) (hindex : index ≤ all.length) :
    ∃ fuel pages, follow serve fuel index = some pages ∧ namesOf name pages = all.drop index ∧
      ∀ page ∈ pages, page.Counted := by
  -- what is left gets less with every page
  induction hleft : all.length - index using Nat.strongRecOn generalizing index with
  | _ left ih =>
    obtain ⟨page, hpage, hcounted, ⟨hnext, hentries⟩ | ⟨size, hsize, hle, hnext, hentries⟩⟩ :=
      h index hindex
    · refine ⟨1, [page], by simp [follow, hpage, hnext], ?_, by simpa using hcounted⟩
      simpa [namesOf] using hentries
    · obtain ⟨fuel, pages, hpages, hnames, hall⟩ :=
        ih (all.length - (index + size)) (by omega) (index + size) hle rfl
      refine ⟨fuel + 1, page :: pages, ?_, ?_, forall_mem_cons.mpr ⟨hcounted, hall⟩⟩
      · have hmore : page.next ≠ 0 := by omega
        rw [follow, hpage]
        simp only [if_neg hmore]
        rw [hnext, hpages, Option.map_some]
      · have hsplit : (all.drop index).take size ++ all.drop (index + size) = all.drop index := by
          rw [← drop_drop]
          exact take_append_drop size (all.drop index)
        rw [← hsplit, ← hentries, ← hnames]
        simp [namesOf]

/-- **Pages that go on where the one before ended** are a complete listing. -/
theorem complete_of_chunks
    (h : ∀ index ≤ all.length, ∃ page, serve index = some page ∧ Chunk name all index page) :
    Complete serve name all := by
  obtain ⟨fuel, pages, hpages, hnames, hcounted⟩ := follow_of_chunks h 0 (Nat.zero_le _)
  exact ⟨fuel, pages, hpages, by rw [hnames, drop_zero], hcounted⟩

end Follow

/-! ## Names that are collected -/

section Collect

variable [DecidableEq β]

/-- Every name is put behind those seen already, unless it is known. -/
def collect (known : β → List β → Bool) (names : List β) : List β :=
  names.foldl (fun seen n => if known n seen then seen else seen ++ [n]) []

omit [DecidableEq β] in
theorem collect_concat (known : β → List β → Bool) (names : List β) (n : β) :
    collect known (names ++ [n]) =
      if known n (collect known names) then collect known names
      else collect known names ++ [n] := by
  unfold collect
  rw [foldl_append]
  rfl

def distinct (names : List β) : List β := collect (fun n seen => decide (n ∈ seen)) names

theorem mem_distinct {names : List β} {n : β} : n ∈ distinct names ↔ n ∈ names := by
  unfold distinct
  induction names using List.reverseRecOn with
  | nil => simp [collect]
  | append_singleton names m ih =>
    rw [collect_concat]
    split
    · rename_i hknown
      have hm : m ∈ collect (fun n seen => decide (n ∈ seen)) names := by simpa using hknown
      constructor
      · intro hn
        exact mem_append_left _ (ih.mp hn)
      · intro hn
        rcases mem_append.mp hn with hn | hn
        · exact ih.mpr hn
        · rwa [mem_singleton.mp hn]
    · simp [ih]

variable {covers : β → β → Bool}

/-- The names that no name seen already covers -/
def uncovered (covers : β → β → Bool) (names : List β) : List β :=
  collect (fun n seen => seen.any (covers n)) names

omit [DecidableEq β] in
theorem exists_covers (hrefl : ∀ n, covers n n = true) {names : List β} {n : β} (hn : n ∈ names) :
    ∃ m ∈ uncovered covers names, covers n m = true := by
  unfold uncovered
  induction names using List.reverseRecOn with
  | nil => cases hn
  | append_singleton names l ih =>
    rw [collect_concat]
    split
    · rename_i hknown
      rcases mem_append.mp hn with hn | hn
      · exact ih hn
      · rw [mem_singleton.mp hn]
        exact any_eq_true.mp hknown
    · rcases mem_append.mp hn with hn | hn
      · obtain ⟨m, hm, hcovers⟩ := ih hn
        exact ⟨m, mem_append_left _ hm, hcovers⟩
      · rw [mem_singleton.mp hn]
        exact ⟨l, by simp, hrefl l⟩

/-- What is left out are names, and what is there stands in the order of the names. -/
theorem uncovered_sublist (hrefl : ∀ n, covers n n = true) (names : List β) :
    (uncovered covers names).Sublist (distinct names) := by
  induction names using List.reverseRecOn with
  | nil => exact List.Sublist.refl _
  | append_singleton names n ih =>
    unfold uncovered distinct at ih ⊢
    rw [collect_concat, collect_concat]
    split
    · split
      · exact ih
      · exact ih.trans (sublist_append_left _ _)
    · rename_i hnew
      split
      · -- a name seen before is covered
        rename_i hseen
        have hmem : n ∈ names := mem_distinct.mp (by simpa [distinct] using hseen)
        obtain ⟨m, hm, hcovers⟩ := exists_covers hrefl hmem
        exact absurd (any_eq_true.mpr ⟨m, hm, hcovers⟩) hnew
      · exact ih.append (List.Sublist.refl _)

omit [DecidableEq β] in
theorem uncovered_pairwise (covers : β → β → Bool) (names : List β) :
    (uncovered covers names).Pairwise fun m n => covers n m = false := by
  unfold uncovered
  induction names using List.reverseRecOn with
  | nil => exact List.Pairwise.nil
  | append_singleton names n ih =>
    rw [collect_concat]
    split
    · exact ih
    · rename_i hnew
      refine pairwise_append.mpr ⟨ih, pairwise_singleton _ _, ?_⟩
      intro m hm n' hn'
      rw [mem_singleton.mp hn']
      by_contra hcovers
      exact hnew (any_eq_true.mpr ⟨m, hm, by simpa using hcovers⟩)

/-- **Nothing is left out** exactly if no name covers one that was there before it. -/
theorem uncovered_eq_iff (hrefl : ∀ n, covers n n = true) (names : List β) :
    uncovered covers names = distinct names ↔
      (distinct names).Pairwise fun m n => covers n m = false := by
  constructor
  · intro heq
    rw [← heq]
    exact uncovered_pairwise covers names
  · induction names using List.reverseRecOn with
    | nil => exact fun _ => rfl
    | append_singleton names n ih =>
      intro hpairwise
      have hstep : distinct (names ++ [n]) =
          if decide (n ∈ distinct names) then distinct names else distinct names ++ [n] :=
        collect_concat _ names n
      have hstep' : uncovered covers (names ++ [n]) =
          if (uncovered covers names).any (covers n) then uncovered covers names
          else uncovered covers names ++ [n] := collect_concat _ names n
      rw [hstep] at hpairwise
      rw [hstep, hstep']
      by_cases hseen : decide (n ∈ distinct names) = true
      · have hmem : n ∈ distinct names := by simpa using hseen
        obtain ⟨m, hm, hcovers⟩ := exists_covers hrefl (mem_distinct.mp hmem)
        rw [if_pos hseen] at hpairwise
        rw [if_pos hseen, if_pos (any_eq_true.mpr ⟨m, hm, hcovers⟩)]
        exact ih hpairwise
      · rw [if_neg hseen] at hpairwise
        obtain ⟨hold, -, hnew⟩ := pairwise_append.mp hpairwise
        rw [if_neg hseen, ih hold, if_neg]
        intro hany
        obtain ⟨m, hm, hcovers⟩ := any_eq_true.mp hany
        rw [hnew m hm n (by simp)] at hcovers
        cases hcovers

end Collect

end Paging
end DeconzRest

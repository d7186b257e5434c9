import DeconzRest.Ddf.DescriptorText
import Mathlib.Data.Nat.Digits.Defs

/-!
# When the descriptors are complete

A client asks for the descriptors and goes on with the number under `next`.  The cursor counts
files where they are skipped and bundles where they are described, so a page with a file that is
no bundle and another page behind it is counted wrong; a page that ends in the first directory
puts `next` for each directory.
-/

namespace DeconzRest
namespace Ddf

open List Option

open Json (ascii)
open Rfc8259

variable (sha256 : List UInt8 → List UInt8)

def fileBundle (e : DirEntry) : Option (List UInt8 × Bundle) :=
  e.content.bind fun content =>
    (bundleOf sha256 (content.take maxBundleSize)).map (content.take maxBundleSize, ·)

def hasBundle (e : DirEntry) : Bool := (fileBundle sha256 e).isSome

/-- The members for the bundles of some files, where `n` members are in front of them -/
def recordsText : Nat → List DirEntry → List UInt8
  | _, [] => []
  | n, e :: files =>
    match fileBundle sha256 e with
    | none => recordsText n files
    | some (file, b) => commaText n ++ recordText sha256 file b ++ recordsText (n + 1) files

def Locations.files (locations : Locations) : List DirEntry :=
  (locations.user.getD []).filter DirEntry.listed ++
    (locations.system.getD []).filter DirEntry.listed

/-- The pages that a client is sent from a request on, until there is no `next`. -/
inductive Followed (locations : Locations) : Option Int → List Listing → Prop where
  | last {query : Option Int} {page : Listing}
      (hpage : getDescriptors sha256 locations query = some (.ok page)) (hnext : page.nexts = []) :
      Followed locations query [page]
  | more {query : Option Int} {page : Listing} {next : Nat} {pages : List Listing}
      (hpage : getDescriptors sha256 locations query = some (.ok page))
      (hnext : page.nexts.head? = some next) (h : Followed locations (some next) pages) :
      Followed locations query (page :: pages)

/-- The text of a page: the bundles described, each under its bundle hash, and the numbers under
`next`. -/
def pageText (page : Listing) : List UInt8 :=
  ascii "\x7b" ++ recordsText sha256 0 page.described ++
    page.nexts.flatMap (fun next => ascii ",\"next\":" ++ decimal next) ++ ascii "\x7d"

/-- **The listing is complete**: a client comes to an end, every response is a JSON text of what it
describes with at most one `next`, and every bundle is described once. -/
def DescriptorsComplete (locations : Locations) : Prop :=
  ∃ pages, Followed sha256 locations none pages ∧
    (∀ page ∈ pages, page.rsp.text = pageText sha256 page ∧ JsonText page.rsp.text ∧
      page.nexts.length ≤ 1) ∧
    (pages.flatMap Listing.described).Perm (locations.files.filter (hasBundle sha256))

/-- The files that the walk takes where it has `n` records left: up to the last of `n` bundles. -/
def pageFiles : Nat → List DirEntry → List DirEntry
  | _, [] => []
  | 0, _ :: _ => []
  | n + 1, e :: files =>
    e :: pageFiles (if hasBundle sha256 e then n else n + 1) files

/-- There is enough space for the bundles of some files behind `used` bytes with `n` members. -/
def Room : Nat → Nat → List DirEntry → Prop
  | _, _, [] => True
  | used, n, e :: files =>
    match fileBundle sha256 e with
    | none => Room used n files
    | some (file, b) =>
      used + b.desc.length + 352 < maxResponseSize ∧
        Room (used + (commaText n ++ recordText sha256 file b).length) (n + 1) files

/-- The files of the page that starts behind `64 * k` files -/
def filesOfPage (locations : Locations) (k : Nat) : List DirEntry :=
  pageFiles sha256 maxRecords (locations.files.drop (maxRecords * k))

/-- **The directories whose descriptors come complete.** -/
structure Pageable (locations : Locations) : Prop where
  few : locations.files.length + 1 < 2 ^ 32
  describable : ∀ e ∈ locations.files, ∀ file b, fileBundle sha256 e = some (file, b) →
    Describable b.desc
  /-- a page ends with the last file, or has nothing but bundles -/
  aligned : ∀ k, filesOfPage sha256 locations k = locations.files.drop (maxRecords * k) ∨
    (filesOfPage sha256 locations k).length = maxRecords
  room : ∀ k, Room sha256 1 0 (filesOfPage sha256 locations k)
  /-- where there is a second directory, no page ends in the first one -/
  single : locations.system = none ∨
    pageFiles sha256 maxRecords ((locations.user.getD []).filter DirEntry.listed) =
      (locations.user.getD []).filter DirEntry.listed

/-! ## The files of a page -/

section Files

variable {sha256}

@[simp] theorem pageFiles_nil (n : Nat) : pageFiles sha256 n [] = [] := by
  cases n <;> rfl

@[simp] theorem pageFiles_zero (files : List DirEntry) : pageFiles sha256 0 files = [] := by
  cases files <;> rfl

theorem pageFiles_starts : ∀ (n : Nat) (files : List DirEntry), pageFiles sha256 n files <+: files
  | n, [] => by rw [pageFiles_nil]
  | 0, e :: files => nil_prefix
  | n + 1, e :: files =>
    cons_prefix_cons.mpr ⟨rfl, pageFiles_starts _ files⟩

theorem count_pageFiles : ∀ (n : Nat) (files : List DirEntry),
    (pageFiles sha256 n files).countP (hasBundle sha256) ≤ n
  | n, [] => by rw [pageFiles_nil]; exact Nat.zero_le n
  | 0, e :: files => Nat.le_refl 0
  | n + 1, e :: files => by
    rw [pageFiles, countP_cons]
    by_cases he : hasBundle sha256 e = true
    · have ih := count_pageFiles n files
      rw [if_pos he, if_pos he]
      omega
    · have ih := count_pageFiles (n + 1) files
      rw [if_neg he, if_neg he]
      omega

theorem pageFiles_append {more : List DirEntry} : ∀ {n : Nat} {files : List DirEntry},
    pageFiles sha256 n files = files → pageFiles sha256 n (files ++ more) = files ++
      pageFiles sha256 (n - files.countP (hasBundle sha256)) more
  | n, [], _ => by simp
  | 0, e :: files, h => by simp at h
  | n + 1, e :: files, h => by
    rw [pageFiles] at h
    have hrest := (List.cons.inj h).2
    rw [cons_append, pageFiles, pageFiles_append hrest, countP_cons]
    split
    · rw [Nat.add_sub_add_right]
      rfl
    · rfl

theorem pageFiles_mono {n m : Nat} (hnm : n ≤ m) : ∀ {files : List DirEntry},
    pageFiles sha256 n files = files → pageFiles sha256 m files = files := by
  intro files
  induction files generalizing n m with
  | nil => exact fun _ => pageFiles_nil m
  | cons e files ih =>
    intro h
    cases n with
    | zero => simp at h
    | succ n =>
      cases m with
      | zero => omega
      | succ m =>
        rw [pageFiles] at h ⊢
        have hrest := (List.cons.inj h).2
        split
        · rename_i he
          rw [if_pos he] at hrest
          rw [ih (by omega) hrest]
        · rename_i he
          rw [if_neg he] at hrest
          rw [ih hnm hrest]

theorem pageFiles_drop {n : Nat} : ∀ {files : List DirEntry}, pageFiles sha256 n files = files →
    ∀ i, pageFiles sha256 n (files.drop i) = files.drop i := by
  intro files
  induction files generalizing n with
  | nil => intro _ i; rw [drop_nil, pageFiles_nil]
  | cons e files ih =>
    intro h i
    cases i with
    | zero => exact h
    | succ i =>
      cases n with
      | zero => simp at h
      | succ n =>
        rw [pageFiles] at h
        have hrest := (List.cons.inj h).2
        have hall : pageFiles sha256 (n + 1) files = files := by
          refine pageFiles_mono ?_ hrest
          split <;> omega
        exact ih hall i

theorem count_of_stop {n : Nat} : ∀ {files : List DirEntry}, pageFiles sha256 n files ≠ files →
    (pageFiles sha256 n files).countP (hasBundle sha256) = n := by
  intro files
  induction files generalizing n with
  | nil => intro h; rw [pageFiles_nil] at h; exact absurd rfl h
  | cons e files ih =>
    intro hstop
    cases n with
    | zero => rw [pageFiles_zero, countP_nil]
    | succ n =>
      rw [pageFiles] at hstop ⊢
      rw [countP_cons]
      by_cases he : hasBundle sha256 e = true
      · rw [if_pos he] at hstop
        rw [if_pos he, if_pos he, ih fun h => hstop (by rw [h])]
      · rw [if_neg he] at hstop
        rw [if_neg he, if_neg he, ih fun h => hstop (by rw [h]), Nat.add_zero]

end Files

section Records

variable {sha256}

variable {e : DirEntry}

theorem count_of_hasBundle (files : List DirEntry) (h : hasBundle sha256 e = true) :
    (e :: files).countP (hasBundle sha256) = files.countP (hasBundle sha256) + 1 := by
  rw [countP_cons, if_pos h]

variable {file : List UInt8} {b : Bundle}

theorem hasBundle_of_some (h : fileBundle sha256 e = some (file, b)) :
    hasBundle sha256 e = true := by
  unfold hasBundle
  rw [h]
  rfl

theorem hasBundle_of_none (h : fileBundle sha256 e = none) : hasBundle sha256 e = false := by
  unfold hasBundle
  rw [h]
  rfl

theorem recordsText_of_none (h : fileBundle sha256 e = none) (n : Nat) (files : List DirEntry) :
    recordsText sha256 n (e :: files) = recordsText sha256 n files := by
  rw [recordsText, h]

theorem recordsText_of_some (h : fileBundle sha256 e = some (file, b)) (n : Nat)
    (files : List DirEntry) :
    recordsText sha256 n (e :: files) = commaText n ++ recordText sha256 file b ++
      recordsText sha256 (n + 1) files := by
  rw [recordsText, h]

theorem room_of_none (h : fileBundle sha256 e = none) (used n : Nat) (files : List DirEntry) :
    Room sha256 used n (e :: files) ↔ Room sha256 used n files := by
  rw [Room, h]

theorem room_of_some (h : fileBundle sha256 e = some (file, b)) (used n : Nat)
    (files : List DirEntry) :
    Room sha256 used n (e :: files) ↔ used + b.desc.length + 352 < maxResponseSize ∧
      Room sha256 (used + (commaText n ++ recordText sha256 file b).length) (n + 1) files := by
  rw [Room, h]

theorem recordsText_append (more : List DirEntry) : ∀ (n : Nat) (files : List DirEntry),
    recordsText sha256 n (files ++ more) = recordsText sha256 n files ++
      recordsText sha256 (n + files.countP (hasBundle sha256)) more
  | _, [] => rfl
  | n, e :: files => by
    rw [cons_append]
    cases hfile : fileBundle sha256 e with
    | none =>
      rw [recordsText_of_none hfile, recordsText_of_none hfile, recordsText_append,
        countP_cons_of_neg (by rw [hasBundle_of_none hfile]; exact Bool.false_ne_true)]
    | some found =>
      obtain ⟨file, b⟩ := found
      rw [recordsText_of_some hfile, recordsText_of_some hfile, recordsText_append,
        count_of_hasBundle files (hasBundle_of_some hfile), append_assoc, append_assoc,
        Nat.add_assoc, Nat.add_comm 1]
      simp only [append_assoc]

theorem room_append (more : List DirEntry) : ∀ (used n : Nat) (files : List DirEntry),
    Room sha256 used n (files ++ more) ↔ Room sha256 used n files ∧
      Room sha256 (used + (recordsText sha256 n files).length)
        (n + files.countP (hasBundle sha256)) more
  | used, n, [] => by
    rw [nil_append, Room, true_and]
    rfl
  | used, n, e :: files => by
    rw [cons_append]
    cases hfile : fileBundle sha256 e with
    | none =>
      rw [room_of_none hfile, room_of_none hfile, room_append, recordsText_of_none hfile,
        countP_cons_of_neg (by rw [hasBundle_of_none hfile]; exact Bool.false_ne_true)]
    | some found =>
      obtain ⟨file, b⟩ := found
      rw [room_of_some hfile, room_of_some hfile, room_append, recordsText_of_some hfile,
        count_of_hasBundle files (hasBundle_of_some hfile), and_assoc, Nat.add_assoc n,
        Nat.add_comm 1]
      simp only [List.length_append, Nat.add_assoc]

end Records

/-! ## The walk over a directory -/

section Walk

/-- The state behind some files that are described -/
def Listing.after (s : Listing) (files : List DirEntry) : Listing :=
  { s with
    rsp := ⟨s.rsp.text ++ recordsText sha256 s.nRecords files, true⟩
    curCursor := s.curCursor + files.countP (hasBundle sha256)
    nRecords := s.nRecords + files.countP (hasBundle sha256)
    described := s.described ++ files.filter (hasBundle sha256) }

variable {sha256} {s : Listing} {e : DirEntry} {reqCursor : Nat}

theorem after_nil (hok : s.rsp.ok = true) : s.after sha256 [] = s := by
  unfold Listing.after
  simp only [recordsText, append_nil, countP_nil, Nat.add_zero, filter_nil]
  rw [← hok]

theorem after_after (front back : List DirEntry) :
    (s.after sha256 front).after sha256 back = s.after sha256 (front ++ back) := by
  unfold Listing.after
  simp only [recordsText_append, countP_append, filter_append, append_assoc, Nat.add_assoc]

theorem describe_of_none (h : fileBundle sha256 e = none) : describe sha256 e s = some s := by
  unfold fileBundle at h
  unfold describe
  cases hcontent : e.content with
  | none => rfl
  | some content =>
    rw [hcontent, bind_some, map_eq_none_iff] at h
    simp only
    split
    · rw [writeBundleDescriptor_of_none sha256 h]
    · rfl

theorem desc_length_le {file : List UInt8} {b : Bundle} (h : bundleOf sha256 file = some b) :
    b.desc.length ≤ file.length := by
  unfold bundleOf at h
  cases hddfb : ddfbContent file with
  | none =>
    rw [hddfb] at h
    cases h
  | some bsDDFB =>
    rw [hddfb] at h
    obtain ⟨desc, hcontent, rfl⟩ := map_eq_some_iff.mp h
    unfold descContent at hcontent
    split at hcontent
    · cases hcontent
    · rw [← some.inj hcontent]
      simp only [length_take, length_drop]
      omega

theorem nextCursorOf_eq {cursor : Nat} (h : cursor + 1 < 2 ^ 32) :
    nextCursorOf cursor = cursor + 1 := Nat.mod_eq_of_lt h

theorem describe_of_some (hsha : ∀ m, (sha256 m).length = 32) {file : List UInt8} {b : Bundle}
    (h : fileBundle sha256 e = some (file, b)) (hdesc : Describable b.desc)
    (hok : s.rsp.ok = true) (hroom : s.rsp.text.length + b.desc.length + 352 < maxResponseSize)
    (hcursor : s.curCursor + 1 < 2 ^ 32) :
    describe sha256 e s = some (s.after sha256 [e]) := by
  have hbundle := hasBundle_of_some h
  have hrecords : recordsText sha256 s.nRecords [e] = commaText s.nRecords ++
      recordText sha256 file b := by
    rw [recordsText_of_some h]
    exact append_nil _
  unfold fileBundle at h
  unfold describe
  cases hcontent : e.content with
  | none =>
    rw [hcontent] at h
    cases h
  | some content =>
    rw [hcontent, bind_some] at h
    obtain ⟨b', hb, hpair⟩ := map_eq_some_iff.mp h
    obtain ⟨rfl, rfl⟩ := Prod.mk.inj hpair
    have hlong := desc_length_le hb
    have hdescLong := hdesc.long
    simp only
    rw [if_pos (by omega), writeBundleDescriptor_of_describable sha256 hsha hb hdesc hok hroom]
    simp only [Listing.after, hrecords, nextCursorOf_eq hcursor, countP_cons, hbundle, if_true,
      countP_nil, filter_cons, filter_nil, Nat.zero_add]

theorem readDir_filter : ∀ (dir : List DirEntry) (s : Listing), readDir sha256 reqCursor dir s =
    readDir sha256 reqCursor (dir.filter DirEntry.listed) s
  | [], _ => rfl
  | e :: dir, s => by
    by_cases he : e.listed = true
    · rw [filter_cons_of_pos he, readDir, readDir]
      simp only [he, if_true, readDir_filter dir]
    · rw [filter_cons_of_neg he, readDir, if_neg he, readDir_filter dir]

theorem readDir_skip (hreq : reqCursor < 2 ^ 32) : ∀ {dir : List DirEntry} {s : Listing},
    (∀ e ∈ dir, e.listed = true) → s.curCursor ≤ reqCursor →
    readDir sha256 reqCursor dir s =
      readDir sha256 reqCursor (dir.drop (reqCursor - s.curCursor))
        { s with curCursor := min reqCursor (s.curCursor + dir.length) }
  | [], s, _, hle => by
    rw [drop_nil, length_nil, Nat.add_zero, Nat.min_eq_right hle]
  | e :: dir, s, hlisted, hle => by
    obtain ⟨he, hdir⟩ := forall_mem_cons.mp hlisted
    rcases Nat.lt_or_eq_of_le hle with hlt | heq
    · have hnext : nextCursorOf s.curCursor = s.curCursor + 1 := nextCursorOf_eq (by omega)
      have hdrop : reqCursor - s.curCursor = (reqCursor - (s.curCursor + 1)) + 1 := by omega
      rw [readDir, if_pos he, if_pos hlt, hnext, readDir_skip hreq hdir (by exact hlt), hdrop,
        drop_succ_cons, length_cons]
      simp only [Nat.add_assoc, Nat.add_comm 1]
    · rw [heq, Nat.sub_self, drop_zero, Nat.min_eq_left (Nat.le_add_right _ _), ← heq]

theorem after_of_none (hok : s.rsp.ok = true) (h : fileBundle sha256 e = none) :
    s.after sha256 [e] = s := by
  have hno := hasBundle_of_none h
  unfold Listing.after
  rw [recordsText_of_none h, countP_cons_of_neg (by rw [hno]; exact Bool.false_ne_true),
    filter_cons_of_neg (by rw [hno]; exact Bool.false_ne_true)]
  exact after_nil hok

theorem describe_eq (hsha : ∀ m, (sha256 m).length = 32)
    (hdesc : ∀ file b, fileBundle sha256 e = some (file, b) → Describable b.desc)
    (hok : s.rsp.ok = true) (hcursor : s.curCursor + 1 < 2 ^ 32)
    (hroom : Room sha256 s.rsp.text.length s.nRecords [e]) :
    describe sha256 e s = some (s.after sha256 [e]) := by
  cases hfile : fileBundle sha256 e with
  | none => rw [describe_of_none hfile, after_of_none hok hfile]
  | some found =>
    obtain ⟨file, b⟩ := found
    exact describe_of_some hsha hfile (hdesc file b hfile) hok
      ((room_of_some hfile _ _ _).mp hroom).1 hcursor

/-- **The walk behind the cursor** takes the files of the page, and stops in front of a file for
which there is no record left. -/
theorem readDir_read (hsha : ∀ m, (sha256 m).length = 32) : ∀ {dir : List DirEntry} {s : Listing},
    (∀ e ∈ dir, e.listed = true) →
    (∀ e ∈ dir, ∀ file b, fileBundle sha256 e = some (file, b) → Describable b.desc) →
    s.rsp.ok = true → reqCursor ≤ s.curCursor → s.curCursor + dir.length < 2 ^ 32 →
    s.nRecords ≤ maxRecords → ∀ page, page = pageFiles sha256 (maxRecords - s.nRecords) dir →
    Room sha256 s.rsp.text.length s.nRecords page →
    readDir sha256 reqCursor dir s = some { s.after sha256 page with
      nextCursor := if page = dir then s.nextCursor else (s.after sha256 page).curCursor }
  | [], s, _, _, hok, _, _, _, page, hpage, _ => by
    rw [hpage, pageFiles_nil, if_pos rfl, after_nil hok]
    rfl
  | e :: dir, s, hlisted, hdesc, hok, hreq, hlt, hle, page, hpage, hroom => by
    obtain ⟨he, hdir⟩ := forall_mem_cons.mp hlisted
    obtain ⟨hdescribable, hmore⟩ := forall_mem_cons.mp hdesc
    rw [length_cons] at hlt
    rw [readDir, if_pos he, if_neg (Nat.not_lt.mpr hreq)]
    rcases Nat.lt_or_eq_of_le hle with hfree | hfull
    · obtain ⟨left, hleft⟩ : ∃ left, maxRecords - s.nRecords = left + 1 :=
        ⟨maxRecords - s.nRecords - 1, by omega⟩
      rw [hleft, pageFiles] at hpage
      obtain ⟨rest, hrest⟩ : ∃ rest, rest =
        pageFiles sha256 (if hasBundle sha256 e then left else left + 1) dir := ⟨_, rfl⟩
      rw [← hrest] at hpage
      subst hpage
      obtain ⟨hfirst, hroomRest⟩ := (room_append rest _ _ [e]).mp hroom
      have hcount : [e].countP (hasBundle sha256) = if hasBundle sha256 e then 1 else 0 := by
        rw [countP_cons, countP_nil, Nat.zero_add]
      have hrecords : (s.after sha256 [e]).nRecords = s.nRecords + [e].countP (hasBundle sha256) :=
        rfl
      have hcursor : (s.after sha256 [e]).curCursor = s.curCursor +
        [e].countP (hasBundle sha256) := rfl
      have hleft' : maxRecords - (s.after sha256 [e]).nRecords =
          if hasBundle sha256 e then left else left + 1 := by
        rw [hrecords, hcount]
        split <;> omega
      have hone : [e].countP (hasBundle sha256) ≤ 1 := by
        rw [hcount]
        split <;> omega
      rw [if_pos hfree, describe_eq hsha hdescribable hok (by omega) hfirst]
      simp only
      rw [readDir_read hsha hdir hmore rfl (by omega) (by omega) (by omega) rest
        (by rw [hleft', hrest]) (by
          show Room sha256 (s.rsp.text ++ _).length _ rest
          rw [List.length_append]
          exact hroomRest), after_after, singleton_append]
      simp only [List.cons.injEq, true_and]
      rfl
    · have hzero : maxRecords - s.nRecords = 0 := by omega
      rw [hzero, pageFiles_zero] at hpage
      rw [if_neg (by omega), hpage, if_neg (cons_ne_nil _ _).symm, after_nil hok]

end Walk

/-! ## The page behind a cursor -/

section Page

variable {sha256} {locations : Locations}

def listedOf (dir : Option (List DirEntry)) : List DirEntry :=
  (dir.getD []).filter DirEntry.listed

theorem listed_of_mem {dir : Option (List DirEntry)} {e : DirEntry} (h : e ∈ listedOf dir) :
    e.listed = true := (mem_filter.mp h).2

theorem files_eq (locations : Locations) :
    locations.files = listedOf locations.user ++ listedOf locations.system := rfl

theorem readLocation_eq (reqCursor : Nat) (dir : Option (List DirEntry)) {s : Listing}
    (h : s.nextCursor = 0) :
    readLocation sha256 reqCursor dir s = (readDir sha256 reqCursor (listedOf dir) s).map putNext := by
  unfold readLocation listedOf
  cases dir with
  | none =>
    have hput : putNext s = s := by
      unfold putNext
      rw [if_neg (not_not_intro h)]
    simp only [getD_none, filter_nil, readDir, map_some, hput]
  | some dir =>
    simp only [getD_some]
    rw [readDir_filter]

/-- The response with its opening brace, at a cursor -/
def opened (cursor : Nat) : Listing := { curCursor := cursor, rsp := ⟨ascii "\x7b", true⟩ }

theorem opened_one : ({ rsp := ({} : ResponseStream).put (ascii "\x7b") } : Listing) = opened 1 :=
  rfl

/-- The state behind the walk for the page that starts behind `64 * k` files -/
def walked (sha256 : List UInt8 → List UInt8) (locations : Locations) (k : Nat) : Listing :=
  { (opened (maxRecords * k + 1)).after sha256 (filesOfPage sha256 locations k) with
    nextCursor :=
      if filesOfPage sha256 locations k = locations.files.drop (maxRecords * k) then 0
      else maxRecords * k + 1 + (filesOfPage sha256 locations k).countP (hasBundle sha256) }

theorem readDir_page (hsha : ∀ m, (sha256 m).length = 32) {dir page : List DirEntry}
    (cursor k : Nat) (hlisted : ∀ e ∈ dir, e.listed = true)
    (hdesc : ∀ e ∈ dir, ∀ file b, fileBundle sha256 e = some (file, b) → Describable b.desc)
    (hstart : cursor ≤ k + 1) (hk : k + 1 ≤ cursor + dir.length)
    (hfew : cursor + dir.length < 2 ^ 32)
    (hpage : page = pageFiles sha256 maxRecords (dir.drop (k + 1 - cursor)))
    (hroom : Room sha256 1 0 page) :
    readDir sha256 (k + 1) dir (opened cursor) = some { (opened (k + 1)).after sha256 page with
      nextCursor := if page = dir.drop (k + 1 - cursor) then 0
        else k + 1 + page.countP (hasBundle sha256) } := by
  have hopened : ({ opened cursor with
      curCursor := min (k + 1) ((opened cursor).curCursor + dir.length) } : Listing) =
        opened (k + 1) := by
    show opened (min (k + 1) (cursor + dir.length)) = opened (k + 1)
    rw [Nat.min_eq_left hk]
  have hlength : (dir.drop (k + 1 - cursor)).length = cursor + dir.length - (k + 1) := by
    rw [length_drop]
    omega
  rw [readDir_skip (by omega) hlisted (s := opened cursor) hstart, hopened]
  refine readDir_read hsha (s := opened (k + 1)) (fun e he => hlisted e (mem_of_mem_drop he))
    (fun e he => hdesc e (mem_of_mem_drop he)) rfl (Nat.le_refl _) ?_ (Nat.zero_le _) page
    hpage hroom
  show k + 1 + (dir.drop (k + 1 - cursor)).length < 2 ^ 32
  omega

theorem putNext_of_zero {s : Listing} (h : s.nextCursor = 0) : putNext s = s := by
  unfold putNext
  rw [if_neg (not_not_intro h)]

variable {k : Nat}

theorem walk_second (hsha : ∀ m, (sha256 m).length = 32) (h : Pageable sha256 locations)
    (hk : maxRecords * k ≤ locations.files.length)
    (hbehind : (listedOf locations.user).length < maxRecords * k) :
    ∃ s, readDir sha256 (maxRecords * k + 1) (listedOf locations.user) (opened 1) = some s ∧
      s.nextCursor = 0 ∧ readDir sha256 (maxRecords * k + 1) (listedOf locations.system) s =
        some (walked sha256 locations k) := by
  have hfew := h.few
  have hfiles := files_eq locations
  have hlength : locations.files.length = (listedOf locations.user).length +
      (listedOf locations.system).length := by
    rw [hfiles, List.length_append]
  have hmin : min (maxRecords * k + 1) (1 + (listedOf locations.user).length) = 1 +
      (listedOf locations.user).length := Nat.min_eq_right (by omega)
  have hdrop : locations.files.drop (maxRecords * k) = (listedOf locations.system).drop
      (maxRecords * k + 1 - (1 + (listedOf locations.user).length)) := by
    rw [hfiles, List.drop_append, drop_of_length_le (by omega), nil_append]
    congr 1
    omega
  refine ⟨opened (1 + (listedOf locations.user).length), ?_, rfl, ?_⟩
  · have hstart : (opened 1).curCursor ≤ maxRecords * k + 1 := Nat.le_add_left _ _
    rw [readDir_skip (by omega) (fun e he => listed_of_mem he) hstart, drop_of_length_le (by
        show (listedOf locations.user).length ≤ maxRecords * k + 1 - 1
        omega)]
    show some (opened (min (maxRecords * k + 1) (1 + _))) = _
    rw [hmin]
  · rw [readDir_page hsha _ (maxRecords * k) (fun e he => listed_of_mem he)
      (fun e he => h.describable e (by rw [hfiles]; exact mem_append_right _ he)) (by omega)
      (by omega) (by omega) (by rw [← hdrop]; rfl) (h.room k), ← hdrop]
    rfl

theorem walk_first (hsha : ∀ m, (sha256 m).length = 32) (h : Pageable sha256 locations)
    (hwithin : maxRecords * k ≤ (listedOf locations.user).length)
    (hsingle : pageFiles sha256 maxRecords (listedOf locations.user) = listedOf locations.user) :
    ∃ s, readDir sha256 (maxRecords * k + 1) (listedOf locations.user) (opened 1) = some s ∧
      s.nextCursor = 0 ∧ readDir sha256 (maxRecords * k + 1) (listedOf locations.system) s =
        some (walked sha256 locations k) := by
  have hfew := h.few
  have hfiles := files_eq locations
  have hlength : locations.files.length = (listedOf locations.user).length +
      (listedOf locations.system).length := by
    rw [hfiles, List.length_append]
  have hdescribable := h.describable
  rw [hfiles] at hdescribable
  have hdrop : locations.files.drop (maxRecords * k) =
      (listedOf locations.user).drop (maxRecords * k) ++ listedOf locations.system := by
    rw [hfiles, drop_append_of_le_length hwithin]
  have hrest := pageFiles_drop hsingle (maxRecords * k)
  have hpage : filesOfPage sha256 locations k = (listedOf locations.user).drop (maxRecords * k) ++
      pageFiles sha256 (maxRecords - ((listedOf locations.user).drop (maxRecords * k)).countP
        (hasBundle sha256)) (listedOf locations.system) := by
    rw [filesOfPage, hdrop, pageFiles_append hrest]
  have hcount := @count_pageFiles sha256 maxRecords
    ((listedOf locations.user).drop (maxRecords * k))
  rw [hrest] at hcount
  have hroom := h.room k
  rw [hpage, room_append] at hroom
  refine ⟨(opened (maxRecords * k + 1)).after sha256
    ((listedOf locations.user).drop (maxRecords * k)), ?_, rfl, ?_⟩
  · rw [readDir_page hsha 1 (maxRecords * k) (fun e he => listed_of_mem he)
      (fun e he => hdescribable e (mem_append_left _ he)) (by omega) (by omega) (by omega)
      (by rw [Nat.add_sub_cancel, hrest]) hroom.1, Nat.add_sub_cancel, if_pos rfl]
    rfl
  · have hlong : ((listedOf locations.user).drop (maxRecords * k)).countP (hasBundle sha256) ≤
        (listedOf locations.user).length - maxRecords * k := by
      rw [← length_drop]
      exact countP_le_length
    have hrecords : ((opened (maxRecords * k + 1)).after sha256
        ((listedOf locations.user).drop (maxRecords * k))).nRecords =
          ((listedOf locations.user).drop (maxRecords * k)).countP (hasBundle sha256) :=
      Nat.zero_add _
    rw [readDir_read hsha (fun e he => listed_of_mem he)
      (fun e he => hdescribable e (mem_append_right _ he)) rfl (Nat.le_add_right _ _) ?_
      (by rw [hrecords]; exact hcount) _ (by rw [hrecords]) ?_, after_after, ← hpage]
    · unfold walked
      rw [hpage, hdrop]
      simp only [append_cancel_left_eq]
      rfl
    · show maxRecords * k + 1 + _ + _ < 2 ^ 32
      omega
    · rw [hrecords]
      rw [Nat.zero_add] at hroom
      have hused : ((opened (maxRecords * k + 1)).after sha256
          ((listedOf locations.user).drop (maxRecords * k))).rsp.text.length = 1 +
            (recordsText sha256 0
              ((listedOf locations.user).drop (maxRecords * k))).length := List.length_append
      rw [hused]
      exact hroom.2

theorem walk_only (hsha : ∀ m, (sha256 m).length = 32) (h : Pageable sha256 locations)
    (hk : maxRecords * k ≤ locations.files.length) (hnone : locations.system = none) :
    readDir sha256 (maxRecords * k + 1) (listedOf locations.user) (opened 1) =
      some (walked sha256 locations k) := by
  have hfew := h.few
  have hfiles : locations.files = listedOf locations.user := by
    rw [files_eq, hnone]
    exact append_nil _
  rw [← hfiles, readDir_page hsha 1 (maxRecords * k) (fun e he => listed_of_mem (hfiles ▸ he))
    h.describable (by omega) (by omega) (by omega) (by rw [Nat.add_sub_cancel]; rfl) (h.room k),
    Nat.add_sub_cancel]
  rfl

/-- **What the walk over both directories comes to.** -/
theorem getDescriptors_walk (hsha : ∀ m, (sha256 m).length = 32) (h : Pageable sha256 locations)
    (hk : maxRecords * k ≤ locations.files.length) {query : Option Int}
    (hquery : requestCursor query = some (maxRecords * k + 1)) :
    getDescriptors sha256 locations query =
      some (.ok { putNext (walked sha256 locations k) with
        rsp := (putNext (walked sha256 locations k)).rsp.put (ascii "\x7d") }) := by
  unfold getDescriptors
  rw [hquery]
  simp only
  rw [opened_one, readLocation_eq _ _ rfl]
  rcases h.single with hnone | hsingle
  · rw [walk_only hsha h hk hnone, map_some, hnone]
    rfl
  · obtain ⟨s, hfirst, hzero, hsecond⟩ :
        ∃ s, readDir sha256 (maxRecords * k + 1) (listedOf locations.user) (opened 1) = some s ∧
          s.nextCursor = 0 ∧ readDir sha256 (maxRecords * k + 1) (listedOf locations.system) s =
            some (walked sha256 locations k) := by
      rcases Nat.lt_or_ge (listedOf locations.user).length (maxRecords * k) with hlt | hle
      · exact walk_second hsha h hk hlt
      · exact walk_first hsha h hle hsingle
    rw [hfirst, map_some, putNext_of_zero hzero]
    simp only
    rw [readLocation_eq _ _ hzero, hsecond, map_some]

end Page

/-! ## The text of a page is JSON -/

section Text

variable {sha256}

theorem recordsText_filter : ∀ (n : Nat) (files : List DirEntry),
    recordsText sha256 n (files.filter (hasBundle sha256)) = recordsText sha256 n files
  | _, [] => rfl
  | n, e :: files => by
    cases hfile : fileBundle sha256 e with
    | none =>
      rw [filter_cons_of_neg (by rw [hasBundle_of_none hfile]; exact Bool.false_ne_true),
        recordsText_of_none hfile, recordsText_filter]
    | some found =>
      obtain ⟨file, b⟩ := found
      rw [filter_cons_of_pos (hasBundle_of_some hfile), recordsText_of_some hfile,
        recordsText_of_some hfile, recordsText_filter]

theorem commaText_short (n : Nat) : (commaText n).length ≤ 1 := by
  unfold commaText
  split <;> decide

theorem length_recordText (hsha : ∀ m, (sha256 m).length = 32) {file : List UInt8} {b : Bundle}
    (hfile : bundleOf sha256 file = some b) (hdesc : Describable b.desc) :
    (recordText sha256 file b).length ≤ 149 + b.desc.length := by
  obtain ⟨tokens, texts, pieces, ms, hcopied⟩ := hdesc.copiedAs
  have hshort := hcopied.short
  rw [← hcopied.copiedText_eq] at hshort
  have hhash : b.hash.length = 32 := by
    unfold bundleOf at hfile
    cases hddfb : ddfbContent file with
    | none =>
      rw [hddfb] at hfile
      cases hfile
    | some bsDDFB =>
      rw [hddfb] at hfile
      obtain ⟨desc, -, rfl⟩ := map_eq_some_iff.mp hfile
      exact hsha _
  unfold recordText
  simp only [List.length_append, length_binToHexAscii, hhash, hsha,
    show (ascii "\"").length = 1 from rfl, show (ascii "\":").length = 2 from rfl,
    show (ascii ", \"file_hash\": \"").length = 16 from rfl,
    show (ascii "\"\x7d").length = 2 from rfl]
  omega

theorem bundleOf_of_fileBundle {e : DirEntry} {file : List UInt8} {b : Bundle}
    (h : fileBundle sha256 e = some (file, b)) : bundleOf sha256 file = some b := by
  unfold fileBundle at h
  obtain ⟨content, -, hb⟩ := bind_eq_some_iff.mp h
  obtain ⟨b', hb', hpair⟩ := map_eq_some_iff.mp hb
  obtain ⟨rfl, rfl⟩ := Prod.mk.inj hpair
  exact hb'

theorem room_left (hsha : ∀ m, (sha256 m).length = 32) : ∀ {files : List DirEntry} {used n : Nat},
    (∀ e ∈ files, ∀ file b, fileBundle sha256 e = some (file, b) → Describable b.desc) →
    used + 202 < maxResponseSize → Room sha256 used n files →
    used + (recordsText sha256 n files).length + 202 < maxResponseSize
  | [], _, _, _, hleft, _ => hleft
  | e :: files, used, n, hdesc, hleft, hroom => by
    obtain ⟨he, hfiles⟩ := forall_mem_cons.mp hdesc
    cases hfile : fileBundle sha256 e with
    | none =>
      rw [recordsText_of_none hfile]
      exact room_left hsha hfiles hleft ((room_of_none hfile _ _ _).mp hroom)
    | some found =>
      obtain ⟨file, b⟩ := found
      obtain ⟨hfits, hrest⟩ := (room_of_some hfile _ _ _).mp hroom
      have hrecord := length_recordText hsha (bundleOf_of_fileBundle hfile) (he file b hfile)
      have hcomma := commaText_short n
      have hmore := room_left hsha hfiles (by rw [List.length_append]; omega) hrest
      rw [recordsText_of_some hfile, List.length_append]
      omega

theorem exists_recordsPieces : ∀ {files : List DirEntry},
    (∀ e ∈ files, ∀ file b, fileBundle sha256 e = some (file, b) → Describable b.desc) →
    ∀ n, ∃ pieces, layoutText pieces = recordsText sha256 n files ∧
      ValidUtf8 (recordsText sha256 n files) ∧
      (files.countP (hasBundle sha256) = 0 → layoutKinds pieces = []) ∧
      (n = 0 → 0 < files.countP (hasBundle sha256) → Derives .members (layoutKinds pieces)) ∧
      (0 < n → ∀ ms, Derives .members ms → Derives .members (ms ++ layoutKinds pieces))
  | [], _, n => by
    refine ⟨[], rfl, ⟨[], rfl⟩, fun _ => rfl, fun _ h => absurd h (Nat.lt_irrefl 0), ?_⟩
    intro _ ms hms
    rwa [layoutKinds_nil, append_nil]
  | e :: files, hdesc, n => by
    obtain ⟨he, hfiles⟩ := forall_mem_cons.mp hdesc
    cases hfile : fileBundle sha256 e with
    | none =>
      have hcount : (e :: files).countP (hasBundle sha256) = files.countP (hasBundle sha256) :=
        countP_cons_of_neg (by rw [hasBundle_of_none hfile]; exact Bool.false_ne_true)
      rw [recordsText_of_none hfile, hcount]
      exact exists_recordsPieces hfiles n
    | some found =>
      obtain ⟨file, b⟩ := found
      obtain ⟨rest, hrestText, hrestUtf8, -, -, hrestMembers⟩ :=
        exists_recordsPieces hfiles (n + 1)
      obtain ⟨record, v, hrecordText, hrecordKinds, hvalue, hrecordUtf8⟩ :=
        exists_recordPieces sha256 file (he file b hfile)
      have hbehind := hrestMembers (Nat.succ_pos n)
      rw [recordsText_of_some hfile, count_of_hasBundle files (hasBundle_of_some hfile)]
      rcases Nat.eq_zero_or_pos n with rfl | hpos
      · refine ⟨record ++ rest, ?_, ?_, fun h => absurd h (Nat.succ_ne_zero _), ?_,
          fun h => absurd h (Nat.lt_irrefl 0)⟩
        · rw [Cj.layoutText_append, hrecordText, hrestText]
          rfl
        · exact JsonBuilder.validUtf8_append hrecordUtf8 hrestUtf8
        · intro _ _
          rw [Cj.layoutKinds_append, hrecordKinds]
          exact hbehind _ (.member hvalue)
      · have hcomma : commaText n = [0x2C] := by
          unfold commaText
          rw [if_pos hpos]
          rfl
        refine ⟨.ofLexeme .valueSeparator :: (record ++ rest), ?_, ?_,
          fun h => absurd h (Nat.succ_ne_zero _), fun h => absurd h (by omega), ?_⟩
        · rw [layoutText_cons, Cj.layoutText_append, hrecordText, hrestText, hcomma]
          rfl
        · rw [hcomma]
          exact JsonBuilder.validUtf8_append (JsonBuilder.validUtf8_append
            (JsonBuilder.validUtf8_of_ascii (by decide +kernel)) hrecordUtf8) hrestUtf8
        · intro _ ms hms
          have hone := hbehind _ (.members hms hvalue)
          rw [layoutKinds_cons, Cj.layoutKinds_append, hrecordKinds]
          rw [append_assoc] at hone
          exact hone

end Text

theorem digit_plain : ∀ n < 10, isDigit (n.digitChar).toNat.toUInt8 = true ∧
    (0 < n → (n.digitChar).toNat.toUInt8 ≠ 0x30) := by
  decide

variable {n : Nat}

theorem decimal_of_lt (h : n < 10) : decimal n = [(n.digitChar).toNat.toUInt8] := by
  unfold decimal
  rw [Nat.toDigits_of_lt_base h]
  rfl

theorem decimal_of_le (h : 10 ≤ n) :
    decimal n = decimal (n / 10) ++ [((n % 10).digitChar).toNat.toUInt8] := by
  unfold decimal
  rw [Nat.toDigits_of_base_le (by decide) h, map_append]
  rfl

theorem decimal_intPart (h : 0 < n) :
    ∃ d ds, decimal n = d :: ds ∧ isDigit d = true ∧ d ≠ 0x30 ∧ Digits ds := by
  induction n using Nat.strongRecOn with
  | _ n ih =>
    rcases Nat.lt_or_ge n 10 with hlt | hle
    · obtain ⟨hdigit, hfirst⟩ := digit_plain n hlt
      exact ⟨_, [], decimal_of_lt hlt, hdigit, hfirst h, forall_mem_nil _⟩
    · obtain ⟨d, ds, hdecimal, hd, hzero, hds⟩ := ih (n / 10) (by omega) (by omega)
      refine ⟨d, ds ++ [((n % 10).digitChar).toNat.toUInt8], ?_, hd, hzero, ?_⟩
      · rw [decimal_of_le hle, hdecimal, cons_append]
      · intro b hb
        rcases mem_append.mp hb with hb | hb
        · exact hds b hb
        · rw [mem_singleton.mp hb]
          exact (digit_plain (n % 10) (Nat.mod_lt n (by decide))).1

theorem decimal_number (h : 0 < n) : Number (decimal n) :=
  ⟨[], decimal n, [], [], by simp, .inl rfl, .inr (decimal_intPart h), .inl rfl, .inl rfl⟩

theorem length_decimal (h : n < 2 ^ 32) : (decimal n).length ≤ 10 := by
  unfold decimal
  rw [length_map]
  exact Nat.toDigits_length 10 n 10 (by decide) (by omega)

/-! ## Pages -/

section Pages

variable {sha256} {locations : Locations} {k : Nat}

/-- The numbers under `next` on a page -/
def nextsOf (sha256 : List UInt8 → List UInt8) (locations : Locations) (k : Nat) : List Nat :=
  if filesOfPage sha256 locations k = locations.files.drop (maxRecords * k) then []
  else [maxRecords * k + 1 + (filesOfPage sha256 locations k).countP (hasBundle sha256)]

theorem mem_filesOfPage {e : DirEntry} (h : e ∈ filesOfPage sha256 locations k) :
    e ∈ locations.files :=
  mem_of_mem_drop ((pageFiles_starts _ _).subset h)

theorem count_of_more (h : filesOfPage sha256 locations k ≠ locations.files.drop (maxRecords * k)) :
    (filesOfPage sha256 locations k).countP (hasBundle sha256) = maxRecords :=
  count_of_stop h

theorem pageText_json (hdesc : ∀ e ∈ locations.files, ∀ file b, fileBundle sha256 e =
    some (file, b) → Describable b.desc) :
    JsonText (ascii "\x7b" ++ recordsText sha256 0 (filesOfPage sha256 locations k) ++
      (nextsOf sha256 locations k).flatMap (fun next => ascii ",\"next\":" ++ decimal next) ++
        ascii "\x7d") := by
  obtain ⟨records, htext, hutf8, hnone, hmembers, -⟩ :=
    exists_recordsPieces (fun e he => hdesc e (mem_filesOfPage he)) 0
  have hplain (s : String) (hs : ∀ x ∈ ascii s, x.toNat < 0x80) : ValidUtf8 (ascii s) :=
    JsonBuilder.validUtf8_of_ascii hs
  obtain ⟨more, hmoreText, hmoreUtf8, hmore⟩ : ∃ more, layoutText more =
      (nextsOf sha256 locations k).flatMap
        (fun next => ascii ",\"next\":" ++ decimal next) ∧ ValidUtf8 (layoutText more) ∧
      (layoutKinds more = [] ∨ 0 <
        (filesOfPage sha256 locations k).countP (hasBundle sha256) ∧ layoutKinds more =
          [.valueSeparator, .string, .nameSeparator, .primitive]) := by
    unfold nextsOf
    by_cases hlast : filesOfPage sha256 locations k = locations.files.drop (maxRecords * k)
    · rw [if_pos hlast]
      exact ⟨[], rfl, ⟨[], rfl⟩, .inl rfl⟩
    · rw [if_neg hlast]
      have hnumber := decimal_number (n := maxRecords * k + 1 +
        (filesOfPage sha256 locations k).countP (hasBundle sha256)) (by omega)
      have hlayout : layoutText [.ofLexeme .valueSeparator,
          .ofLexeme (nameLexeme "next" (by decide +kernel)), .ofLexeme .nameSeparator,
          .ofLexeme (JsonBuilder.numberLexeme _ hnumber)] = ascii ",\"next\":" ++ decimal
            (maxRecords * k + 1 + (filesOfPage sha256 locations k).countP (hasBundle sha256)) := by
        simp [Placed.ofLexeme, nameLexeme, JsonBuilder.stringLexeme, JsonBuilder.quoted,
          JsonBuilder.numberLexeme, Lexeme.valueSeparator, Lexeme.nameSeparator, ascii]
      refine ⟨[.ofLexeme .valueSeparator, .ofLexeme (nameLexeme "next" (by decide +kernel)),
        .ofLexeme .nameSeparator, .ofLexeme (JsonBuilder.numberLexeme _ hnumber)], ?_, ?_,
        .inr ⟨?_, rfl⟩⟩
      · rw [hlayout, flatMap_singleton]
      · rw [hlayout]
        exact JsonBuilder.validUtf8_append (hplain _ (by decide +kernel))
          (JsonBuilder.validUtf8_of_ascii (JsonBuilder.number_ascii hnumber))
      · rw [count_of_more hlast]
        decide
  rw [← htext, ← hmoreText]
  refine ⟨?_, .ofLexeme .beginObject :: (records ++ more ++ [.ofLexeme .endObject]),
    ⟨[], forall_mem_nil _, ?_⟩, ?_⟩
  · rw [htext]
    exact JsonBuilder.validUtf8_append (JsonBuilder.validUtf8_append
      (JsonBuilder.validUtf8_append (hplain _ (by decide +kernel)) hutf8) hmoreUtf8)
        (hplain _ (by decide +kernel))
  · rw [append_nil, layoutText_cons, Cj.layoutText_append, Cj.layoutText_append]
    simp [Placed.ofLexeme, Lexeme.beginObject, Lexeme.endObject, ascii]
  · rw [layoutKinds_cons, Cj.layoutKinds_append, Cj.layoutKinds_append]
    show Derives .value (.beginObject :: (layoutKinds records ++ layoutKinds more ++ [.endObject]))
    rcases hmore with hmore | ⟨hpos, hmore⟩
    · rw [hmore, append_nil]
      rcases Nat.eq_zero_or_pos ((filesOfPage sha256 locations k).countP (hasBundle sha256)) with
        hzero | hpos
      · rw [hnone hzero]
        exact .emptyObject
      · exact .object (hmembers rfl hpos)
    · rw [hmore]
      exact .object (.members (hmembers rfl hpos) .primitive)

theorem length_of_more (h : filesOfPage sha256 locations k ≠
    locations.files.drop (maxRecords * k)) :
    maxRecords * k + (filesOfPage sha256 locations k).length < locations.files.length := by
  have hstarts := @pageFiles_starts sha256 maxRecords
    (locations.files.drop (maxRecords * k))
  have hle := hstarts.length_le
  have hne : (filesOfPage sha256 locations k).length ≠
      (locations.files.drop (maxRecords * k)).length := fun heq => h (hstarts.eq_of_length heq)
  unfold filesOfPage at hne ⊢
  rw [length_drop] at hle hne
  omega

/-- **What a request is answered with** where the directories can be paged. -/
theorem getDescriptors_page (hsha : ∀ m, (sha256 m).length = 32) (h : Pageable sha256 locations)
    (hk : maxRecords * k ≤ locations.files.length) {query : Option Int}
    (hquery : requestCursor query = some (maxRecords * k + 1)) :
    ∃ page, getDescriptors sha256 locations query = some (.ok page) ∧ page.described =
      (filesOfPage sha256 locations k).filter (hasBundle sha256) ∧
      page.nexts = nextsOf sha256 locations k ∧ page.rsp.text = pageText sha256 page ∧
      JsonText page.rsp.text := by
  have hfew := h.few
  have hleft := room_left hsha (fun e he => h.describable e (mem_filesOfPage he)) (by decide)
    (h.room k)
  have hjson := pageText_json (k := k) h.describable
  have hbrace : (ascii "\x7b").length = 1 := rfl
  have hclose : (ascii "\x7d").length = 1 := rfl
  refine ⟨_, getDescriptors_walk hsha h hk hquery, ?_⟩
  unfold pageText
  by_cases hlast : filesOfPage sha256 locations k = locations.files.drop (maxRecords * k)
  · have hzero : (walked sha256 locations k).nextCursor = 0 := if_pos hlast
    have hput : (walked sha256 locations k).rsp.put (ascii "\x7d") = ⟨ascii "\x7b" ++
        recordsText sha256 0 (filesOfPage sha256 locations k) ++ ascii "\x7d", true⟩ := by
      refine put_mk ?_
      show (ascii "\x7b" ++ recordsText sha256 0 (filesOfPage sha256 locations k)).length + _ < _
      rw [List.length_append]
      omega
    have hnexts : nextsOf sha256 locations k = [] := if_pos hlast
    rw [hnexts, flatMap_nil, append_nil] at hjson
    rw [putNext_of_zero hzero, hput]
    refine ⟨nil_append _, hnexts.symm, ?_, hjson⟩
    show _ = ascii "\x7b" ++ recordsText sha256 0 ([] ++ (filesOfPage sha256 locations k).filter
      (hasBundle sha256)) ++ [] ++ ascii "\x7d"
    rw [nil_append, recordsText_filter, append_nil]
  · have hmore := length_of_more hlast
    have hcount : (filesOfPage sha256 locations k).countP (hasBundle sha256) ≤
      (filesOfPage sha256 locations k).length := countP_le_length
    have hcursor : (walked sha256 locations k).nextCursor = maxRecords * k + 1 +
      (filesOfPage sha256 locations k).countP (hasBundle sha256) := if_neg hlast
    have hnexts : nextsOf sha256 locations k = [maxRecords * k + 1 +
      (filesOfPage sha256 locations k).countP (hasBundle sha256)] := if_neg hlast
    generalize hnext : maxRecords * k + 1 +
      (filesOfPage sha256 locations k).countP (hasBundle sha256) = next at hcursor hnexts
    have hdigits := length_decimal (n := next) (by omega)
    have hput : ((((walked sha256 locations k).rsp.put (ascii ",\"next\":")).put
        (decimal next)).put (ascii "\x7d")) = ⟨ascii "\x7b" ++
          recordsText sha256 0 (filesOfPage sha256 locations k) ++ ascii ",\"next\":" ++
            decimal next ++ ascii "\x7d", true⟩ := by
      have hkey : (ascii ",\"next\":").length = 8 := rfl
      have hrsp : (walked sha256 locations k).rsp = ⟨ascii "\x7b" ++
        recordsText sha256 0 (filesOfPage sha256 locations k), true⟩ := rfl
      rw [hrsp, put_mk, put_mk, put_mk]
      all_goals
        simp only [List.length_append]
        omega
    obtain ⟨hrsp, hdescribed, hput'⟩ : (putNext (walked sha256 locations k)).rsp =
          ((walked sha256 locations k).rsp.put (ascii ",\"next\":")).put (decimal next) ∧
        (putNext (walked sha256 locations k)).described =
          (filesOfPage sha256 locations k).filter (hasBundle sha256) ∧
        (putNext (walked sha256 locations k)).nexts = [next] := by
      unfold putNext
      rw [if_pos (by omega), hcursor]
      exact ⟨rfl, nil_append _, rfl⟩
    rw [hnexts, flatMap_singleton] at hjson
    simp only
    rw [hrsp, hput, hdescribed, hput', hnexts, recordsText_filter, flatMap_singleton]
    simp only [append_assoc] at hjson ⊢
    exact ⟨trivial, trivial, trivial, hjson⟩

theorem followed_from (hsha : ∀ m, (sha256 m).length = 32) (h : Pageable sha256 locations) :
    ∀ (left k : Nat), left = locations.files.length - maxRecords * k →
    maxRecords * k ≤ locations.files.length → ∀ query,
    requestCursor query = some (maxRecords * k + 1) →
    ∃ pages, Followed sha256 locations query pages ∧
      (∀ page ∈ pages, page.rsp.text = pageText sha256 page ∧ JsonText page.rsp.text ∧
        page.nexts.length ≤ 1) ∧
      pages.flatMap Listing.described =
        (locations.files.drop (maxRecords * k)).filter (hasBundle sha256) := by
  intro left
  -- what is left of the files gets less with every page
  induction left using Nat.strongRecOn with
  | _ left ih =>
    intro k hleft hk query hquery
    obtain ⟨page, hpage, hdescribed, hnexts, htext, hjson⟩ :=
      getDescriptors_page hsha h hk hquery
    by_cases hlast : filesOfPage sha256 locations k = locations.files.drop (maxRecords * k)
    · have hnone : page.nexts = [] := hnexts.trans (if_pos hlast)
      refine ⟨[page], .last hpage hnone, ?_, ?_⟩
      · refine forall_mem_cons.mpr ⟨⟨htext, hjson, ?_⟩, forall_mem_nil _⟩
        rw [hnone]
        exact Nat.zero_le 1
      · rw [flatMap_singleton, hdescribed, hlast]
    · have hlength := (h.aligned k).resolve_left hlast
      have hmore := length_of_more hlast
      have hfew := h.few
      have hsucc : maxRecords * (k + 1) = maxRecords * k + maxRecords := Nat.mul_succ _ _
      have hnext : page.nexts = [maxRecords * (k + 1) + 1] := by
        rw [hnexts, nextsOf, if_neg hlast, count_of_more hlast, hsucc, Nat.add_right_comm]
      have hcursor : requestCursor (some ((maxRecords * (k + 1) + 1 : Nat) : Int)) =
          some (maxRecords * (k + 1) + 1) := by
        unfold requestCursor
        simp only
        rw [if_pos (by omega), Int.toNat_natCast, Nat.mod_eq_of_lt (by omega)]
      have hposRecords : 0 < maxRecords := by decide
      obtain ⟨pages, hpages, hall, hrest⟩ := ih (locations.files.length - maxRecords * (k + 1))
        (by omega) (k + 1) rfl (by omega) _ hcursor
      refine ⟨page :: pages, .more hpage (by rw [hnext]; rfl) hpages, ?_, ?_⟩
      · refine forall_mem_cons.mpr ⟨⟨htext, hjson, ?_⟩, hall⟩
        rw [hnext]
        exact Nat.le_refl 1
      · have hstarts := @pageFiles_starts sha256 maxRecords
          (locations.files.drop (maxRecords * k))
        have htake : filesOfPage sha256 locations k =
            (locations.files.drop (maxRecords * k)).take maxRecords := by
          have heq := prefix_iff_eq_take.mp hstarts
          rwa [show (pageFiles sha256 maxRecords _).length = maxRecords from hlength] at heq
        rw [flatMap_cons, hdescribed, hrest, ← filter_append, htake, hsucc, ← drop_drop,
          take_append_drop]

/-- **The descriptors come complete** where the directories can be paged. -/
theorem descriptors_complete (hsha : ∀ m, (sha256 m).length = 32)
    (h : Pageable sha256 locations) : DescriptorsComplete sha256 locations := by
  obtain ⟨pages, hpages, hall, hdescribed⟩ :=
    followed_from hsha h locations.files.length 0 rfl (Nat.zero_le _) none rfl
  refine ⟨pages, hpages, hall, ?_⟩
  rw [hdescribed]
  exact List.Perm.refl _

end Pages

/-! ## A page that ends in the first directory -/

section Twice

variable {sha256}

theorem room_of_short (hsha : ∀ m, (sha256 m).length = 32) (limit : Nat) :
    ∀ {files : List DirEntry} {used n : Nat},
    (∀ e ∈ files, ∀ file b, fileBundle sha256 e = some (file, b) → Describable b.desc ∧
      b.desc.length ≤ limit) →
    used + files.length * (150 + limit) + 352 < maxResponseSize → Room sha256 used n files
  | [], _, _, _, _ => trivial
  | e :: files, used, n, hdesc, hfits => by
    obtain ⟨he, hfiles⟩ := forall_mem_cons.mp hdesc
    rw [length_cons, Nat.succ_mul] at hfits
    cases hfile : fileBundle sha256 e with
    | none => exact (room_of_none hfile _ _ _).mpr (room_of_short hsha limit hfiles (by omega))
    | some found =>
      obtain ⟨file, b⟩ := found
      obtain ⟨hdescribable, hshort⟩ := he file b hfile
      have hrecord := length_recordText hsha (bundleOf_of_fileBundle hfile) hdescribable
      have hcomma := commaText_short n
      refine (room_of_some hfile _ _ _).mpr ⟨by omega, room_of_short hsha limit hfiles ?_⟩
      rw [List.length_append]
      omega

theorem readDir_full (reqCursor : Nat) : ∀ (dir : List DirEntry) {s : Listing}, reqCursor ≤
    s.curCursor → s.nRecords = maxRecords →
    readDir sha256 reqCursor dir s = some { s with
      nextCursor := if dir.filter DirEntry.listed = [] then s.nextCursor else s.curCursor }
  | [], _, _, _ => rfl
  | e :: dir, _, hcursor, hfull => by
    by_cases he : e.listed = true
    · rw [readDir, if_pos he, if_neg (Nat.not_lt.mpr hcursor), if_neg (by omega),
        filter_cons_of_pos he, if_neg (cons_ne_nil _ _)]
    · rw [readDir, if_neg he, filter_cons_of_neg he, readDir_full reqCursor dir hcursor hfull]

theorem putNext_nexts {s : Listing} (h : s.nextCursor ≠ 0) :
    (putNext s).nexts = s.nexts ++ [s.nextCursor] := by
  unfold putNext
  rw [if_pos h]

theorem putNext_keeps (s : Listing) : (putNext s).nextCursor = s.nextCursor ∧
    (putNext s).curCursor = s.curCursor ∧ (putNext s).nRecords = s.nRecords := by
  unfold putNext
  split <;> exact ⟨rfl, rfl, rfl⟩

/-- **`next` is put for each directory** where a page ends in the first one and there is a second
one. -/
theorem nexts_twice (hsha : ∀ m, (sha256 m).length = 32) (user system : List DirEntry)
    (hdesc : ∀ e ∈ listedOf (some user), ∀ file b, fileBundle sha256 e = some (file, b) →
      Describable b.desc)
    (hfew : (listedOf (some user)).length + 1 < 2 ^ 32)
    (hroom : Room sha256 1 0 (pageFiles sha256 maxRecords (listedOf (some user))))
    (hends : pageFiles sha256 maxRecords (listedOf (some user)) ≠ listedOf (some user)) :
    ∃ page, getDescriptors sha256 ⟨some user, some system⟩ none = some (.ok page) ∧
      page.nexts.length = 2 := by
  have hcount := count_of_stop hends
  generalize hfirst : pageFiles sha256 maxRecords (listedOf (some user)) = first
    at hcount hends hroom
  obtain ⟨s, hread, hnext, hcursor, hfull, hnone⟩ : ∃ s,
      readDir sha256 1 (listedOf (some user)) (opened 1) = some s ∧ s.nextCursor ≠ 0 ∧ 1 ≤
        s.curCursor ∧ s.nRecords = maxRecords ∧ s.nexts = [] := by
    have hpage := readDir_page hsha 1 0 (fun e he => listed_of_mem he) hdesc (Nat.le_refl 1)
      (by omega) (by omega) hfirst.symm hroom
    refine ⟨_, hpage, ?_, Nat.le_add_right _ _, ?_, rfl⟩
    · show (if first = (listedOf (some user)).drop 0 then 0 else _) ≠ 0
      rw [drop_zero, if_neg hends]
      omega
    · show 0 + first.countP (hasBundle sha256) = maxRecords
      rw [hcount, Nat.zero_add]
  obtain ⟨hkeepsNext, hkeepsCursor, hkeepsRecords⟩ := putNext_keeps s
  have hsecond := @readDir_full sha256 1 system (putNext s) (by omega) (by omega)
  have hmore : ∀ c, c ≠ 0 → (putNext { putNext s with nextCursor := c }).nexts.length = 2 := by
    intro c hc
    rw [putNext_nexts hc]
    show ((putNext s).nexts ++ [c]).length = 2
    rw [putNext_nexts hnext, hnone]
    rfl
  unfold getDescriptors
  simp only [requestCursor]
  rw [opened_one, readLocation_eq _ _ rfl, hread, map_some]
  simp only
  unfold readLocation
  simp only
  rw [hsecond, map_some]
  refine ⟨_, rfl, hmore _ ?_⟩
  split
  · rw [hkeepsNext]
    exact hnext
  · omega

theorem not_complete_of_twice {locations : Locations} {page : Listing}
    (hpage : getDescriptors sha256 locations none = some (.ok page))
    (htwice : page.nexts.length = 2) : ¬ DescriptorsComplete sha256 locations := by
  rintro ⟨pages, hpages, hall, -⟩
  have hfirst : ∀ {query : Option Int} {pages : List Listing},
      Followed sha256 locations query pages → ∃ first rest, pages = first :: rest ∧
        getDescriptors sha256 locations query = some (.ok first) := by
    intro query pages h
    cases h with
    | last h => exact ⟨_, [], rfl, h⟩
    | more h => exact ⟨_, _, rfl, h⟩
  obtain ⟨first, rest, rfl, hserved⟩ := hfirst hpages
  rw [hpage] at hserved
  obtain rfl := DescriptorsResponse.ok.inj (some.inj hserved)
  have hone := (hall page mem_cons_self).2.2
  omega

end Twice

/-! ## A bundle for a lamp -/

def lampBundle : Bundle := ⟨lampSha256 lampDdfb, lampDesc⟩

theorem fileBundle_lamp : fileBundle lampSha256 lampEntry = some (lampFile, lampBundle) := by
  decide +kernel

def lampPieces : List Placed :=
  [.ofLexeme .beginObject, .ofLexeme (nameLexeme "product" (by decide +kernel)),
    .ofLexeme .nameSeparator, .ofLexeme (nameLexeme "Lamp" (by decide +kernel)),
    .ofLexeme .valueSeparator, spaced (nameLexeme "version" (by decide +kernel)),
    .ofLexeme .nameSeparator, .ofLexeme (nameLexeme "1.0.0" (by decide +kernel)),
    .ofLexeme .endObject]

theorem lampDesc_describable : Describable lampDesc where
  long := by decide
  utf8 := JsonBuilder.validUtf8_of_ascii (by decide +kernel)
  object := by
    refine ⟨lampPieces, _, ⟨[], forall_mem_nil _, rfl⟩, .members (.member .string) .string, rfl,
      by decide, ?_⟩
    intro p hp
    unfold lampPieces at hp
    simp only [mem_cons, not_mem_nil, or_false] at hp
    unfold Copied
    rcases hp with rfl | rfl | rfl | rfl | rfl | rfl | rfl | rfl | rfl <;> decide

theorem describable_lamp {e : DirEntry} (he : e = lampEntry) {file : List UInt8} {b : Bundle}
    (h : fileBundle lampSha256 e = some (file, b)) :
    Describable b.desc ∧ b.desc.length ≤ 37 := by
  rw [he, fileBundle_lamp] at h
  obtain ⟨-, rfl⟩ := Prod.mk.inj (some.inj h)
  exact ⟨lampDesc_describable, by decide⟩

def lampLocations : Locations where
  user := some [lampEntry]
  system := some [{ name := ascii "broken.ddf", content := some [0] }]

theorem descriptors_complete_lamp : DescriptorsComplete lampSha256 lampLocations := by
  have hnone : fileBundle lampSha256 { name := ascii "broken.ddf", content := some [0] } = none := by
    decide +kernel
  have hwhole : pageFiles lampSha256 maxRecords lampLocations.files = lampLocations.files := by
    decide +kernel
  have hdesc : ∀ e ∈ lampLocations.files, ∀ file b, fileBundle lampSha256 e = some (file, b) →
      Describable b.desc ∧ b.desc.length ≤ 37 := by
    intro e he file b hfile
    have hmem : e ∈ [lampEntry, { name := ascii "broken.ddf", content := some [0] }] := by
      have hfiles : lampLocations.files =
          [lampEntry, { name := ascii "broken.ddf", content := some [0] }] := by decide +kernel
      rwa [hfiles] at he
    rcases mem_pair.mp hmem with rfl | rfl
    · exact describable_lamp rfl hfile
    · rw [hnone] at hfile
      cases hfile
  refine descriptors_complete lampSha256_length ⟨by decide +kernel,
    fun e he file b hfile => (hdesc e he file b hfile).1, fun k => .inl (pageFiles_drop hwhole _),
    fun k => ?_, .inr (by decide +kernel)⟩
  have hpage : filesOfPage lampSha256 lampLocations k = lampLocations.files.drop (maxRecords * k) :=
    pageFiles_drop hwhole _
  refine room_of_short lampSha256_length 37
    (fun e he => hdesc e (mem_filesOfPage he)) ?_
  have hlength : (filesOfPage lampSha256 lampLocations k).length ≤ 2 := by
    have htwo : lampLocations.files.length = 2 := by decide +kernel
    rw [hpage, length_drop]
    omega
  have hmax : maxResponseSize = 2 ^ 20 := rfl
  omega

/-- With 65 bundles of the user and a second directory the first page has `next` twice. -/
theorem lamps_next_twice : ¬ DescriptorsComplete lampSha256
    ⟨some (List.replicate 65 lampEntry), some []⟩ := by
  have hlisted : listedOf (some (List.replicate 65 lampEntry)) = List.replicate 65 lampEntry := by
    decide +kernel
  have hdesc : ∀ e ∈ List.replicate 65 lampEntry, ∀ file b, fileBundle lampSha256 e =
      some (file, b) → Describable b.desc ∧ b.desc.length ≤ 37 :=
    fun e he file b hfile => describable_lamp (eq_of_mem_replicate he) hfile
  have hstarts := @pageFiles_starts lampSha256 maxRecords (List.replicate 65 lampEntry)
  have hshort := hstarts.length_le
  rw [length_replicate] at hshort
  obtain ⟨page, hpage, htwice⟩ := nexts_twice lampSha256_length
    (List.replicate 65 lampEntry) [] (by
      rw [hlisted]
      exact fun e he file b hfile => (hdesc e he file b hfile).1) (by
      rw [hlisted, length_replicate]
      decide) (by
      rw [hlisted]
      refine room_of_short lampSha256_length 37
        (fun e he file b hfile => hdesc e (hstarts.subset he) file b hfile) ?_
      have hmax : maxResponseSize = 2 ^ 20 := rfl
      omega) (by
      rw [hlisted]
      intro heq
      have hcount := @count_pageFiles lampSha256 maxRecords (List.replicate 65 lampEntry)
      rw [heq, countP_replicate, if_pos (hasBundle_of_some fileBundle_lamp)] at hcount
      exact absurd hcount (by decide))
  exact not_complete_of_twice hpage htwice

end Ddf
end DeconzRest

import DeconzRest.Ddf.Bundle

/-!
# `DDFB_FindChunk`

The loop reads a header before it looks at the status of the stream.  Where the header is cut off,
its tag may still be there while its length is 0; such a header is found as a chunk.
-/

namespace DeconzRest
namespace Ddf

/-- What one turn of the loop leads to -/
inductive FindTurn where
  /-- It is left with a result. -/
  | ended (size : Option Nat) (bs : ByteStream)
  /-- It goes on with the stream behind a chunk. -/
  | next (bs : ByteStream)
deriving DecidableEq, Repr

def findTurn (tag : List UInt8) (origPos : Nat) (bs : ByteStream) : FindTurn :=
  if bs.pos < bs.size ∧ bs.ok then
    let ((fourcc, sz), bs) := readHeader bs
    if bs.size < bs.pos + sz then .ended none { bs with pos := origPos } -- invalid size
    else if fourcc = tag then .ended (some sz) bs
    else .next { bs with pos := bs.pos + sz }
  else .ended none { bs with pos := origPos }

inductive FindEnds (tag : List UInt8) (origPos : Nat) : ByteStream → Option Nat × ByteStream → Prop
  | ended {bs bs' : ByteStream} {size : Option Nat}
      (h : findTurn tag origPos bs = .ended size bs') : FindEnds tag origPos bs (size, bs')
  | next {bs bs' : ByteStream} {r : Option Nat × ByteStream}
      (h : findTurn tag origPos bs = .next bs') (rest : FindEnds tag origPos bs' r) :
      FindEnds tag origPos bs r

def tagAt (bs : ByteStream) (p : Nat) : List UInt8 :=
  (List.range 4).map fun i => bs.byteAt (p + i)

def sizeAt (bs : ByteStream) (p : Nat) : Nat := bs.u32At (p + 4)

def CompleteAt (bs : ByteStream) (p : Nat) : Prop := p + 8 + sizeAt bs p ≤ bs.size

instance (bs : ByteStream) (p : Nat) : Decidable (CompleteAt bs p) :=
  inferInstanceAs (Decidable (_ ≤ _))

/-- There is a complete chunk with another tag at `p`, and `q` is the position behind it. -/
def Skips (tag : List UInt8) (bs : ByteStream) (p q : Nat) : Prop :=
  CompleteAt bs p ∧ tagAt bs p ≠ tag ∧ q = p + 8 + sizeAt bs p

/-- Nothing but complete chunks with other tags lies between two positions. -/
def Leads (tag : List UInt8) (bs : ByteStream) : Nat → Nat → Prop :=
  Relation.ReflTransGen (Skips tag bs)

/-- The search ends; what it finds is the first complete chunk with the tag behind complete chunks
with other tags, and if it finds nothing there is no such chunk. -/
structure FindsRight (tag : List UInt8) (bs : ByteStream) : Prop where
  ends : FindEnds tag bs.pos bs (findChunk bs tag)
  found : ∀ size bs', findChunk bs tag = (some size, bs') → ∃ p, Leads tag bs bs.pos p ∧
    CompleteAt bs p ∧ tagAt bs p = tag ∧ bs' = { bs with pos := p + 8 } ∧ size = sizeAt bs p
  missed : ∀ bs', findChunk bs tag = (none, bs') → bs'.pos = bs.pos ∧ ∀ p, Leads tag bs bs.pos p →
    CompleteAt bs p → tagAt bs p ≠ tag

/-- The octets of a tag as they are read at a position, with zeros behind the end -/
def cutTag (bs : ByteStream) (p : Nat) : List UInt8 :=
  (List.range 4).map fun i => if p + i < bs.size then bs.byteAt (p + i) else 0

/-- A header that is cut off begins with the tag. -/
def CutMatch (tag : List UInt8) (bs : ByteStream) (p : Nat) : Prop :=
  p < bs.size ∧ bs.size < p + 8 ∧ cutTag bs p = tag

instance (tag : List UInt8) (bs : ByteStream) (p : Nat) : Decidable (CutMatch tag bs p) :=
  inferInstanceAs (Decidable (_ ∧ _))

theorem getBytes_eq : ∀ (n : Nat) (bs : ByteStream), (bs.getBytes n).1 =
    (List.range n).map fun i =>
      if bs.ok = true ∧ bs.pos + i < bs.size then bs.byteAt (bs.pos + i) else 0
  | 0, _ => rfl
  | n + 1, bs => by
    show (if bs.readable 1 then bs.byteAt bs.pos else 0) :: ((bs.skip 1).getBytes n).1 = _
    rw [getBytes_eq n, List.range_succ_eq_map, List.map_cons, List.map_map]
    congr 1
    · exact if_congr ByteStream.readable_iff rfl rfl
    · refine List.map_congr_left fun i _ => ?_
      rw [Function.comp_apply, ByteStream.skip_ok, ByteStream.skip_size]
      have hbyte (j : Nat) : (bs.skip 1).byteAt j = bs.byteAt j := by
        unfold ByteStream.byteAt
        rw [ByteStream.skip_data, ByteStream.skip_start]
      rw [hbyte]
      by_cases hread : bs.readable 1 = true
      · have hok := (ByteStream.readable_iff.mp hread).1
        rw [ByteStream.skip_pos_of_readable hread]
        simp only [hread, hok, true_and, Nat.succ_eq_add_one, Nat.add_assoc, Nat.add_comm 1 i]
      · -- nothing is read any more
        rw [if_neg fun h => hread h.1, if_neg]
        rintro ⟨hok, hlt⟩
        exact hread (ByteStream.readable_iff.mpr ⟨hok, by omega⟩)

variable {tag : List UInt8} {bs : ByteStream} {origPos : Nat}

theorem tagAt_eq_cutTag {p : Nat} (h : p + 8 ≤ bs.size) : tagAt bs p = cutTag bs p := by
  refine List.map_congr_left fun i hi => ?_
  have hlt := List.mem_range.mp hi
  rw [if_pos (by omega)]

theorem readHeader_tag (hok : bs.ok = true) : (readHeader bs).1.1 = cutTag bs bs.pos := by
  show (bs.getBytes 4).1 = _
  rw [getBytes_eq]
  simp only [hok, true_and]
  rfl

theorem readHeader_cut (h : bs.readable 8 = false) (hpos : bs.pos ≤ bs.size) :
    (readHeader bs).1.2 = 0 ∧ ¬ (readHeader bs).2.size < (readHeader bs).2.pos := by
  have hread : (bs.getBytes 4).2.readable 4 = false := ByteStream.getBytes_readable.trans h
  constructor
  · show (if (bs.getBytes 4).2.readable 4 then _ else 0) = 0
    rw [hread]
    rfl
  · show ¬ ((bs.getBytes 4).2.skip 4).size < ((bs.getBytes 4).2.skip 4).pos
    rw [ByteStream.skip_size]
    exact Nat.not_lt_of_le (ByteStream.skip_pos_le (ByteStream.getBytes_pos_le 4 hpos))

theorem findTurn_end (h : bs.size ≤ bs.pos) :
    findTurn tag origPos bs = .ended none { bs with pos := origPos } := by
  unfold findTurn
  rw [if_neg fun hboth => absurd hboth.1 (Nat.not_lt_of_le h)]

theorem findTurn_not_ok (h : bs.ok = false) :
    findTurn tag origPos bs = .ended none { bs with pos := origPos } := by
  unfold findTurn
  rw [if_neg fun hboth => absurd (h.symm.trans hboth.2) Bool.false_ne_true]

theorem findTurn_header (hok : bs.ok = true) (h : bs.pos + 8 ≤ bs.size) :
    findTurn tag origPos bs =
      if ¬ CompleteAt bs bs.pos then .ended none { bs with pos := origPos }
      else if tagAt bs bs.pos = tag then
        .ended (some (sizeAt bs bs.pos)) { bs with pos := bs.pos + 8 }
      else .next { bs with pos := bs.pos + 8 + sizeAt bs bs.pos } := by
  have hread : bs.readable 8 = true := ByteStream.readable_iff.mpr ⟨hok, h⟩
  obtain ⟨hsize, hstream⟩ := readHeader_of_readable hread
  have hsz : (readHeader bs).1.2 = sizeAt bs bs.pos := hsize
  unfold findTurn
  rw [if_pos ⟨by omega, hok⟩]
  simp only [readHeader_tag hok, hsz, hstream, tagAt_eq_cutTag h]
  exact if_congr Nat.not_le.symm rfl rfl

theorem findTurn_cut (hok : bs.ok = true) (hlt : bs.pos < bs.size) (h : bs.size < bs.pos + 8) :
    ∃ bs', bs'.ok = false ∧ findTurn tag origPos bs = if cutTag bs bs.pos =
      tag then .ended (some 0) bs' else .next bs' := by
  have hread : bs.readable 8 = false := by
    refine Bool.eq_false_iff.mpr fun hread => ?_
    exact absurd (ByteStream.readable_iff.mp hread).2 (Nat.not_le_of_lt h)
  obtain ⟨hsize, hpos⟩ := readHeader_cut hread (Nat.le_of_lt hlt)
  refine ⟨(readHeader bs).2, readHeader_not_ok hread, ?_⟩
  unfold findTurn
  rw [if_pos ⟨hlt, hok⟩]
  simp only [readHeader_tag hok, hsize, Nat.add_zero, if_neg hpos]

theorem findChunkLoop_succ (fuel : Nat) : findChunkLoop tag origPos (fuel + 1) bs =
    match findTurn tag origPos bs with
    | .ended size bs' => (size, bs')
    | .next bs' => findChunkLoop tag origPos fuel bs' := by
  rw [findChunkLoop, findTurn]
  split
  · simp only
    split
    · rfl
    · split
      · rfl
      · rfl
  · rfl

/-! ## The search -/

/-- How a search from a position ends: with a complete chunk, with a header that is cut off, or
with neither of them ahead. -/
inductive Outcome (tag : List UInt8) (bs : ByteStream) (origPos p : Nat) :
    Option Nat × ByteStream → Prop
  | complete {q : Nat} (hleads : Leads tag bs p q) (hcomplete : CompleteAt bs q)
      (htag : tagAt bs q = tag) :
      Outcome tag bs origPos p (some (sizeAt bs q), { bs with pos := q + 8 })
  | cut {q : Nat} {bs' : ByteStream} (hleads : Leads tag bs p q) (hcut : CutMatch tag bs q) :
      Outcome tag bs origPos p (some 0, bs')
  | missed {bs' : ByteStream} (hpos : bs'.pos = origPos)
      (hnone : ∀ q, Leads tag bs p q → ¬ (CompleteAt bs q ∧ tagAt bs q = tag) ∧
        ¬ CutMatch tag bs q) :
      Outcome tag bs origPos p (none, bs')

theorem Outcome.skip {p q : Nat} {r : Option Nat × ByteStream} (hskip : Skips tag bs p q)
    (h : Outcome tag bs origPos q r) : Outcome tag bs origPos p r := by
  cases h with
  | complete hleads hcomplete htag => exact .complete (.head hskip hleads) hcomplete htag
  | cut hleads hcut => exact .cut (.head hskip hleads) hcut
  | missed hpos hnone =>
    refine .missed hpos fun q' hleads => ?_
    rcases hleads.cases_head with rfl | ⟨q'', hskip', hrest⟩
    · have hcomplete := hskip.1
      unfold CompleteAt at hcomplete
      exact ⟨fun h => hskip.2.1 h.2, fun hcut => by have := hcut.2.1; omega⟩
    · obtain rfl : q'' = q := hskip'.2.2.trans hskip.2.2.symm
      exact hnone q' hrest

theorem leads_of_not_complete {p q : Nat} (h : ¬ CompleteAt bs p) (hleads : Leads tag bs p q) :
    q = p := by
  rcases hleads.cases_head with rfl | ⟨q', hskip, -⟩
  · rfl
  · exact absurd hskip.1 h

theorem missed_of_end {p : Nat} {bs' : ByteStream} (hpos : bs'.pos = origPos) (h : bs.size ≤ p) :
    Outcome tag bs origPos p (none, bs') := by
  refine .missed hpos fun q hleads => ?_
  have hcomplete : ¬ CompleteAt bs p := by
    unfold CompleteAt
    omega
  obtain rfl := leads_of_not_complete hcomplete hleads
  exact ⟨fun h => hcomplete h.1, fun hcut => absurd hcut.1 (Nat.not_lt_of_le h)⟩

theorem findChunkLoop_spec (hok : bs.ok = true) {fuel : Nat} {p : Nat} (h : bs.size < p + fuel) :
    FindEnds tag origPos { bs with pos := p }
        (findChunkLoop tag origPos fuel { bs with pos := p }) ∧
      Outcome tag bs origPos p (findChunkLoop tag origPos fuel { bs with pos := p }) := by
  induction fuel generalizing p with
  | zero =>
    have hend : bs.size ≤ p := Nat.le_of_lt h
    exact ⟨.ended (findTurn_end hend), missed_of_end rfl hend⟩
  | succ fuel ih =>
    rw [findChunkLoop_succ]
    by_cases hend : bs.size ≤ p
    · have hturn : findTurn tag origPos { bs with pos := p } = _ := findTurn_end hend
      rw [hturn]
      exact ⟨.ended hturn, missed_of_end rfl hend⟩
    · by_cases hheader : p + 8 ≤ bs.size
      · have hturn : findTurn tag origPos { bs with pos := p } =
            if ¬ CompleteAt bs p then .ended none { bs with pos := origPos }
            else if tagAt bs p = tag then .ended (some (sizeAt bs p)) { bs with pos := p + 8 }
            else .next { bs with pos := p + 8 + sizeAt bs p } := findTurn_header hok hheader
        by_cases hcomplete : CompleteAt bs p
        · rw [if_neg (not_not_intro hcomplete)] at hturn
          by_cases htag : tagAt bs p = tag
          · rw [if_pos htag] at hturn
            rw [hturn]
            exact ⟨.ended hturn, .complete .refl hcomplete htag⟩
          · rw [if_neg htag] at hturn
            rw [hturn]
            obtain ⟨hends, hout⟩ := ih (p := p + 8 + sizeAt bs p) (by omega)
            exact ⟨.next hturn hends, hout.skip ⟨hcomplete, htag, rfl⟩⟩
        · rw [if_pos hcomplete] at hturn
          rw [hturn]
          refine ⟨.ended hturn, .missed rfl fun q hleads => ?_⟩
          obtain rfl := leads_of_not_complete hcomplete hleads
          exact ⟨fun h => hcomplete h.1, fun hcut => absurd hcut.2.1 (Nat.not_lt_of_le hheader)⟩
      · have hlt : p < bs.size := Nat.lt_of_not_le hend
        have hcut : bs.size < p + 8 := Nat.lt_of_not_le hheader
        have hok' : ({ bs with pos := p } : ByteStream).ok = true := hok
        obtain ⟨bs', hfail, hturn⟩ : ∃ bs', bs'.ok = false ∧
            findTurn tag origPos { bs with pos := p } = if cutTag bs p =
              tag then .ended (some 0) bs' else .next bs' :=
          findTurn_cut hok' hlt hcut
        by_cases htag : cutTag bs p = tag
        · rw [if_pos htag] at hturn
          rw [hturn]
          exact ⟨.ended hturn, .cut .refl ⟨hlt, hcut, htag⟩⟩
        · -- the stream is not in order any more, so that the next turn is the last one
          rw [if_neg htag] at hturn
          rw [hturn]
          simp only [findChunkLoop_not_ok tag origPos bs' hfail]
          refine ⟨.next hturn (.ended (findTurn_not_ok hfail)), .missed rfl fun q hleads => ?_⟩
          have hcomplete : ¬ CompleteAt bs p := by
            unfold CompleteAt
            omega
          obtain rfl := leads_of_not_complete hcomplete hleads
          exact ⟨fun h => hcomplete h.1, fun hmatch => htag hmatch.2.2⟩

theorem findChunk_outcome (hok : bs.ok = true) :
    FindEnds tag bs.pos bs (findChunk bs tag) ∧ Outcome tag bs bs.pos bs.pos (findChunk bs tag) :=
  findChunkLoop_spec hok (by omega)

theorem skips_rightUnique : Relator.RightUnique (Skips tag bs) :=
  fun _ _ _ h h' => h.2.2.trans h'.2.2.symm

theorem leads_to_last {p q q' : Nat} (hq : Leads tag bs p q) (hlast : ∀ r, ¬ Skips tag bs q r)
    (hq' : Leads tag bs p q') : Leads tag bs q' q := by
  rcases hq.total_of_right_unique skips_rightUnique hq' with h | h
  · rcases h.cases_head with rfl | ⟨r, hskip, -⟩
    · exact .refl
    · exact absurd hskip (hlast r)
  · exact h

theorem CutMatch.not_skips {q r : Nat} (h : CutMatch tag bs q) : ¬ Skips tag bs q r := by
  intro hskip
  have hcomplete := hskip.1
  unfold CompleteAt at hcomplete
  have hcut := h.2.1
  omega

theorem CutMatch.not_leads {p q q' : Nat} (hcut : CutMatch tag bs q) (hq : Leads tag bs p q)
    (hq' : Leads tag bs p q') (hcomplete : CompleteAt bs q') (htag : tagAt bs q' = tag) : False := by
  rcases (leads_to_last hq (fun _ => hcut.not_skips) hq').cases_head with rfl | ⟨r, hskip, -⟩
  · have hlt := hcut.2.1
    unfold CompleteAt at hcomplete
    omega
  · exact hskip.2.1 htag

/-- The search for a chunk ends at every byte string and start position.  It finds the first
complete chunk with the tag among the complete chunks ahead, or says that there is none, exactly if
no header that is cut off follows on complete chunks with other tags and begins with the tag. -/
theorem findsRight_iff (data tag : List UInt8) (pos : Nat) :
    FindsRight tag { data, size := data.length, pos } ↔
      ∀ p, Leads tag { data, size := data.length, pos } pos p →
        ¬ CutMatch tag { data, size := data.length, pos } p := by
  generalize hbs : ({ data, size := data.length, pos } : ByteStream) = bs
  have hok : bs.ok = true := by rw [← hbs]
  obtain rfl : bs.pos = pos := by rw [← hbs]
  obtain ⟨hends, hout⟩ : FindEnds tag bs.pos bs (findChunk bs tag) ∧ _ := findChunk_outcome hok
  constructor
  · intro hright p hleads hcut
    generalize hr : findChunk bs tag = r at hout
    cases hout with
    | complete hleads' hcomplete htag => exact hcut.not_leads hleads hleads' hcomplete htag
    | cut hleads' hcut' =>
      obtain ⟨q, hq, hcomplete, htag, -, -⟩ := hright.found _ _ hr
      exact hcut.not_leads hleads hq hcomplete htag
    | missed _ hnone => exact (hnone p hleads).2 hcut
  · intro hno
    refine ⟨hends, fun size bs' hr => ?_, fun bs' hr => ?_⟩
    · rw [hr] at hout
      cases hout with
      | complete hleads hcomplete htag => exact ⟨_, hleads, hcomplete, htag, rfl, rfl⟩
      | cut hleads hcut => exact absurd hcut (hno _ hleads)
    · rw [hr] at hout
      cases hout with
      | missed hpos hnone =>
        exact ⟨hpos, fun p hleads hcomplete htag => (hnone p hleads).1 ⟨hcomplete, htag⟩⟩

/-- The four octets `DESC` alone are found as a chunk of no length. -/
theorem desc_alone_found :
    findChunk { data := [68, 69, 83, 67], size := 4 } (Ddf.tag "DESC") =
        (some 0, { data := [68, 69, 83, 67], size := 4, pos := 4, ok := false }) ∧
      ¬ FindsRight (Ddf.tag "DESC") { data := [68, 69, 83, 67], size := 4 } := by
  have hfound : findChunk { data := [68, 69, 83, 67], size := 4 } (Ddf.tag "DESC") =
      (some 0, { data := [68, 69, 83, 67], size := 4, pos := 4, ok := false }) := by decide
  refine ⟨hfound, fun hright => ?_⟩
  obtain ⟨p, -, hcomplete, -⟩ := hright.found _ _ hfound
  unfold CompleteAt at hcomplete
  exact absurd hcomplete (by simp only; omega)

end Ddf
end DeconzRest

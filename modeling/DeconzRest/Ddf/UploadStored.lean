import DeconzRest.Ddf.DescriptorText
import DeconzRest.Ddf.UploadParts

/-!
# Uploads that come back

A bundle in a well-formed request is stored as it is, and is found again under its bundle hash
(`upload_comes_back`).  The boundary of the request has to be the rest of the `Content-Type` header,
without quotation marks, the body at most 512000 bytes long, and no file of another name in the
directory may hold another bundle with the same hash.
-/

namespace DeconzRest
namespace Ddf

open List Option

open Json (ascii)

variable {sha256 : List UInt8 → List UInt8}

/-! ## The size of a bundle -/

theorem getBytes_getLast : ∀ {n : Nat} {bs : ByteStream}, bs.readable (n + 1) = false →
    (bs.getBytes (n + 1)).1.getLast? = some 0
  | 0, bs, h => by
    show [(bs.getU8).1].getLast? = some 0
    unfold ByteStream.getU8
    rw [if_neg (by rw [h]; exact Bool.false_ne_true)]
    rfl
  | n + 1, bs, h => by
    have hrest : (bs.skip 1).readable (n + 1) = false := by
      rw [ByteStream.readable_skip, Nat.add_comm]
      exact h
    have hlast := getBytes_getLast hrest
    show ((bs.getU8).1 :: ((bs.skip 1).getBytes (n + 1)).1).getLast? = some 0
    rw [List.getLast?_cons, hlast]
    rfl

/-- Where a chunk is found, with its header read, or at the end of the stream with its tag only -/
structure FoundAt (bs bs' : ByteStream) (sz : Nat) : Prop where
  size : bs'.size = bs.size
  within : bs'.pos + sz ≤ bs'.size
  header : bs.pos + 8 ≤ bs'.pos ∨ bs'.ok = false ∧ sz = 0 ∧ bs.pos + 4 ≤ bs'.pos

theorem reads_header (bs : ByteStream) : ByteStream.Reads bs (readHeader bs).2 :=
  (ByteStream.reads_getBytes 4 bs).trans (ByteStream.reads_skip _ 4)

theorem readHeader_part {bs : ByteStream} (hok : bs.ok = true) (h : bs.readable 8 = false) :
    (readHeader bs).1.1.getLast? = some 0 ∨ (readHeader bs).1.2 = 0 ∧ bs.pos + 4 ≤
      (readHeader bs).2.pos := by
  by_cases htag : bs.readable 4 = true
  · right
    have hstream := ByteStream.getBytes_of_readable 4 bs htag
    have hbound := ByteStream.readable_iff.mp htag
    have hshort : ¬ bs.pos + 4 + 4 ≤ bs.size := fun hle =>
      absurd (ByteStream.readable_iff.mpr ⟨hok, hle⟩) (by rw [h]; exact Bool.false_ne_true)
    have hnumber := @ByteStream.getU32_eq { bs with pos := bs.pos + 4 } hok
    rw [if_neg (by exact hshort)] at hnumber
    unfold readHeader
    simp only [hstream, hnumber]
    exact ⟨trivial, Nat.le_refl _⟩
  · left
    exact getBytes_getLast (Bool.eq_false_iff.mpr htag)

theorem findChunkLoop_foundAt {tag : List UInt8} (htag : tag.getLast? ≠ some 0) {origPos : Nat} :
    ∀ {fuel : Nat} {bs bs' : ByteStream} {sz : Nat},
    findChunkLoop tag origPos fuel bs = (some sz, bs') → FoundAt bs bs' sz
  | 0, _, _, _, h => absurd h (by simp [findChunkLoop])
  | fuel + 1, bs, bs', sz, h => by
    unfold findChunkLoop at h
    split at h
    · rename_i hmore
      have hreads := reads_header bs
      have hpart := readHeader_part hmore.2
      have hwhole : bs.readable 8 = true → bs.pos + 8 ≤ (readHeader bs).2.pos := by
        intro hread
        rw [(readHeader_of_readable hread).2]
      have hbroken : bs.readable 8 = false → (readHeader bs).2.ok = false := readHeader_not_ok
      generalize readHeader bs = header at h hreads hpart hwhole hbroken
      obtain ⟨⟨fourcc, n⟩, bs1⟩ := header
      simp only at h hreads hpart hwhole hbroken
      split at h
      · cases h
      · rename_i hfits
        split at h
        · rename_i htagged
          cases h
          refine ⟨hreads.size, by omega, ?_⟩
          cases hread : bs.readable 8 with
          | true => exact .inl (hwhole hread)
          | false =>
            obtain ⟨hzero, hpos⟩ := (hpart hread).resolve_left (by rw [htagged]; exact htag)
            exact .inr ⟨hbroken hread, hzero, hpos⟩
        · have hrest := findChunkLoop_foundAt htag h
          have hle := hreads.pos_le
          refine ⟨hrest.size.trans hreads.size, hrest.within, ?_⟩
          rcases hrest.header with hpos | ⟨hok, hzero, hpos⟩
          · exact .inl (by simp only at hpos; omega)
          · exact .inr ⟨hok, hzero, by simp only at hpos; omega⟩
    · cases h

theorem ok_of_findChunk {bs bs' : ByteStream} {tag : List UInt8} {sz : Nat}
    (h : findChunk bs tag = (some sz, bs')) : bs.pos < bs.size ∧ bs.ok = true := by
  unfold findChunk findChunkLoop at h
  split at h
  · rename_i hmore
    exact hmore
  · cases h

/-- **A bundle has its three headers**, of the last one at least the tag. -/
theorem bundle_length {file hash : List UInt8} (h : isValidDDFBundle sha256 file = some hash) :
    20 ≤ file.length := by
  unfold isValidDDFBundle ddfbContent descContent at h
  split at h
  · cases h
  · rename_i bsDDFB hddfb
    split at hddfb
    · cases hddfb
    · rename_i n bs1 hriff
      split at hddfb
      · cases hddfb
      · rename_i chunkSize bs2 hchunk
        obtain rfl := some.inj hddfb
        split at h
        · cases h
        · rename_i desc hdesc
          split at hdesc
          · cases hdesc
          · rename_i size bs3 hfound
            have hfirst := findChunkLoop_foundAt (by decide) hriff
            have hsecond := findChunkLoop_foundAt (by decide) hchunk
            have hthird := findChunkLoop_foundAt (by decide) hfound
            have hok := (ok_of_findChunk hchunk).2
            -- the content of the second chunk is not empty, and so its header is there
            have hinside : 0 < chunkSize := (ok_of_findChunk hfound).1
            have hsize : bs2.size = file.length := hsecond.size.trans hfirst.size
            have hcontent : bs3.size = chunkSize := hthird.size
            have hwithin := hsecond.within
            have hlast := hthird.within
            have hstart : 8 ≤ bs1.pos := by
              rcases hfirst.header with hpos | ⟨hno, -, -⟩
              · exact hpos
              · rw [hok] at hno
                cases hno
            have hnext : 16 ≤ bs2.pos := by
              rcases hsecond.header with hpos | ⟨-, hzero, -⟩
              · omega
              · omega
            have hdesc : 4 ≤ bs3.pos := by
              rcases hthird.header with hpos | ⟨-, -, hpos⟩
              · have hpos' : 0 + 8 ≤ bs3.pos := hpos
                omega
              · have hpos' : 0 + 4 ≤ bs3.pos := hpos
                omega
            omega

theorem mem_deleteFile {name : List UInt8} {dir : List DirEntry} {e : DirEntry}
    (h : e ∈ deleteFile name dir) : e ∈ dir ∧ (e.name = name → e.content = none) := by
  unfold deleteFile at h
  split at h
  · obtain ⟨hmem, hname⟩ := mem_filter.mp h
    exact ⟨hmem, fun heq => absurd heq (of_decide_eq_true hname)⟩
  · rename_i hnone
    refine ⟨h, fun hname => ?_⟩
    by_contra hsome
    refine hnone (any_eq_true.mpr ⟨e, h, decide_eq_true ⟨hname, ?_⟩⟩)
    exact isSome_iff_ne_none.mpr hsome

theorem mem_storeBundle {id bundle : List UInt8} {dir : List DirEntry} {e : DirEntry}
    (h : e ∈ storeBundle id bundle dir) :
    e = { name := ddbName id, content := some bundle } ∨ e ∈ dir ∧ e.name ≠ ddbName id ∧
      (e.name = ddfName id → e.content = none) := by
  unfold storeBundle writeFile at h
  rcases mem_append.mp h with hold | hnew
  · obtain ⟨hmem, hname⟩ := mem_filter.mp hold
    obtain ⟨hfirst, -⟩ := mem_deleteFile hmem
    obtain ⟨hdir, hddf⟩ := mem_deleteFile hfirst
    exact .inr ⟨hdir, of_decide_eq_true hname, hddf⟩
  · exact .inl (mem_singleton.mp hnew)

theorem bundle_mem_storeBundle (id bundle : List UInt8) (dir : List DirEntry) :
    { name := ddbName id, content := some bundle } ∈ storeBundle id bundle dir :=
  mem_append_right _ (mem_singleton_self _)

/-! ## Its lookup -/

theorem lowerHexDigit_hexDigit : ∀ n < 16, lowerHexDigit (binToHexAscii.hexDigit n) =
    some (binToHexAscii.hexDigit n) := by
  decide

theorem mapM_lowerHexDigit {l : List UInt8} (h : ∀ x ∈ l, lowerHexDigit x = some x) :
    l.mapM lowerHexDigit = some l := by
  induction l with
  | nil => rfl
  | cons x l ih =>
    obtain ⟨hx, hl⟩ := forall_mem_cons.mp h
    rw [mapM_cons, hx, ih hl]
    rfl

theorem lowerHexDigit_binToHexAscii {bytes : List UInt8} :
    ∀ x ∈ binToHexAscii bytes, lowerHexDigit x = some x := by
  intro x hx
  obtain ⟨b, -, hb⟩ := mem_flatMap.mp hx
  have hlt := b.toNat_lt
  simp only [mem_cons, not_mem_nil, or_false] at hb
  rcases hb with rfl | rfl
  · exact lowerHexDigit_hexDigit _ (by omega)
  · exact lowerHexDigit_hexDigit _ (by omega)

theorem sanitize_id (hsha : ∀ m, (sha256 m).length = 32) {file hash : List UInt8}
    (h : isValidDDFBundle sha256 file = some hash) :
    sanitizeBundleHashString (binToHexAscii hash) = some (binToHexAscii hash) := by
  have hlength : hash.length = 32 := by
    unfold isValidDDFBundle at h
    split at h
    · cases h
    · split at h
      · cases h
      · rw [← some.inj h]
        exact hsha _
  unfold sanitizeBundleHashString
  rw [if_pos (by rw [length_binToHexAscii, hlength]),
    mapM_lowerHexDigit lowerHexDigit_binToHexAscii]

theorem holdsHash_stored {bundle hash : List UInt8}
    (h : isValidDDFBundle sha256 bundle = some hash) (hshort : bundle.length ≤ maxBundleSize) :
    holdsHash sha256 (binToHexAscii hash)
      { name := ddbName (binToHexAscii hash), content := some bundle } = some bundle := by
  have hlong := bundle_length h
  have hlisted : DirEntry.listed
      { name := ddbName (binToHexAscii hash), content := some bundle } = true := by
    have hname : (findFirst (ddbName (binToHexAscii hash)) (ascii ".ddb")).isSome = true :=
      isSome_findFirst_iff.mpr (suffix_append _ _).isInfix
    unfold DirEntry.listed
    simp only
    rw [hname, Bool.or_true, Bool.and_true]
  unfold holdsHash
  rw [if_pos hlisted]
  simp only
  rw [if_pos ⟨by omega, hshort⟩, h]
  simp only
  exact if_pos trivial

theorem findSome?_eq {α β : Type*} {f : α → Option β} {y : β} : ∀ {l : List α},
    (∃ a ∈ l, f a = some y) → (∀ a ∈ l, ∀ z, f a = some z → z = y) → l.findSome? f = some y
  | [], h, _ => absurd h (by simp)
  | a :: l, h, hall => by
    obtain ⟨hhead, htail⟩ := forall_mem_cons.mp hall
    cases ha : f a with
    | some z => rw [List.findSome?_cons_of_isSome (by rw [ha]; rfl), ha, hhead z ha]
    | none =>
      rw [List.findSome?_cons_of_isNone (by rw [ha]; rfl)]
      refine findSome?_eq ?_ htail
      obtain ⟨c, hc, hfound⟩ := h
      rcases mem_cons.mp hc with rfl | hmem
      · rw [ha] at hfound
        cases hfound
      · exact ⟨c, hmem, hfound⟩

/-- No other file of the directory holds another bundle with the hash: those of the two names under
which bundles are stored are replaced. -/
def NoOther (sha256 : List UInt8 → List UInt8) (bundle hash : List UInt8) (dir : List DirEntry) :
    Prop :=
  ∀ e ∈ dir, e.name ≠ ddbName (binToHexAscii hash) → e.name ≠ ddfName (binToHexAscii hash) →
    ∀ content, holdsHash sha256 (binToHexAscii hash) e = some content → content = bundle

theorem getBundle_stored (hsha : ∀ m, (sha256 m).length = 32) {bundle hash : List UInt8}
    (h : isValidDDFBundle sha256 bundle = some hash) (hshort : bundle.length ≤ maxBundleSize)
    {dir : List DirEntry} (hother : NoOther sha256 bundle hash dir) {read : List DirEntry}
    (hread : read.Perm (storeBundle (binToHexAscii hash) bundle dir))
    (system : Option (List DirEntry)) :
    getBundle sha256 ⟨some read, system⟩ (binToHexAscii hash) = .ok bundle := by
  have hstored := holdsHash_stored h hshort
  have hfirst : read.findSome? (holdsHash sha256 (binToHexAscii hash)) = some bundle := by
    refine findSome?_eq ⟨_, hread.mem_iff.mpr (bundle_mem_storeBundle _ _ _), hstored⟩ ?_
    intro e he content hholds
    rcases mem_storeBundle (hread.mem_iff.mp he) with rfl | ⟨hdir, hname, hddf⟩
    · rw [hstored] at hholds
      exact (some.inj hholds).symm
    · refine hother e hdir hname (fun heq => ?_) content hholds
      -- a file of the older name that is still there cannot be opened
      unfold holdsHash at hholds
      rw [hddf heq] at hholds
      split at hholds <;> cases hholds
  unfold getBundle
  rw [sanitize_id hsha h]
  simp only [getD_some]
  rw [List.findSome?_append, hfirst]
  rfl

/-- **A bundle that is uploaded comes back**: the body is at most 512000 bytes long, the boundary is
not quoted and the last parameter of the header, and no file of another name holds another bundle
with the same hash. -/
theorem upload_comes_back (hsha : ∀ m, (sha256 m).length = 32) {r : MultipartRequest}
    (h : r.WellFormed) (hquoted : r.quoted = false) (hparams : r.moreParams = [])
    (hsize : r.body.length ≤ 512000) {hash : List UInt8}
    (hvalid : isValidDDFBundle sha256 r.bundle = some hash) {dir : List DirEntry}
    (hother : NoOther sha256 r.bundle hash dir) (system : Option (List DirEntry)) :
    ComesBack sha256 r dir system := by
  have hlong := bundle_length hvalid
  have hbody : r.body.length = r.front.length +
      (r.bundle.length + (2 + (2 + (r.boundary.length + (2 + r.epilogue.length))))) := by
    rw [r.body_eq, MultipartRequest.tail]
    simp only [List.length_append, crlf_length, dashes_length]
  have hfront := r.front_length_le
  have hmax : maxBundleSize = 2 ^ 20 := rfl
  have hboundary : boundaryOf r.contentType = some r.boundary := by
    rw [h.boundaryOf_contentType, hquoted, hparams, if_neg Bool.false_ne_true, append_nil]
  have hpost : postBundles sha256 r.contentType r.body dir =
      (.stored (binToHexAscii hash), storeBundle (binToHexAscii hash) r.bundle dir) := by
    unfold postBundles
    rw [if_neg (by omega), if_neg (by omega)]
    unfold postBody
    rw [hboundary]
    simp only
    rw [h.cutBundle_body (by omega)]
    simp only
    rw [hvalid]
  refine ⟨hash, hvalid, ?_, ?_, ?_⟩
  · rw [hpost]
  · rw [hpost]
    exact bundle_mem_storeBundle _ _ _
  · rw [hpost]
    intro read hread
    exact getBundle_stored hsha hvalid (by omega) hother hread system

def lampRequest : MultipartRequest where
  boundary := ascii "Y8hknTum"
  lines := [ascii "Content-Disposition: form-data; name=\"data\""]
  bundle := lampFile

theorem lampRequest_wellFormed : lampRequest.WellFormed where
  params := by decide +kernel
  moreParams := by decide +kernel
  boundary := by decide +kernel
  bundle := by decide +kernel
  preamble := ⟨by decide +kernel, .inl rfl⟩
  padding := by decide +kernel
  lines := by decide +kernel

/-- The lamp with a chunk behind the `DDFB` chunk -/
def signedFile : List UInt8 := tag "RIFF" ++ [62, 0, 0, 0] ++ lampDdfb ++ tag "SIGN" ++ [1, 0, 0, 0, 7]

/-- The file of an older upload is replaced. -/
theorem upload_comes_back_lamp : ComesBack lampSha256 lampRequest
    [{ name := ddbName (binToHexAscii (lampSha256 lampDdfb)), content := some signedFile }]
    none :=
  upload_comes_back lampSha256_length lampRequest_wellFormed rfl rfl (by decide +kernel)
    (by decide +kernel : isValidDDFBundle lampSha256 lampFile = some (lampSha256 lampDdfb))
    (fun e he hname => absurd (by rw [mem_singleton.mp he]) hname) none

def quotedRequest : MultipartRequest := { lampRequest with quoted := true }

/-- The quotation marks are taken as part of the boundary. -/
theorem quoted_badRequest :
    quotedRequest.WellFormed ∧ ¬ ComesBack lampSha256 quotedRequest [] none := by
  refine ⟨{ lampRequest_wellFormed with params := by decide +kernel }, ?_⟩
  rintro ⟨hash, -, hstored, -⟩
  have hbad : (postBundles lampSha256 quotedRequest.contentType quotedRequest.body []).1 =
      .badRequest := by decide +kernel
  rw [hbad] at hstored
  cases hstored

end Ddf
end DeconzRest

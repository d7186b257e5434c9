import DeconzRest.Ddf.Upload
import Mathlib.Data.List.GetD

/-!
# Where an upload is cut

The three searches of `REST_DDF_PostBundles` in a body with one part.  A boundary is found behind
the two dashes in front of it, or with them where it is nothing but dashes; in both cases the
dashes and the line end that are trimmed are those of the delimiter.
-/

namespace DeconzRest
namespace Ddf

open List Option

open Json (ascii)

variable {b : List UInt8}

/-! ## Boundaries -/

theorem forall_eq_of_prefix_cons {c : UInt8} {rest : List UInt8} :
    ∀ {b : List UInt8}, b <+: c :: (b ++ rest) → ∀ x ∈ b, x = c := by
  intro b
  induction h : b.length generalizing b with
  | zero =>
    intro _ x hx
    rw [length_eq_zero_iff.mp h] at hx
    cases hx
  | succ n ih =>
    intro hprefix
    cases b with
    | nil => cases h
    | cons d b =>
      obtain ⟨rfl, htail⟩ := cons_prefix_cons.mp hprefix
      rw [length_cons, Nat.succ_inj] at h
      have hshort : b <+: d :: b := by
        refine prefix_of_prefix_length_le htail ?_ (Nat.le_succ _)
        exact prefix_append (d :: b) rest
      refine forall_mem_cons.mpr ⟨rfl, ih h ?_⟩
      exact hshort.trans (prefix_append (d :: b) rest)

theorem prefix_of_dashes (h : ∀ x ∈ b, x = 0x2D) (rest : List UInt8) :
    b <+: ascii "--" ++ (b ++ rest) := by
  have hb : b = List.replicate b.length 0x2D := eq_replicate_of_mem h
  have hdashes : ascii "--" ++ b = List.replicate (b.length + 2) 0x2D := by
    rw [hb, length_replicate]
    rfl
  rw [← append_assoc, hdashes, hb, length_replicate]
  refine List.IsPrefix.trans ⟨List.replicate 2 0x2D, ?_⟩ (prefix_append _ _)
  exact replicate_append_replicate

theorem prefix_of_not_mem {c : UInt8} (hc : c ∉ b) (front back : List UInt8)
    (h : b <+: front ++ c :: back) : b <+: front := by
  rcases Nat.lt_or_ge front.length b.length with hlt | hle
  · have hmore : front ++ [c] <+: b := by
      refine prefix_of_prefix_length_le ?_ h (by rw [List.length_append]; exact hlt)
      exact ⟨back, by simp⟩
    exact absurd (hmore.subset (by simp)) hc
  · exact prefix_of_prefix_length_le h (prefix_append _ _) hle

def LineStart (text sep : List UInt8) : Prop := sep = crlf ∨ text = [] ∧ sep = []

theorem not_prefix_before {text sep : List UInt8} (hstart : LineStart text sep) (hne : b ≠ [])
    (hcr : 0x0D ∉ b) (hlf : 0x0A ∉ b) (hfree : ¬ b <:+: text) (back : List UInt8) {i : Nat}
    (hi : i < (text ++ sep).length) : ¬ b <+: (text ++ sep ++ back).drop i := by
  rcases hstart with rfl | ⟨rfl, rfl⟩
  · intro hprefix
    have hlength : (text ++ crlf).length = text.length + 2 := List.length_append
    rw [append_assoc] at hprefix
    rcases Nat.lt_or_ge text.length i with hlt | hle
    · have hone : i = text.length + 1 := by omega
      rw [hone, ← drop_drop, drop_left] at hprefix
      have hnil := prefix_of_not_mem hlf [] back hprefix
      exact hne (prefix_nil.mp hnil)
    · rw [drop_append_of_le_length hle] at hprefix
      have hinside := prefix_of_not_mem hcr _ (0x0A :: back) hprefix
      exact hfree (hinside.isInfix.trans (drop_suffix i text).isInfix)
  · exact absurd hi (Nat.not_lt_zero _)

/-- **A boundary is found at its delimiter**, with the dashes where it has only dashes, and behind
them otherwise. -/
theorem findFirst_delimiter {text sep : List UInt8} (hstart : LineStart text sep)
    (hne : b ≠ []) (hcr : 0x0D ∉ b) (hlf : 0x0A ∉ b) (hfree : ¬ b <:+: text) (back : List UInt8) :
    ∃ o, (o = 0 ∨ o = 2) ∧ findFirst (text ++ sep ++ (ascii "--" ++ (b ++ back))) b =
      some ((text ++ sep).length + o) := by
  have hdrop (o : Nat) : (text ++ sep ++ (ascii "--" ++ (b ++ back))).drop
      ((text ++ sep).length + o) = (ascii "--" ++ (b ++ back)).drop o := by
    rw [← drop_drop, drop_left]
  have hthere : b <+: (text ++ sep ++ (ascii "--" ++ (b ++ back))).drop
      ((text ++ sep).length + 2) := by
    rw [hdrop]
    exact prefix_append b back
  obtain ⟨i, hi⟩ := isSome_iff_exists.mp
    (isSome_findFirst_iff.mpr (hthere.isInfix.trans (drop_suffix _ _).isInfix))
  obtain ⟨-, hfound, hfirst⟩ := findFirst_eq_some_iff.mp hi
  have hupper : i ≤ (text ++ sep).length + 2 :=
    Nat.not_lt.mp fun hlt => hfirst _ hlt hthere
  have hlower : (text ++ sep).length ≤ i :=
    Nat.not_lt.mp fun hlt => not_prefix_before hstart hne hcr hlf hfree _ hlt hfound
  obtain ⟨o, rfl⟩ := Nat.exists_eq_add_of_le hlower
  refine ⟨o, ?_, hi⟩
  -- one octet too early is too late for a boundary of dashes
  by_contra hother
  have hone : o = 1 := by omega
  rw [hone, hdrop] at hfound
  refine hfirst ((text ++ sep).length + 0) (by omega) ?_
  rw [hdrop]
  exact prefix_of_dashes (forall_eq_of_prefix_cons hfound) back

def linesText (lines : List (List UInt8)) : List UInt8 := lines.flatMap fun line => line ++ crlf

theorem findFirst_emptyLine {front : List UInt8} (h : 0x0D ∉ front) (text : List UInt8) :
    findFirst (front ++ text) (ascii "\r\n\r\n") =
      (findFirst text (ascii "\r\n\r\n")).map (· + front.length) :=
  findFirst_skip h text [0x0A, 0x0D, 0x0A]

theorem findFirst_line {line : List UInt8} (hne : line ≠ []) (hline : 0x0D ∉ line)
    (text : List UInt8) : findFirst (crlf ++ (line ++ text)) (ascii "\r\n\r\n") =
      (findFirst (line ++ text) (ascii "\r\n\r\n")).map (· + 2) := by
  cases line with
  | nil => exact absurd rfl hne
  | cons c line =>
    have hfirst : ¬ ascii "\r\n\r\n" <+: 0x0D :: 0x0A :: (c :: line ++ text) := by
      intro hprefix
      have htail := (cons_prefix_cons.mp (cons_prefix_cons.mp hprefix).2).2
      have hc : 0x0D = c := (cons_prefix_cons.mp htail).1
      exact hline (hc ▸ mem_cons_self)
    have hsecond : ¬ ascii "\r\n\r\n" <+: 0x0A :: (c :: line ++ text) :=
      fun hprefix => absurd (cons_prefix_cons.mp hprefix).1 (by decide)
    show findFirst (0x0D :: 0x0A :: (c :: line ++ text)) _ = _
    rw [findFirst_cons_of_not hfirst, findFirst_cons_of_not hsecond, Option.map_map]
    rfl

/-- **The header of a part ends** at the first empty line. -/
theorem findFirst_header {lines : List (List UInt8)}
    (hlines : ∀ line ∈ lines, line ≠ [] ∧ 0x0D ∉ line) (back : List UInt8) :
    findFirst (crlf ++ (linesText lines ++ (crlf ++ back))) (ascii "\r\n\r\n") =
      some (linesText lines).length := by
  induction lines with
  | nil => exact findFirst_of_prefix (prefix_append (ascii "\r\n\r\n") back)
  | cons line lines ih =>
    obtain ⟨⟨hne, hline⟩, hrest⟩ := forall_mem_cons.mp hlines
    have hcons : linesText (line :: lines) = line ++ (crlf ++ linesText lines) := by
      unfold linesText
      rw [flatMap_cons, append_assoc]
    rw [hcons, append_assoc, findFirst_line hne hline, findFirst_emptyLine hline, append_assoc,
      ih hrest, map_some, map_some, List.length_append,
      List.length_append, show crlf.length = 2 from rfl]
    congr 1
    omega

/-! ## The bundle -/

theorem crlf_length : crlf.length = 2 := rfl

theorem dashes_length : (ascii "--").length = 2 := rfl

namespace MultipartRequest

variable {r : MultipartRequest}

def tail (r : MultipartRequest) : List UInt8 :=
  ascii "--" ++ (r.boundary ++ (ascii "--" ++ r.epilogue))

def front (r : MultipartRequest) : List UInt8 :=
  r.preamble ++ (ascii "--" ++ (r.boundary ++ r.header))

theorem body_eq (r : MultipartRequest) : r.body = r.front ++ (r.bundle ++ (crlf ++ r.tail)) := by
  unfold body front tail
  simp only [append_assoc]

theorem header_eq (r : MultipartRequest) :
    r.header = r.padding ++ (crlf ++ (linesText r.lines ++ crlf)) := by
  unfold header linesText
  simp only [append_assoc]

theorem WellFormed.no_lineEnd (h : r.WellFormed) : 0x0D ∉ r.boundary ∧ 0x0A ∉ r.boundary := by
  obtain ⟨-, -, hchars, -⟩ := h.boundary
  constructor
  · intro hmem
    exact absurd (hchars _ hmem) (by decide)
  · intro hmem
    exact absurd (hchars _ hmem) (by decide)

theorem WellFormed.find_first (h : r.WellFormed) (back : List UInt8) :
    ∃ o, (o = 0 ∨ o = 2) ∧ findFirst (r.preamble ++ (ascii "--" ++ (r.boundary ++ back)))
      r.boundary = some (r.preamble.length + o) := by
  obtain ⟨hcr, hlf⟩ := h.no_lineEnd
  obtain ⟨hfree, hnone | ⟨text, htext⟩⟩ := h.preamble
  · have hdelimiter := findFirst_delimiter (.inr ⟨rfl, rfl⟩) h.boundary.1 hcr hlf
      (show ¬ r.boundary <:+: [] by rwa [hnone] at hfree) back
    rwa [hnone]
  · have hinside : ¬ r.boundary <:+: text := by
      intro hin
      rw [htext] at hfree
      exact hfree (hin.trans (prefix_append _ _).isInfix)
    have hdelimiter := findFirst_delimiter (.inl rfl) h.boundary.1 hcr hlf hinside back
    rwa [htext]

theorem WellFormed.find_last (h : r.WellFormed) :
    ∃ o, (o = 0 ∨ o = 2) ∧ findFirst (r.bundle ++ (crlf ++ r.tail)) r.boundary =
      some (r.bundle.length + 2 + o) := by
  obtain ⟨hcr, hlf⟩ := h.no_lineEnd
  obtain ⟨o, ho, hfind⟩ := findFirst_delimiter (.inl rfl) h.boundary.1 hcr hlf h.bundle
    (ascii "--" ++ r.epilogue)
  refine ⟨o, ho, ?_⟩
  rw [List.length_append, crlf_length, append_assoc] at hfind
  exact hfind

theorem WellFormed.find_header (h : r.WellFormed) {o : Nat} (ho : o = 0 ∨ o = 2)
    (back : List UInt8) :
    findFirst ((r.front ++ back).drop (r.preamble.length + o)) (ascii "\r\n\r\n") =
      some (r.front.length - 4 - (r.preamble.length + o)) := by
  obtain ⟨hcr, -⟩ := h.no_lineEnd
  have hplain : 0x0D ∉ ascii "--" ++ (r.boundary ++ r.padding) := by
    simp only [mem_append, not_or]
    refine ⟨by decide, hcr, fun hmem => ?_⟩
    rcases h.padding _ hmem with habsurd | habsurd
    · exact absurd habsurd (by decide)
    · exact absurd habsurd (by decide)
  have hsplit : r.front ++ back = r.preamble ++ ((ascii "--" ++ (r.boundary ++ r.padding)) ++
      (crlf ++ (linesText r.lines ++ (crlf ++ back)))) := by
    unfold front
    rw [header_eq]
    simp only [append_assoc]
  have hlength : (ascii "--" ++ (r.boundary ++ r.padding)).length =
      2 + (r.boundary.length + r.padding.length) := by
    rw [List.length_append, List.length_append, dashes_length]
  have hfront : r.front.length = r.preamble.length + (2 + (r.boundary.length + (r.padding.length +
      (2 + ((linesText r.lines).length + 2))))) := by
    unfold front
    rw [header_eq]
    simp only [List.length_append, dashes_length, crlf_length]
  rw [hsplit, ← drop_drop, drop_left, drop_append_of_le_length (by omega),
    findFirst_emptyLine (fun hmem => hplain (mem_of_mem_drop hmem)),
    findFirst_header h.lines, map_some, length_drop, hlength, hfront]
  congr 1
  omega

theorem front_length_le (r : MultipartRequest) : r.preamble.length + 6 ≤ r.front.length := by
  unfold front
  rw [header_eq]
  simp only [List.length_append, dashes_length, crlf_length]
  omega

/-- **The three searches** find the bundle and a place in the delimiter behind it. -/
theorem WellFormed.findPart_body (h : r.WellFormed) : ∃ o, (o = 0 ∨ o = 2) ∧
    findPart r.body r.boundary =
      .ok (r.front.length, r.front.length + (r.bundle.length + 2 + o)) := by
  obtain ⟨o, ho, hfirst⟩ := h.find_first (r.header ++ (r.bundle ++ (crlf ++ r.tail)))
  obtain ⟨o', ho', hlast⟩ := h.find_last
  have hheader := h.find_header ho (r.bundle ++ (crlf ++ r.tail))
  have hlength := r.front_length_le
  have hbody : r.body = r.preamble ++ (ascii "--" ++ (r.boundary ++
      (r.header ++ (r.bundle ++ (crlf ++ r.tail))))) := by
    rw [body_eq, front]
    simp only [append_assoc]
  have hstart : findFrom r.body 0 r.boundary = some (r.preamble.length + o) := by
    unfold findFrom
    rw [drop_zero, hbody, hfirst, map_some, Nat.zero_add]
  have hempty : findFrom r.body (r.preamble.length + o) (ascii "\r\n\r\n") =
      some (r.front.length - 4) := by
    unfold findFrom
    rw [body_eq, hheader, map_some]
    congr 1
    omega
  have hend : findFrom r.body r.front.length r.boundary =
      some (r.front.length + (r.bundle.length + 2 + o')) := by
    unfold findFrom
    rw [body_eq, drop_left, hlast, map_some]
  refine ⟨o', ho', ?_⟩
  unfold findPart
  rw [hstart]
  simp only
  rw [hempty]
  simp only
  rw [show r.front.length - 4 + 4 = r.front.length by omega, hend]

theorem getD_behind (r : MultipartRequest) (k : Nat) :
    r.body.getD (r.front.length + (r.bundle.length + k)) 0 = (crlf ++ r.tail).getD k 0 := by
  rw [body_eq, ← append_assoc, ← Nat.add_assoc, ← List.length_append,
    getD_append_right _ _ _ _ (Nat.le_add_right _ _), Nat.add_sub_cancel_left]

/-- **What is trimmed is the delimiter's.** -/
theorem trimEnd_body (r : MultipartRequest) {o : Nat} (ho : o = 0 ∨ o = 2) :
    trimEnd r.body (r.front.length + (r.bundle.length + 2 + o)) = r.front.length +
      r.bundle.length := by
  have hbehind (k : Nat) (hk : k < 4) (n : Nat) (hn : n = r.front.length + (r.bundle.length + k)) :
      r.body.getD n 0 = [0x0D, 0x0A, 0x2D, 0x2D].getD k 0 := by
    rw [hn, getD_behind]
    exact getD_append [0x0D, 0x0A, 0x2D, 0x2D] _ 0 k hk
  have hline : endsIn r.body (r.front.length + (r.bundle.length + 2)) 0x0D 0x0A = true := by
    unfold endsIn
    rw [hbehind 1 (by decide) _ (by omega), hbehind 0 (by decide) _ (by omega)]
    rfl
  unfold trimEnd
  rcases ho with rfl | rfl
  · have hno : endsIn r.body (r.front.length + (r.bundle.length + 2 + 0)) 0x2D 0x2D = false := by
      unfold endsIn
      rw [hbehind 1 (by decide) _ (by omega)]
      rfl
    rw [hno]
    simp only [Bool.false_eq_true, if_false, Nat.add_zero]
    rw [hline, if_pos rfl]
    omega
  · have hyes : endsIn r.body (r.front.length + (r.bundle.length + 2 + 2)) 0x2D 0x2D = true := by
      unfold endsIn
      rw [hbehind 3 (by decide) _ (by omega), hbehind 2 (by decide) _ (by omega)]
      rfl
    rw [hyes]
    simp only [if_true]
    rw [show r.front.length + (r.bundle.length + 2 + 2) - 2 = r.front.length +
      (r.bundle.length + 2) by omega, hline, if_pos rfl]
    omega

/-- **The bundle is cut out of the body.** -/
theorem WellFormed.cutBundle_body (h : r.WellFormed) (hlong : 16 < r.bundle.length) :
    cutBundle r.body r.boundary = .ok r.bundle := by
  obtain ⟨o, ho, hpart⟩ := h.findPart_body
  unfold cutBundle
  rw [hpart]
  simp only
  rw [if_pos (by omega), r.trimEnd_body ho, Nat.add_sub_cancel_left, body_eq, drop_left, take_left]

/-- **The boundary is all that follows `boundary=`.** -/
theorem WellFormed.boundaryOf_contentType (h : r.WellFormed) : boundaryOf r.contentType =
    some ((if r.quoted then ascii "\"" ++ r.boundary ++ ascii "\"" else r.boundary) ++
      r.moreParams) := by
  generalize hvalue : (if r.quoted then ascii "\"" ++ r.boundary ++ ascii "\"" else r.boundary) ++
    r.moreParams = value
  have hheader : r.contentType = ascii "multipart/form-data" ++ r.params ++ ascii "boundary=" ++
      value := by
    rw [contentType, ← hvalue]
    simp only [append_assoc]
  have hprefix : (ascii "multipart/form-data").isPrefixOf r.contentType = true := by
    rw [List.isPrefixOf_iff_prefix, hheader]
    simp only [append_assoc]
    exact prefix_append _ _
  have hname : findFrom r.contentType 0 (ascii "boundary=") =
      some (ascii "multipart/form-data" ++ r.params).length := by
    unfold findFrom
    rw [drop_zero, hheader, findFirst_append_right value h.params, map_some, Nat.zero_add]
  have hdrop : r.contentType.drop (ascii "multipart/form-data" ++ r.params).length =
      ascii "boundary" ++ (ascii "=" ++ value) := by
    rw [hheader, append_assoc, drop_left]
    rfl
  have hequals : findFrom r.contentType (ascii "multipart/form-data" ++ r.params).length
      (ascii "=") = some ((ascii "multipart/form-data" ++ r.params).length + 8) := by
    unfold findFrom
    rw [hdrop, show ascii "=" = [0x3D] from rfl, findFirst_skip (by decide),
      findFirst_of_prefix (prefix_append [0x3D] value)]
    rfl
  unfold boundaryOf
  rw [if_pos hprefix, hname]
  simp only
  rw [hequals]
  simp only
  rw [Nat.add_assoc, ← drop_drop, hdrop]
  rfl

end MultipartRequest

end Ddf
end DeconzRest

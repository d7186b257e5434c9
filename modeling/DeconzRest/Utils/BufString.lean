import DeconzRest.Lib.Transition
import Mathlib.Algebra.Ring.Nat
import Mathlib.Data.List.Nodup

/-!
# The cache of fixed size strings

`BufString` keeps its length in its first byte, which is a `char`, and its text with a `NUL`
behind it in the others.  `BufStringCache::put` compares the string that it is given with the
stored ones, up to the `NUL`, and stores the first `length` characters when it is not among them.
The two differ for a caller whose string is longer than `length`.
-/

namespace DeconzRest.StringCache

open List

/-- A `NUL` terminated buffer, without the `NUL`. -/
structure CString where
  bytes : List UInt8
  no_nul : 0 ∉ bytes

/-- `BufString`, the first byte and those behind it. -/
structure BufString where
  length : UInt8 := 0
  chars : List UInt8 := [0]
deriving DecidableEq, Repr

/-- The template arguments of a cache, `Size` without its overhead and `NElements`, and whether
`char` is signed on the platform. -/
structure CacheKind where
  maxStringSize : Nat
  elements : Nat
  signedChar : Bool
  size_le : maxStringSize ≤ 255

/-- `BufStringCacheHandle`; `base` is the position of the string that it points to. -/
structure CacheHandle where
  base : Option Nat := none
  cacheId : Nat := 0
  index : Nat := 0
  maxSize : Nat := 0
deriving DecidableEq, Repr

/-- The strings of a cache that are in use, `m_size` of them. -/
structure BufStringCache where
  strings : List BufString := []
deriving DecidableEq, Repr

/-- The arguments of `put`. -/
structure CachePut where
  str : CString
  length : Nat
  length_le : length ≤ str.bytes.length

def CachePut.text (p : CachePut) : List UInt8 := p.str.bytes.take p.length

namespace BufString

/-- `BufString::size`: the `char` becomes a `size_t`. -/
def size (signedChar : Bool) (b : BufString) : Nat :=
  if signedChar = true ∧ 128 ≤ b.length.toNat then 2 ^ 64 - 256 + b.length.toNat
  else b.length.toNat

/-- `BufString::c_str`, up to the `NUL`. -/
def c_str (b : BufString) : List UInt8 := b.chars.takeWhile (· ≠ 0)

/-- `BufString::setString` -/
def setString (maxSize : Nat) (b : BufString) (str : List UInt8) (len : Nat) : BufString :=
  if maxSize < len then b else ⟨UInt8.ofNat len, str.take len ++ 0 :: b.chars.drop (len + 1)⟩

end BufString

namespace CacheKind

variable (k : CacheKind)

/-- `Size` -/
def size : Nat := k.maxStringSize + 2

/-- `BufStringCache::cacheId` -/
def cacheId : Nat := (k.size ^^^ k.elements) % 65536

/-- The handle of the string at `i`. -/
def handle (i : Nat) : CacheHandle := ⟨some i, k.cacheId, i % 65536, k.size⟩

/-- `BufStringCache::put` -/
def put (c : BufStringCache) (p : CachePut) : BufStringCache × CacheHandle :=
  if k.maxStringSize < p.length then (c, {})
  else
    match c.strings.findIdx? fun b => b.c_str == p.str.bytes with
    | some i => (c, k.handle i)
    | none =>
      if c.strings.length < k.elements then
        (⟨c.strings ++ [BufString.setString k.maxStringSize {} p.str.bytes p.length]⟩,
          k.handle c.strings.length)
      else (c, ⟨none, k.cacheId, k.elements % 65536, k.size⟩)

/-- `BufStringCache::get`; the strings that are not in use are empty. -/
def get (c : BufStringCache) (h : CacheHandle) : BufString :=
  if h.index < k.elements then c.strings[h.index]?.getD {} else c.strings[0]?.getD {}

end CacheKind

/-- `isValid` -/
def CacheHandle.isValid (h : CacheHandle) : Bool := h.cacheId != 0 && h.base.isSome

def BufStringCache.texts (c : BufStringCache) : List (List UInt8) :=
  c.strings.map BufString.c_str

/-- The string is the given text, by its length and by its characters. -/
def BufString.Is (signedChar : Bool) (b : BufString) (text : List UInt8) : Prop :=
  b.size signedChar = text.length ∧ b.c_str = text

namespace CacheKind

variable (k : CacheKind) (puts : List CachePut)

/-- The cache after the first `n` puts. -/
def cacheAt (n : Nat) : BufStringCache :=
  Transition.stateAt (fun c p => (k.put c p).1) {} puts n

/-- What the put number `n` returned. -/
def handleAt (n : Nat) (hn : n < puts.length) : CacheHandle := (k.put (k.cacheAt puts n) puts[n]).2

/-- A valid handle gives the string that was put, after all later puts as well, and equal strings
have equal handles. -/
structure Keeps : Prop where
  got : ∀ n (hn : n < puts.length), (k.handleAt puts n hn).isValid = true → ∀ m, n < m → m ≤
    puts.length → (k.get (k.cacheAt puts m) (k.handleAt puts n hn)).Is k.signedChar puts[n].text
  equal : ∀ n (hn : n < puts.length) m (hm : m < puts.length), (k.handleAt puts n hn).isValid =
    true → puts[n].text = puts[m].text → k.handleAt puts n hn = k.handleAt puts m hm

/-- The put does not meet a string that it is shorter than or that it is already stored under, and
what it stores can be told by its length and by its index. -/
structure Told (c : BufStringCache) (p : CachePut) : Prop where
  whole : p.str.bytes ∈ c.texts → p.length = p.str.bytes.length
  fresh : p.str.bytes ∉ c.texts → p.text ∉ c.texts
  stored : p.str.bytes ∉ c.texts → c.strings.length < k.elements →
    (k.signedChar = true → p.length < 128) ∧ c.strings.length < 65536

/-- What is asked of a put in the state before it; strings that are too long are not stored. -/
def Meets (c : BufStringCache) (p : CachePut) : Prop :=
  p.length ≤ k.maxStringSize → k.Told c p

end CacheKind

namespace BufString

variable {maxSize len : Nat} {str : List UInt8}

theorem c_str_setString (b : BufString) (hnul : 0 ∉ str) (hlen : len ≤ maxSize) :
    (b.setString maxSize str len).c_str = str.take len := by
  unfold setString c_str
  rw [if_neg (Nat.not_lt_of_le hlen), takeWhile_append_of_pos]
  · rw [takeWhile_cons_of_neg (by decide), append_nil]
  · intro a ha
    have hne : a ≠ 0 := fun h => hnul (h ▸ mem_of_mem_take ha)
    exact decide_eq_true hne

/-- The length is read back, unless it is above 127 and `char` is signed. -/
theorem size_setString_iff (b : BufString) {signedChar : Bool} (hlen : len ≤ maxSize)
    (hmax : maxSize ≤ 255) :
    (b.setString maxSize str len).size signedChar = len ↔ (signedChar = true → len < 128) := by
  have hlength : (UInt8.ofNat len).toNat = len := by
    rw [UInt8.toNat_ofNat']
    exact Nat.mod_eq_of_lt (by omega)
  unfold setString size
  rw [if_neg (Nat.not_lt_of_le hlen)]
  simp only [hlength]
  split
  · rename_i hbig
    constructor
    · intro heq
      omega
    · intro hsmall
      exact absurd (hsmall hbig.1) (Nat.not_lt_of_le hbig.2)
  · rename_i hsmall
    refine ⟨fun _ hsigned => ?_, fun _ => rfl⟩
    exact Nat.lt_of_not_le fun hle => hsmall ⟨hsigned, hle⟩

end BufString

namespace CachePut

theorem length_text (p : CachePut) : p.text.length = p.length :=
  length_take_of_le p.length_le

theorem text_eq_bytes {p : CachePut} (h : p.length = p.str.bytes.length) :
    p.text = p.str.bytes := by
  unfold text
  rw [h, take_length]

theorem is_setString_iff (p : CachePut) {signedChar : Bool} {maxSize : Nat}
    (hlen : p.length ≤ maxSize) (hmax : maxSize ≤ 255) :
    (BufString.setString maxSize {} p.str.bytes p.length).Is signedChar p.text ↔
      (signedChar = true → p.length < 128) := by
  unfold BufString.Is
  rw [p.length_text, BufString.size_setString_iff _ hlen hmax,
    BufString.c_str_setString _ p.str.no_nul hlen]
  exact and_iff_left rfl

end CachePut

namespace CacheKind

variable {k : CacheKind} {c : BufStringCache} {p : CachePut}

theorem put_of_long (h : k.maxStringSize < p.length) : k.put c p = (c, {}) := by
  unfold put
  rw [if_pos h]

theorem put_of_mem (hlen : p.length ≤ k.maxStringSize) (h : p.str.bytes ∈ c.texts) :
    ∃ i, ∃ hi : i < c.strings.length, c.strings[i].c_str = p.str.bytes ∧ k.put c p =
      (c, k.handle i) := by
  obtain ⟨b, hb, htext⟩ := mem_map.mp h
  have hsome : (c.strings.findIdx? fun b => b.c_str == p.str.bytes).isSome = true := by
    rw [List.findIdx?_isSome, any_eq_true]
    exact ⟨b, hb, beq_iff_eq.mpr htext⟩
  obtain ⟨i, hi⟩ := Option.isSome_iff_exists.mp hsome
  obtain ⟨hlt, hfound, -⟩ := List.findIdx?_eq_some_iff_getElem.mp hi
  refine ⟨i, hlt, beq_iff_eq.mp hfound, ?_⟩
  unfold put
  rw [if_neg (Nat.not_lt_of_le hlen), hi]

theorem put_of_not_mem (hlen : p.length ≤ k.maxStringSize) (h : p.str.bytes ∉ c.texts) :
    k.put c p = if c.strings.length <
      k.elements then
        (⟨c.strings ++ [BufString.setString k.maxStringSize {} p.str.bytes p.length]⟩,
          k.handle c.strings.length)
      else (c, ⟨none, k.cacheId, k.elements % 65536, k.size⟩) := by
  have hnone : (c.strings.findIdx? fun b => b.c_str == p.str.bytes) = none := by
    refine List.findIdx?_eq_none_iff.mpr fun b hb => ?_
    exact beq_eq_false_iff_ne.mpr fun htext => h (mem_map.mpr ⟨b, hb, htext⟩)
  unfold put
  rw [if_neg (Nat.not_lt_of_le hlen), hnone]

theorem strings_put (k : CacheKind) (c : BufStringCache) (p : CachePut) :
    c.strings <+: (k.put c p).1.strings := by
  by_cases hlen : p.length ≤ k.maxStringSize
  · by_cases hmem : p.str.bytes ∈ c.texts
    · obtain ⟨i, -, -, hput⟩ := put_of_mem hlen hmem
      exact hput ▸ prefix_refl _
    · simp only [put_of_not_mem hlen hmem]
      split
      · exact prefix_append _ _
      · exact prefix_refl _
  · exact put_of_long (Nat.lt_of_not_le hlen) ▸ prefix_refl _

theorem isValid_handle (k : CacheKind) (i : Nat) : (k.handle i).isValid = true ↔ k.cacheId ≠ 0 := by
  unfold CacheHandle.isValid handle
  rw [Option.isSome_some, Bool.and_true]
  exact bne_iff_ne

/-! ## The stored strings -/

/-- The stored strings are different, and each is told by its length and by its index. -/
structure Good (k : CacheKind) (c : BufStringCache) : Prop where
  sized : ∀ b ∈ c.strings, b.Is k.signedChar b.c_str
  nodup : c.texts.Nodup
  few : c.strings.length ≤ 65536
  le : c.strings.length ≤ k.elements

/-- The handle is the one of the stored text. -/
def At (k : CacheKind) (c : BufStringCache) (h : CacheHandle) (text : List UInt8) : Prop :=
  ∃ i, ∃ hi : i < c.strings.length, h = k.handle i ∧ c.strings[i].c_str = text

theorem good_empty (k : CacheKind) : k.Good {} :=
  ⟨fun _ hb => absurd hb not_mem_nil, .nil, Nat.zero_le _, Nat.zero_le _⟩

variable {h : CacheHandle} {text : List UInt8}

theorem At.mem (hat : k.At c h text) : text ∈ c.texts := by
  obtain ⟨i, hi, -, rfl⟩ := hat
  exact mem_map_of_mem (getElem_mem hi)

theorem At.mono (hat : k.At c h text) {d : BufStringCache} (hbefore : c.strings <+: d.strings) :
    k.At d h text := by
  obtain ⟨i, hi, hhandle, htext⟩ := hat
  refine ⟨i, Nat.lt_of_lt_of_le hi hbefore.length_le, hhandle, ?_⟩
  rw [← hbefore.getElem hi]
  exact htext

theorem Good.got (hgood : k.Good c) (hat : k.At c h text) : (k.get c h).Is k.signedChar text := by
  obtain ⟨i, hi, rfl, rfl⟩ := hat
  have hindex : i % 65536 = i := Nat.mod_eq_of_lt (Nat.lt_of_lt_of_le hi hgood.few)
  unfold get handle
  simp only [hindex]
  rw [if_pos (Nat.lt_of_lt_of_le hi hgood.le), List.getElem?_eq_getElem hi, Option.getD_some]
  exact hgood.sized _ (getElem_mem hi)

theorem Good.handle_unique (hgood : k.Good c) {h h' : CacheHandle} (hat : k.At c h text)
    (hat' : k.At c h' text) : h = h' := by
  obtain ⟨i, hi, rfl, hi'⟩ := hat
  obtain ⟨j, hj, rfl, rfl⟩ := hat'
  have hi₁ : i < c.texts.length := by
    unfold BufStringCache.texts
    rw [length_map]
    exact hi
  have hj₁ : j < c.texts.length := by
    unfold BufStringCache.texts
    rw [length_map]
    exact hj
  have htexts : c.texts[i] = c.texts[j] :=
    (getElem_map _).trans (hi'.trans (getElem_map _).symm)
  exact congrArg k.handle (hgood.nodup.getElem_inj_iff.mp htexts)

theorem Good.put (hgood : k.Good c) (hmeets : k.Meets c p) : k.Good (k.put c p).1 := by
  by_cases hlen : p.length ≤ k.maxStringSize
  · by_cases hmem : p.str.bytes ∈ c.texts
    · obtain ⟨i, -, -, hput⟩ := put_of_mem hlen hmem
      rw [hput]
      exact hgood
    · rw [put_of_not_mem hlen hmem]
      split
      · rename_i hfree
        obtain ⟨hsmall, hfew⟩ := (hmeets hlen).stored hmem hfree
        have hnew : (BufString.setString k.maxStringSize {} p.str.bytes p.length).c_str = p.text :=
          BufString.c_str_setString _ p.str.no_nul hlen
        refine ⟨?_, ?_, ?_, ?_⟩
        · intro b hb
          rcases mem_append.mp hb with hb | hb
          · exact hgood.sized b hb
          · rw [mem_singleton.mp hb, hnew]
            exact (p.is_setString_iff hlen k.size_le).mpr hsmall
        · unfold BufStringCache.texts
          rw [map_append, map_singleton, hnew, ← concat_eq_append]
          exact List.Nodup.concat ((hmeets hlen).fresh hmem) hgood.nodup
        · rw [List.length_append]
          exact hfew
        · rw [List.length_append]
          exact hfree
      · exact hgood
  · rw [put_of_long (Nat.lt_of_not_le hlen)]
    exact hgood

theorem put_at (hmeets : k.Meets c p) :
    k.At (k.put c p).1 (k.put c p).2 p.text ∨
      ((k.put c p).2.base = none ∧ (k.put c p).1 = c ∧
        (p.length ≤ k.maxStringSize → p.text ∉ c.texts ∧ k.elements ≤ c.strings.length)) := by
  by_cases hlen : p.length ≤ k.maxStringSize
  · by_cases hmem : p.str.bytes ∈ c.texts
    · obtain ⟨i, hi, htext, hput⟩ := put_of_mem hlen hmem
      rw [hput, p.text_eq_bytes ((hmeets hlen).whole hmem)]
      exact .inl ⟨i, hi, rfl, htext⟩
    · rw [put_of_not_mem hlen hmem]
      split
      · refine .inl ⟨c.strings.length, ?_, rfl, ?_⟩
        · rw [List.length_append]
          exact Nat.lt_succ_self _
        · rw [getElem_concat_length rfl]
          exact BufString.c_str_setString _ p.str.no_nul hlen
      · rename_i hfull
        exact .inr ⟨rfl, rfl, fun _ => ⟨(hmeets hlen).fresh hmem, Nat.le_of_not_lt hfull⟩⟩
  · rw [put_of_long (Nat.lt_of_not_le hlen)]
    exact .inr ⟨rfl, rfl, fun h => absurd h hlen⟩

theorem put_new {i : Nat} (hold : c.strings.length ≤ i) (hi : i < (k.put c p).1.strings.length) :
    (k.put c p).2 = k.handle i ∧ (k.put c p).1.strings[i].c_str = p.text := by
  by_cases hlen : p.length ≤ k.maxStringSize
  · by_cases hmem : p.str.bytes ∈ c.texts
    · obtain ⟨j, -, -, hput⟩ := put_of_mem hlen hmem
      rw [hput] at hi
      exact absurd hi (Nat.not_lt_of_le hold)
    · have hput := put_of_not_mem (k := k) hlen hmem
      split at hput
      · simp only [hput, List.length_append, length_singleton] at hi ⊢
        obtain rfl := Nat.le_antisymm hold (Nat.le_of_lt_succ hi)
        refine ⟨rfl, ?_⟩
        rw [getElem_concat_length rfl]
        exact BufString.c_str_setString _ p.str.no_nul hlen
      · rw [hput] at hi
        exact absurd hi (Nat.not_lt_of_le hold)
  · rw [put_of_long (Nat.lt_of_not_le hlen)] at hi
    exact absurd hi (Nat.not_lt_of_le hold)

theorem Good.told (hgood : k.Good c) (hid : k.cacheId ≠ 0) (hlen : p.length ≤ k.maxStringSize)
    (hgot : (k.put c p).2.isValid = true →
      (k.get (k.put c p).1 (k.put c p).2).Is k.signedChar p.text)
    (hequal : ∀ i (hi : i < c.strings.length), c.strings[i].c_str = p.text → k.handle i =
      (k.put c p).2) : k.Told c p := by
  have hnot : p.str.bytes ∉ c.texts → p.text ∉ c.texts := by
    intro hmem htext
    obtain ⟨b, hb, heq⟩ := mem_map.mp htext
    obtain ⟨i, hi, rfl⟩ := getElem_of_mem hb
    have hhandle := hequal i hi heq
    rw [put_of_not_mem hlen hmem] at hhandle
    have hbase := congrArg CacheHandle.base hhandle
    -- a new string is behind the stored ones, and a full cache returns no string
    split at hbase
    · exact absurd (Option.some_inj.mp hbase) (Nat.ne_of_lt hi)
    · exact absurd hbase (Option.some_ne_none i)
  refine ⟨?_, hnot, ?_⟩
  · intro hmem
    obtain ⟨i, hi, htext, hput⟩ := put_of_mem hlen hmem
    rw [hput] at hgot
    obtain ⟨-, hsame⟩ := hgot ((isValid_handle k i).mpr hid)
    obtain ⟨-, hstored⟩ := hgood.got ⟨i, hi, rfl, htext⟩
    have hlength := congrArg List.length (hsame.symm.trans hstored)
    rw [p.length_text] at hlength
    exact hlength
  · intro hmem hfree
    have hput := put_of_not_mem hlen hmem
    rw [if_pos hfree] at hput
    rw [hput] at hgot
    have his := hgot ((isValid_handle k _).mpr hid)
    have hfew : c.strings.length < 65536 := by
      -- the string behind 65536 others has the index of the first one
      refine Nat.lt_of_le_of_ne hgood.few fun hlength => hnot hmem ?_
      have hzero : c.strings.length % 65536 = 0 := by rw [hlength]
      have hpos : 0 < c.strings.length := by rw [hlength]; decide
      unfold get handle at his
      simp only [hzero] at his
      rw [if_pos (Nat.lt_trans hpos hfree), List.getElem?_append_left hpos,
        List.getElem?_eq_getElem hpos, Option.getD_some] at his
      rw [← his.2]
      exact mem_map_of_mem (getElem_mem hpos)
    refine ⟨?_, hfew⟩
    unfold get handle at his
    simp only [Nat.mod_eq_of_lt hfew] at his
    rw [if_pos hfree, List.getElem?_concat_length, Option.getD_some] at his
    exact (p.is_setString_iff hlen k.size_le).mp his

/-! ## All puts -/

variable {puts : List CachePut}

variable {n : Nat}

theorem cacheAt_succ (hn : n < puts.length) :
    k.cacheAt puts (n + 1) = (k.put (k.cacheAt puts n) puts[n]).1 :=
  Transition.stateAt_succ _ _ _ hn

theorem strings_at {m n : Nat} (hmn : m ≤ n) (hn : n ≤ puts.length) :
    (k.cacheAt puts m).strings <+: (k.cacheAt puts n).strings := by
  induction n with
  | zero =>
    obtain rfl := Nat.le_zero.mp hmn
    exact prefix_refl _
  | succ n ih =>
    rcases Nat.le_succ_iff.mp hmn with hmn | rfl
    · refine (ih hmn (Nat.le_of_succ_le hn)).trans ?_
      rw [cacheAt_succ hn]
      exact strings_put k _ _
    · exact prefix_refl _

/-- The puts before the put number `n` meet what is asked of them. -/
def MetBefore (k : CacheKind) (puts : List CachePut) (n : Nat) : Prop :=
  ∀ j (hj : j < puts.length), j < n → k.Meets (k.cacheAt puts j) puts[j]

theorem good_at (hn : n ≤ puts.length) (hmet : k.MetBefore puts n) : k.Good (k.cacheAt puts n) := by
  induction n with
  | zero => exact good_empty k
  | succ n ih =>
    rw [cacheAt_succ hn]
    refine (ih (Nat.le_of_succ_le hn) fun j hj hjn => hmet j hj (Nat.lt_succ_of_lt hjn)).put ?_
    exact hmet n hn (Nat.lt_succ_self n)

theorem at_of_isValid (hn : n < puts.length) (hmeets : k.Meets (k.cacheAt puts n) puts[n])
    (hvalid : (k.handleAt puts n hn).isValid = true) :
    k.At (k.cacheAt puts (n + 1)) (k.handleAt puts n hn) puts[n].text ∧ puts[n].length ≤
      k.maxStringSize := by
  refine ⟨?_, ?_⟩
  · rw [cacheAt_succ hn]
    rcases put_at hmeets with hat | ⟨hnone, -, -⟩
    · exact hat
    · unfold CacheHandle.isValid handleAt at hvalid
      rw [hnone, Option.isSome_none, Bool.and_false] at hvalid
      exact absurd hvalid Bool.false_ne_true
  · refine Nat.le_of_not_lt fun hlong => ?_
    unfold handleAt at hvalid
    rw [put_of_long hlong] at hvalid
    exact absurd hvalid Bool.false_ne_true

theorem keeps_of_met (hmet : k.MetBefore puts puts.length) : k.Keeps puts := by
  have hgood : ∀ n, n ≤ puts.length → k.Good (k.cacheAt puts n) := fun n hn =>
    good_at hn fun j hj _ => hmet j hj hj
  constructor
  · intro n hn hvalid m hnm hm
    have hat := (at_of_isValid hn (hmet n hn hn) hvalid).1
    exact (hgood m hm).got (hat.mono (strings_at hnm hm))
  · intro n hn m hm hvalid htext
    obtain ⟨hat, hlen⟩ := at_of_isValid hn (hmet n hn hn) hvalid
    rcases put_at (hmet m hm hm) with hat' | ⟨-, hsame, hfull⟩
    · rw [← cacheAt_succ hm, ← htext] at hat'
      rcases Nat.le_total (n + 1) (m + 1) with hle | hle
      · exact (hgood (m + 1) hm).handle_unique (hat.mono (strings_at hle hm)) hat'
      · exact (hgood (n + 1) hn).handle_unique hat (hat'.mono (strings_at hle hn))
    · -- the text is stored at some time, and the cache was full without it
      have hlength := congrArg List.length htext
      rw [CachePut.length_text, CachePut.length_text] at hlength
      obtain ⟨hnot, hfull⟩ := hfull (hlength ▸ hlen)
      rw [← htext] at hnot
      rcases Nat.le_total (n + 1) m with hle | hle
      · have hmem := (hat.mono (strings_at hle (Nat.le_of_lt hm))).mem
        exact absurd hmem hnot
      · have heq := (strings_at (k := k) hle hn).eq_of_length_le
          (Nat.le_trans (hgood (n + 1) hn).le hfull)
        have hmem := hat.mem
        unfold BufStringCache.texts at hmem hnot
        rw [← heq] at hmem
        exact absurd hmem hnot

theorem owner_at (hn : n ≤ puts.length) (i : Nat) (hi : i < (k.cacheAt puts n).strings.length) :
    ∃ j, ∃ hj : j < puts.length, k.handleAt puts j hj = k.handle i ∧ puts[j].text =
      (k.cacheAt puts n).strings[i].c_str := by
  induction n with
  | zero => exact absurd hi (Nat.not_lt_zero i)
  | succ n ih =>
    by_cases hold : i < (k.cacheAt puts n).strings.length
    · obtain ⟨j, hj, hhandle, htext⟩ := ih (Nat.le_of_succ_le hn) hold
      -- stored before, and a stored string does not change
      exact ⟨j, hj, hhandle, htext.trans (congrArg BufString.c_str
        ((strings_at (k := k) (Nat.le_succ n) hn).getElem hold))⟩
    · simp only [cacheAt_succ hn] at hi ⊢
      obtain ⟨hhandle, htext⟩ := put_new (Nat.le_of_not_lt hold) hi
      exact ⟨n, hn, hhandle, htext.symm⟩

theorem met_of_keeps (hid : k.cacheId ≠ 0) (hkeeps : k.Keeps puts) (hn : n ≤ puts.length) :
    k.MetBefore puts n := by
  induction n with
  | zero => exact fun j _ hjn => absurd hjn (Nat.not_lt_zero j)
  | succ n ih =>
    have hmet := ih (Nat.le_of_succ_le hn)
    intro j hj hjn
    rcases Nat.lt_succ_iff_lt_or_eq.mp hjn with hjn | rfl
    · exact hmet j hj hjn
    intro hlen
    -- the earlier puts meet it, so the cache is good before this one
    refine (good_at (Nat.le_of_succ_le hn) hmet).told hid hlen ?_ ?_
    · intro hvalid
      have hgot := hkeeps.got j hj hvalid (j + 1) (Nat.lt_succ_self j) hn
      rw [cacheAt_succ hj] at hgot
      exact hgot
    · intro i hi htext
      obtain ⟨l, hl, hhandle, howner⟩ := owner_at (Nat.le_of_succ_le hn) i hi
      have hvalid := (isValid_handle k i).mpr hid
      rw [← hhandle] at hvalid ⊢
      exact hkeeps.equal l hl j hj hvalid (howner.trans htext)

theorem not_isValid (hid : k.cacheId = 0) (c : BufStringCache) (p : CachePut) :
    (k.put c p).2.isValid = false := by
  have hhandle : ∀ i, (k.handle i).isValid = false := fun i =>
    Bool.eq_false_iff.mpr fun h => (isValid_handle k i).mp h hid
  by_cases hlen : p.length ≤ k.maxStringSize
  · by_cases hmem : p.str.bytes ∈ c.texts
    · obtain ⟨i, -, -, hput⟩ := put_of_mem hlen hmem
      rw [hput]
      exact hhandle i
    · rw [put_of_not_mem hlen hmem]
      split
      · exact hhandle _
      · exact Bool.and_false _
  · rw [put_of_long (Nat.lt_of_not_le hlen)]
    rfl

/-- **The cache returns what was put** exactly if its handles are never valid, or in every put of a
run a string that is stored is put in full, one that is not stored is not cut off to a stored one,
and what is stored is not longer than 127 where `char` is signed and is not behind 65536 others. -/
theorem keeps_iff (k : CacheKind) (puts : List CachePut) :
    k.Keeps puts ↔ k.cacheId = 0 ∨
      ∀ n (hn : n < puts.length), k.Meets (k.cacheAt puts n) puts[n] := by
  constructor
  · intro hkeeps
    by_cases hid : k.cacheId = 0
    · exact .inl hid
    · exact .inr fun n hn => met_of_keeps hid hkeeps (Nat.le_refl _) n hn hn
  · rintro (hid | hmet)
    · have hnever : ∀ n hn, (k.handleAt puts n hn).isValid = true → False := fun n hn hvalid =>
        absurd hvalid (Bool.eq_false_iff.mp (not_isValid hid _ _))
      exact ⟨fun n hn hvalid => (hnever n hn hvalid).elim,
        fun n hn _ _ hvalid => (hnever n hn hvalid).elim⟩
    · exact keeps_of_met fun j hj _ => hmet j hj

theorem abc_no_nul : (0 : UInt8) ∉ ([97, 98, 99] : List UInt8) := by decide

/-- The string `abc`. -/
def abc : CString := ⟨[97, 98, 99], abc_no_nul⟩

theorem abc_two : 2 ≤ abc.bytes.length := by decide

theorem small_size_le : 14 ≤ 255 := by decide

/-- `abc` is put, and then its first two characters. -/
def abcThenAb : List CachePut := [⟨abc, 3, Nat.le_refl 3⟩, ⟨abc, 2, abc_two⟩]

/-- The handle of the second put gives `abc`. -/
theorem abcThenAb_not_kept : ¬ (⟨14, 4, true, small_size_le⟩ : CacheKind).Keeps abcThenAb := by
  intro hkeeps
  obtain ⟨-, htext⟩ := hkeeps.got 1 (by decide) (by decide) 2 (by decide) (by decide)
  exact absurd htext (by decide)

end CacheKind
end DeconzRest.StringCache

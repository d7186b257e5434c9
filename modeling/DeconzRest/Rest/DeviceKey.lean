import DeconzRest.Utils.UniqueId

/-!
# The device in a request path

`getDeviceKey` reads the MAC address of a path such as `/devices/00:11:22:33:44:55:66:77`.  A colon
is let through at every third place only, but nothing asks for one there.
-/

namespace DeconzRest
namespace RestDevices

open List

/-- One byte in the loop of `getDeviceKey`; `none` is its `break`. -/
def keyByte (pos : Nat) (result : UInt64) (ch : UInt8) : Option UInt64 :=
  if ch = 0x3A ∧ pos % 3 = 2 then some result
  else if 0x30 ≤ ch ∧ ch ≤ 0x39 then some (result <<< 4 ||| ((ch - 0x30).toUInt64 &&& 0x0F))
  else if 0x61 ≤ ch ∧ ch ≤ 0x66 then some (result <<< 4 ||| ((ch - 0x61 + 10).toUInt64 &&& 0x0F))
  else if 0x41 ≤ ch ∧ ch ≤ 0x46 then some (result <<< 4 ||| ((ch - 0x41 + 10).toUInt64 &&& 0x0F))
  else none

/-- The loop of `getDeviceKey` -/
def keyLoop : Nat → UInt64 → List UInt8 → UInt64
  | _, result, [] => result
  | pos, result, ch :: rest =>
    match keyByte pos result ch with
    | some result => keyLoop (pos + 1) result rest
    | none => 0

/-- `getDeviceKey` -/
def getDeviceKey (uniqueid : List UInt8) : UInt64 :=
  if uniqueid.length < 23 then 0 else keyLoop 0 0 (uniqueid.take 23)

/-- Digits of two, and a colon at the places 2, 5, …; `pos` is the place of the first byte. -/
def MacFrom (pos : Nat) (s : List UInt8) : Prop :=
  ∀ i ch, s[i]? = some ch → if (pos + i) % 3 = 2 then ch = 0x3A else isHexChar ch = true

/-- `00:11:22:33:44:55:66:77`, and anything behind it -/
def MacText (uniqueid : List UInt8) : Prop :=
  23 ≤ uniqueid.length ∧ MacFrom 0 (uniqueid.take 23)

/-- The hex digits among the first 23 bytes -/
def macDigits (uniqueid : List UInt8) : List UInt8 := (uniqueid.take 23).filter (· ≠ 0x3A)

/-- A key that is not 0 is the number of the sixteen digits of a MAC text. -/
def Keyed (uniqueid : List UInt8) : Prop :=
  getDeviceKey uniqueid ≠ 0 → MacText uniqueid ∧ (getDeviceKey uniqueid).toNat =
    hexValue (macDigits uniqueid)

/-- A hex digit, or a colon at every third place -/
def AcceptedFrom (pos : Nat) (s : List UInt8) : Prop :=
  ∀ i ch, s[i]? = some ch → isHexChar ch = true ∨ ch = 0x3A ∧ (pos + i) % 3 = 2

/-- A digit stands where a colon belongs, no other byte is wrong, and not all of the last sixteen
digits are zeros. -/
def Misplaced (uniqueid : List UInt8) : Prop :=
  23 ≤ uniqueid.length ∧ AcceptedFrom 0 (uniqueid.take 23) ∧
    (∃ i ch, (uniqueid.take 23)[i]? = some ch ∧ i % 3 = 2 ∧ isHexChar ch = true) ∧
    ∃ ch ∈ (macDigits uniqueid).drop ((macDigits uniqueid).length - 16), ch ≠ 0x30

def lowerCase (ch : UInt8) : UInt8 := if 0x41 ≤ ch ∧ ch ≤ 0x46 then ch + 0x20 else ch

theorem hexDigit_lt {ch : UInt8} (h : isHexChar ch = true) : Qt.hexDigit ch.toUInt16 < 16 := by
  rw [DeviceTable.isHexChar_iff] at h
  simp only [Qt.hexDigit, UInt8.toNat_toUInt16]
  split_ifs <;> omega

theorem colon_ne {ch : UInt8} (h : isHexChar ch = true) : ch ≠ 0x3A := by
  rintro rfl
  exact absurd h (by decide)

theorem masked_digit : ∀ d < 16, (UInt8.ofNat d).toUInt64 &&& 0x0F = UInt64.ofNat d := by
  decide

theorem shift_or (n : Nat) {d : UInt8} {k : Nat} (hd : d.toNat = k) (hk : k < 16) :
    UInt64.ofNat n <<< 4 ||| (d.toUInt64 &&& 0x0F) = UInt64.ofNat (16 * n + k) := by
  have hmasked := masked_digit k hk
  rw [← hd, UInt8.ofNat_toNat, hd] at hmasked
  have hor : 2 ^ 4 * n + k = (2 ^ 4 * n) ||| k := Nat.two_pow_add_eq_or_of_lt hk n
  have hshift : n % 2 ^ 64 * 2 ^ 4 % 2 ^ 64 = 2 ^ 4 * n % 2 ^ 64 := by omega
  rw [hmasked]
  apply UInt64.toNat.inj
  rw [UInt64.toNat_or, UInt64.toNat_shiftLeft, UInt64.toNat_ofNat', UInt64.toNat_ofNat',
    UInt64.toNat_ofNat', show 16 * n + k = (2 ^ 4 * n) ||| k from hor, Nat.or_mod_two_pow,
    Nat.shiftLeft_eq]
  show n % 2 ^ 64 * 2 ^ 4 % 2 ^ 64 ||| _ = _
  rw [hshift]

theorem digit_sub {ch b d : UInt8} (hb : b ≤ ch) (h : ch.toNat - b.toNat + d.toNat < 16) :
    (ch - b + d).toNat = ch.toNat - b.toNat + d.toNat := by
  rw [UInt8.toNat_add, UInt8.toNat_sub_of_le _ _ hb, Nat.mod_eq_of_lt (by omega)]

theorem keyByte_hex (pos n : Nat) {ch : UInt8} (h : isHexChar ch = true) :
    keyByte pos (UInt64.ofNat n) ch = some (UInt64.ofNat (16 * n + Qt.hexDigit ch.toUInt16)) := by
  have hlt := hexDigit_lt h
  rw [DeviceTable.isHexChar_iff] at h
  unfold keyByte
  simp only [UInt8.le_iff_toNat_le, Qt.hexDigit, UInt8.toNat_toUInt16, UInt8.reduceToNat] at hlt ⊢
  rw [if_neg (by rintro ⟨rfl, -⟩; exact absurd h (by decide))]
  rcases h with h | h | h
  · rw [if_pos h, if_pos h,
    shift_or n (UInt8.toNat_sub_of_le _ _ h.1) (by show ch.toNat - 48 < 16; omega)]
    rfl
  · rw [if_neg (by omega), if_pos h, if_neg (by omega), if_neg (by omega), if_pos h,
      shift_or n (digit_sub h.1 (by show ch.toNat - 97 + 10 < 16; omega))]
    · show some (UInt64.ofNat (16 * n + (ch.toNat - 97 + 10))) = _
      rw [show ch.toNat - 97 + 10 = ch.toNat - 87 by omega]
    · show ch.toNat - 97 + 10 < 16
      omega
  · rw [if_neg (by omega), if_neg (by omega), if_pos h, if_neg (by omega), if_pos h,
      shift_or n (digit_sub h.1 (by show ch.toNat - 65 + 10 < 16; omega))]
    · show some (UInt64.ofNat (16 * n + (ch.toNat - 65 + 10))) = _
      rw [show ch.toNat - 65 + 10 = ch.toNat - 55 by omega]
    · show ch.toNat - 65 + 10 < 16
      omega

theorem keyByte_other (pos : Nat) (result : UInt64) {ch : UInt8} (h : ¬ isHexChar ch = true)
    (hcolon : ¬ (ch = 0x3A ∧ pos % 3 = 2)) : keyByte pos result ch = none := by
  rw [DeviceTable.isHexChar_iff] at h
  unfold keyByte
  simp only [UInt8.le_iff_toNat_le, UInt8.reduceToNat]
  rw [if_neg hcolon, if_neg (by omega), if_neg (by omega), if_neg (by omega)]

theorem acceptedFrom_cons (pos : Nat) (ch : UInt8) (s : List UInt8) :
    AcceptedFrom pos (ch :: s) ↔ (isHexChar ch = true ∨ ch = 0x3A ∧ pos % 3 = 2) ∧
      AcceptedFrom (pos + 1) s := by
  constructor
  · intro h
    refine ⟨h 0 ch rfl, fun i c hi => ?_⟩
    have hnext := h (i + 1) c hi
    rwa [show pos + 1 + i = pos + (i + 1) by omega]
  · rintro ⟨hfirst, hrest⟩ i c hi
    cases i with
    | zero =>
      cases hi
      exact hfirst
    | succ i =>
      have hnext := hrest i c hi
      rwa [show pos + (i + 1) = pos + 1 + i by omega]

/-- The digits of an accepted text, one after the other, make up the key. -/
theorem keyLoop_accepted {pos : Nat} {s : List UInt8} (n : Nat) (h : AcceptedFrom pos s) :
    keyLoop pos (UInt64.ofNat n) s = UInt64.ofNat
      ((s.filter (· ≠ 0x3A)).foldl (fun n c => 16 * n + Qt.hexDigit c.toUInt16) n) := by
  induction s generalizing pos n with
  | nil => rfl
  | cons ch s ih =>
    obtain ⟨hfirst, hrest⟩ := (acceptedFrom_cons pos ch s).mp h
    rcases hfirst with hhex | ⟨rfl, hpos⟩
    · rw [keyLoop, keyByte_hex pos n hhex, filter_cons_of_pos (by simpa using colon_ne hhex)]
      exact ih _ hrest
    · rw [keyLoop, keyByte, if_pos ⟨rfl, hpos⟩, filter_cons_of_neg (by decide)]
      exact ih _ hrest

theorem keyLoop_refused {pos : Nat} {s : List UInt8} (result : UInt64)
    (h : ¬ AcceptedFrom pos s) : keyLoop pos result s = 0 := by
  induction s generalizing pos result with
  | nil => exact absurd (fun i ch hi => (nomatch hi)) h
  | cons ch s ih =>
    rw [acceptedFrom_cons] at h
    rw [keyLoop]
    cases hbyte : keyByte pos result ch with
    | none => rfl
    | some result' =>
      refine ih result' fun hrest => h ⟨?_, hrest⟩
      by_contra hother
      obtain ⟨hhex, hcolon⟩ := not_or.mp hother
      rw [keyByte_other pos result hhex hcolon] at hbyte
      exact nomatch hbyte

theorem getDeviceKey_accepted {s : List UInt8} (hlength : 23 ≤ s.length)
    (h : AcceptedFrom 0 (s.take 23)) : getDeviceKey s = UInt64.ofNat (hexValue (macDigits s)) := by
  rw [getDeviceKey, if_neg (by omega)]
  exact keyLoop_accepted 0 h

theorem accepted_of_key {s : List UInt8} (h : getDeviceKey s ≠ 0) :
    23 ≤ s.length ∧ AcceptedFrom 0 (s.take 23) := by
  unfold getDeviceKey at h
  split at h
  · exact absurd rfl h
  · refine ⟨by omega, ?_⟩
    by_contra hrefused
    exact h (keyLoop_refused 0 hrefused)

theorem foldl_digits (n : Nat) (s : List UInt8) :
    s.foldl (fun n c => 16 * n + Qt.hexDigit c.toUInt16) n = 16 ^ s.length * n + hexValue s := by
  induction s generalizing n with
  | nil => exact (Nat.add_zero _).symm ▸ (Nat.one_mul n).symm
  | cons ch s ih =>
    rw [hexValue, foldl_cons, foldl_cons, ih, ih, length_cons, Nat.pow_succ, Nat.mul_zero,
      Nat.zero_add, Nat.mul_add, Nat.mul_assoc, Nat.add_assoc]

theorem hexValue_cons (ch : UInt8) (s : List UInt8) :
    hexValue (ch :: s) = 16 ^ s.length * Qt.hexDigit ch.toUInt16 + hexValue s := by
  rw [hexValue, foldl_cons, Nat.mul_zero, Nat.zero_add, foldl_digits]

theorem hexValue_lt {s : List UInt8} (h : ∀ ch ∈ s, isHexChar ch = true) :
    hexValue s < 16 ^ s.length := by
  induction s with
  | nil => decide
  | cons ch s ih =>
    have hdigit := hexDigit_lt (h ch mem_cons_self)
    have hrest := ih fun c hc => h c (mem_cons_of_mem ch hc)
    have hmul := Nat.mul_le_mul_left (16 ^ s.length) (Nat.le_of_lt_succ hdigit)
    rw [hexValue_cons, length_cons, Nat.pow_succ]
    omega

theorem hexValue_eq_zero {s : List UInt8} (h : ∀ ch ∈ s, isHexChar ch = true) :
    hexValue s = 0 ↔ ∀ ch ∈ s, ch = 0x30 := by
  induction s with
  | nil => simp [hexValue]
  | cons ch s ih =>
    have hdigit : Qt.hexDigit ch.toUInt16 = 0 ↔ ch = 0x30 := by
      have hhex := DeviceTable.isHexChar_iff.mp (h ch mem_cons_self)
      rw [← UInt8.toNat_inj]
      simp only [Qt.hexDigit, UInt8.toNat_toUInt16, UInt8.reduceToNat]
      split_ifs <;> omega
    rw [hexValue_cons, Nat.add_eq_zero_iff, ih fun c hc => h c (mem_cons_of_mem ch hc),
      Nat.mul_eq_zero, forall_mem_cons, hdigit]
    simp

theorem hexDigit_of_accepted {pos : Nat} {s : List UInt8} (h : AcceptedFrom pos s) :
    ∀ ch ∈ s.filter (· ≠ 0x3A), isHexChar ch = true := by
  intro ch hch
  obtain ⟨hmem, hne⟩ := mem_filter.mp hch
  obtain ⟨i, hi⟩ := mem_iff_getElem?.mp hmem
  exact (h i ch hi).resolve_right fun hcolon => of_decide_eq_true hne hcolon.1

theorem key_last_digits {s : List UInt8} (hlength : 23 ≤ s.length)
    (h : AcceptedFrom 0 (s.take 23)) :
    (getDeviceKey s).toNat = hexValue ((macDigits s).drop ((macDigits s).length - 16)) := by
  have hall := hexDigit_of_accepted h
  change ∀ ch ∈ macDigits s, isHexChar ch = true at hall
  rw [getDeviceKey_accepted hlength h, UInt64.toNat_ofNat']
  generalize macDigits s = digits at hall ⊢
  have hlt := hexValue_lt fun ch hch => hall ch (mem_of_mem_drop (i := digits.length - 16) hch)
  have hsplit : hexValue digits = 16 ^ (digits.drop (digits.length - 16)).length *
      hexValue (digits.take (digits.length - 16)) +
        hexValue (digits.drop (digits.length - 16)) := by
    rw [← foldl_digits, hexValue, hexValue, ← foldl_append, take_append_drop]
  rw [length_drop] at hlt hsplit
  rcases Nat.lt_or_ge digits.length 16 with hshort | hlong
  · have hpow := Nat.pow_le_pow_right (n := 16) (by decide) (Nat.le_of_lt hshort)
    rw [Nat.sub_eq_zero_of_le (Nat.le_of_lt hshort), drop_zero, Nat.sub_zero] at hlt
    rw [Nat.sub_eq_zero_of_le (Nat.le_of_lt hshort), drop_zero]
    exact Nat.mod_eq_of_lt (by omega)
  · rw [show digits.length - (digits.length - 16) = 16 by omega] at hlt hsplit
    omega

theorem MacFrom.tail {pos : Nat} {ch : UInt8} {s : List UInt8} (h : MacFrom pos (ch :: s)) :
    MacFrom (pos + 1) s := by
  intro i c hi
  have hnext := h (i + 1) c hi
  rwa [show pos + (i + 1) = pos + 1 + i by omega] at hnext

theorem length_macDigits {pos : Nat} {s : List UInt8} (h : MacFrom pos s) :
    (s.filter (· ≠ 0x3A)).length = (List.range' pos s.length).countP (· % 3 ≠ 2) := by
  induction s generalizing pos with
  | nil => rfl
  | cons ch s ih =>
    have hfirst := h 0 ch rfl
    rw [length_cons, List.range'_succ, countP_cons, ← ih h.tail]
    rw [Nat.add_zero] at hfirst
    split at hfirst
    · rename_i hpos
      rw [hfirst, filter_cons_of_neg (by decide), if_neg (by simpa using hpos), Nat.add_zero]
    · rename_i hpos
      rw [filter_cons_of_pos (by simpa using colon_ne hfirst), length_cons,
        if_pos (by simpa using hpos)]

/-! ## The device that a path names -/

theorem lowerCase_eq {a b : UInt8} (ha : isHexChar a = true) (hb : isHexChar b = true)
    (h : Qt.hexDigit a.toUInt16 = Qt.hexDigit b.toUInt16) : lowerCase a = lowerCase b := by
  have hlower : ∀ {c : UInt8}, isHexChar c = true → (lowerCase c).toNat =
      if Qt.hexDigit c.toUInt16 < 10 then Qt.hexDigit c.toUInt16 + 0x30
      else Qt.hexDigit c.toUInt16 + 0x57 := by
    intro c hc
    rw [DeviceTable.isHexChar_iff] at hc
    simp only [lowerCase, Qt.hexDigit, UInt8.toNat_toUInt16, UInt8.le_iff_toNat_le,
      UInt8.reduceToNat, apply_ite UInt8.toNat, UInt8.toNat_add]
    split_ifs <;> omega
  apply UInt8.toNat.inj
  rw [hlower ha, hlower hb, h]

theorem mac_inj {pos : Nat} {s t : List UInt8} (n m : Nat) (hs : MacFrom pos s)
    (ht : MacFrom pos t) (hlength : s.length = t.length)
    (h : (s.filter (· ≠ 0x3A)).foldl (fun n c => 16 * n + Qt.hexDigit c.toUInt16) n =
      (t.filter (· ≠ 0x3A)).foldl (fun n c => 16 * n + Qt.hexDigit c.toUInt16) m) :
    n = m ∧ s.map lowerCase = t.map lowerCase := by
  induction s generalizing pos t n m with
  | nil =>
    cases length_eq_zero_iff.mp hlength.symm
    exact ⟨h, rfl⟩
  | cons a s ih =>
    obtain ⟨b, t, rfl⟩ : ∃ b t', t = b :: t' :=
      exists_cons_of_length_pos (by rw [← hlength]; exact Nat.succ_pos _)
    have ha := hs 0 a rfl
    have hb := ht 0 b rfl
    rw [Nat.add_zero] at ha hb
    by_cases hpos : pos % 3 = 2
    · rw [if_pos hpos] at ha hb
      subst ha hb
      rw [filter_cons_of_neg (by decide), filter_cons_of_neg (by decide)] at h
      obtain ⟨hn, hmap⟩ := ih n m hs.tail ht.tail (Nat.succ.inj hlength) h
      exact ⟨hn, congrArg (_ :: ·) hmap⟩
    · rw [if_neg hpos] at ha hb
      rw [filter_cons_of_pos (by simpa using colon_ne ha),
        filter_cons_of_pos (by simpa using colon_ne hb)] at h
      obtain ⟨hn, hmap⟩ := ih _ _ hs.tail ht.tail (Nat.succ.inj hlength) h
      have hda := hexDigit_lt ha
      have hdb := hexDigit_lt hb
      have hboth : n = m ∧ Qt.hexDigit a.toUInt16 = Qt.hexDigit b.toUInt16 := by
        dsimp only at hn
        omega
      rw [map_cons, map_cons, hmap, lowerCase_eq ha hb hboth.2]
      exact ⟨hboth.1, rfl⟩

theorem keyed_iff (s : List UInt8) : Keyed s ↔ ¬ Misplaced s := by
  constructor
  · rintro hkeyed ⟨hlength, haccepted, ⟨i, ch, hi, hpos, hhex⟩, d, hd, hne⟩
    have hkey : getDeviceKey s ≠ 0 := by
      intro hzero
      have hlast := key_last_digits hlength haccepted
      rw [hzero] at hlast
      have hall := hexDigit_of_accepted haccepted
      exact hne ((hexValue_eq_zero fun c hc => hall c (mem_of_mem_drop hc)).mp
        hlast.symm d hd)
    have hcolon := (hkeyed hkey).1.2 i ch hi
    rw [Nat.zero_add, if_pos hpos] at hcolon
    exact colon_ne hhex hcolon
  · intro hplaced hkey
    obtain ⟨hlength, haccepted⟩ := accepted_of_key hkey
    have hlast := key_last_digits hlength haccepted
    have hmac : MacFrom 0 (s.take 23) := by
      intro i ch hi
      rcases haccepted i ch hi with hhex | ⟨rfl, hpos⟩
      · rw [if_neg fun hpos => hplaced ⟨hlength, haccepted,
          ⟨i, ch, hi, by rwa [Nat.zero_add] at hpos, hhex⟩, ?_⟩]
        · exact hhex
        · by_contra hzeros
          have hall : ∀ c ∈ macDigits s, _ := hexDigit_of_accepted haccepted
          rw [(hexValue_eq_zero fun c hc => hall c (mem_of_mem_drop hc)).mpr
            fun c hc => by_contra fun hc' => hzeros ⟨c, hc, hc'⟩] at hlast
          exact hkey (UInt64.toNat.inj hlast)
      · rw [if_pos hpos]
    have hsixteen : (macDigits s).length = 16 := by
      rw [macDigits, length_macDigits hmac, length_take_of_le hlength]
      decide
    rw [hsixteen] at hlast
    exact ⟨⟨hlength, hmac⟩, hlast⟩

theorem getDeviceKey_iff (s : List UInt8) :
    (Keyed s ↔ ¬ Misplaced s) ∧ ∀ t, ¬ Misplaced s → ¬ Misplaced t → getDeviceKey s ≠ 0 →
      getDeviceKey s = getDeviceKey t → (s.take 23).map lowerCase =
        (t.take 23).map lowerCase := by
  refine ⟨keyed_iff s, fun t hs ht hkey heq => ?_⟩
  obtain ⟨hmac, hnumber⟩ := (keyed_iff s).mpr hs hkey
  obtain ⟨hmac', hnumber'⟩ := (keyed_iff t).mpr ht (heq ▸ hkey)
  refine (mac_inj 0 0 hmac.2 hmac'.2 ?_ ?_).2
  · rw [length_take_of_le hmac.1, length_take_of_le hmac'.1]
  · exact hnumber.symm.trans ((congrArg UInt64.toNat heq).trans hnumber')

/-- The path of `00:11:22:33:44:55:66477` reaches the device `01:12:23:34:45:56:64:77`. -/
theorem misplaced_digit_taken :
    ¬ Keyed [0x30, 0x30, 0x3A, 0x31, 0x31, 0x3A, 0x32, 0x32, 0x3A, 0x33, 0x33, 0x3A, 0x34, 0x34,
      0x3A, 0x35, 0x35, 0x3A, 0x36, 0x36, 0x34, 0x37, 0x37] ∧
    getDeviceKey [0x30, 0x30, 0x3A, 0x31, 0x31, 0x3A, 0x32, 0x32, 0x3A, 0x33, 0x33, 0x3A, 0x34,
      0x34, 0x3A, 0x35, 0x35, 0x3A, 0x36, 0x36, 0x34, 0x37, 0x37] =
    getDeviceKey [0x30, 0x31, 0x3A, 0x31, 0x32, 0x3A, 0x32, 0x33, 0x3A, 0x33, 0x34, 0x3A, 0x34,
      0x35, 0x3A, 0x35, 0x36, 0x3A, 0x36, 0x34, 0x3A, 0x37, 0x37] := by
  refine ⟨fun h => ?_, by decide⟩
  exact absurd ((h (by decide)).1.2 20 0x34 rfl) (by decide)

theorem printBytes_accepted {pos : Nat} (hpos : pos % 3 = 0) (bytes : List UInt8) :
    AcceptedFrom pos (printBytes bytes) ∧ (printBytes bytes).filter (· ≠ 0x3A) =
      bytes.flatMap fun b => printHex 2 b.toNat := by
  have hdigit (n : Nat) := (lowerHex_spec (n % 16) (Nat.mod_lt n (by decide))).1
  induction bytes generalizing pos with
  | nil => exact ⟨fun i ch hi => (nomatch hi), rfl⟩
  | cons b bytes ih =>
    have hpair (pos : Nat) {s : List UInt8} (hs : AcceptedFrom (pos + 2) s) :
        AcceptedFrom pos (printHex 2 b.toNat ++ s) := by
      refine (acceptedFrom_cons _ _ _).mpr ⟨.inl (hdigit _), ?_⟩
      exact (acceptedFrom_cons _ _ _).mpr ⟨.inl (hdigit _), hs⟩
    have hkept : (printHex 2 b.toNat).filter (· ≠ 0x3A) = printHex 2 b.toNat :=
      filter_eq_self.mpr fun c hc => by simpa using colon_ne (isHexChar_of_mem hc)
    cases bytes with
    | nil => exact ⟨hpair pos fun i ch hi => (nomatch hi), hkept.trans (append_nil _).symm⟩
    | cons c bytes =>
      obtain ⟨haccepted, hdigits⟩ := @ih (pos + 3) (by omega)
      rw [printBytes]
      · refine ⟨hpair pos ((acceptedFrom_cons _ _ _).mpr ⟨.inr ⟨rfl, by omega⟩, haccepted⟩), ?_⟩
        rw [filter_append, hkept, filter_cons_of_neg (by decide), hdigits]
        rfl
      · exact fun hnil => absurd hnil (cons_ne_nil c bytes)

/-- **Each device has a path**: the path with a unique id, whatever its endpoint and cluster, is
read as the address it was made of. -/
theorem getDeviceKey_generate (extAddress : UInt64) (endpoint : UInt8) (clusterId : UInt16) :
    getDeviceKey ((generateUniqueId extAddress endpoint clusterId).map QString.toLatin1) =
      extAddress := by
  have htext : (generateUniqueId extAddress endpoint clusterId).map QString.toLatin1 =
      printBytes (macBytes extAddress) ++ uniqueIdParts endpoint clusterId := by
    rw [generateUniqueId_eq, QString.ofLatin1Octets, map_map]
    exact map_id'' toLatin1_toUInt16 _
  have hlength := length_mac extAddress
  have htake : (printBytes (macBytes extAddress) ++ uniqueIdParts endpoint clusterId).take 23 =
      printBytes (macBytes extAddress) := take_left' hlength
  obtain ⟨haccepted, hdigits⟩ := printBytes_accepted (Nat.zero_mod 3) (macBytes extAddress)
  rw [htext, getDeviceKey_accepted (by rw [length_append]; omega) (htake.symm ▸ haccepted),
    macDigits, htake, hdigits, macBytes, hexValue_writeLE]
  exact UInt64.toNat.inj ((UInt64.toNat_ofNat' ..).trans (by have := extAddress.toNat_lt; omega))

end RestDevices
end DeconzRest

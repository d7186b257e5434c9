import DeconzRest.Lib.Crc
import DeconzRest.Lib.MatyasMeyerOseas

/-!
# `CRYPTO_GetMmoHashFromInstallCode`

An install code is given in hexadecimal digits, with two octets of a checksum behind it.  The
checksum is put right and the whole is hashed.  The block cipher, AES with a key of 128 bits, is a
parameter; there is none where the library for it cannot be opened.
-/

namespace DeconzRest
namespace Crypto

open List

/-- `AES_BLOCK_SIZE` octets -/
abbrev AesBlock := Mmo.Block 16

/-- The block cipher; the key comes first. -/
abbrev Aes := AesBlock → AesBlock → AesBlock

/-! ## The code -/

/-- `aesMmoHash`; `none` is reading behind the data. -/
def aesMmoHash (aes : Aes) (result : AesBlock) (data : List UInt8) (dataSize : Nat) :
    Option AesBlock :=
  if 16 ≤ dataSize then
    match Mmo.block? 16 data with
    | none => none
    | some block =>
      aesMmoHash aes (Mmo.xor (aes result block) block) (data.drop 16) (dataSize - 16)
  else some result
termination_by dataSize

/-- `CRC_POLY` -/
def crcPoly : BitVec 16 := 0x8408

/-- The inner loop of `ccit_crc16`, with the number of turns that are left -/
def crcOctet : Nat → BitVec 16 → Nat → BitVec 16
  | 0, crc, _ => crc
  | i + 1, crc, data =>
    crcOctet i (if crc.getLsbD 0 ^^ data.testBit 0 then (crc >>> 1) ^^^ crcPoly else crc >>> 1)
      (data >>> 1)

/-- `ccit_crc16` -/
def ccitCrc16 (data : List UInt8) : BitVec 16 :=
  ~~~ data.foldl (fun crc octet => crcOctet 8 crc octet.toNat) 0xFFFF

def hexDigit (ch : UInt8) : Option UInt8 :=
  if 0x30 ≤ ch ∧ ch ≤ 0x39 then some (ch - 0x30)
  else if 0x41 ≤ ch ∧ ch ≤ 0x46 then some (ch - 0x41 + 10)
  else if 0x61 ≤ ch ∧ ch ≤ 0x66 then some (ch - 0x61 + 10)
  else none

def readOctets : List UInt8 → Option (List UInt8)
  | a :: b :: rest => do
      let high ← hexDigit a
      let low ← hexDigit b
      let data ← readOctets rest
      return (((0 ||| (high &&& 0xF)) <<< 4) ||| (low &&& 0xF)) :: data
  | _ => some []

/-- The checksum behind the data is put right. -/
def correctCrc (data : List UInt8) : List UInt8 :=
  let dataLength := data.length
  let crc := ccitCrc16 (data.take (dataLength - 2))
  let crcLo := UInt8.ofNat (crc.toNat &&& 0xFF)
  let crcHi := UInt8.ofNat ((crc.toNat >>> 8) &&& 0xFF)
  if data.getD (dataLength - 1) 0 ≠ crcHi ∨ data.getD (dataLength - 2) 0 ≠ crcLo then
    (data.set (dataLength - 1) crcHi).set (dataLength - 2) crcLo
  else data

/-- The loop over the whole blocks, with the position and the length of what is left -/
def hashBlocks (aes : Aes) (data : List UInt8) (hashResult : AesBlock) (pos moreDataLength : Nat) :
    Option (AesBlock × Nat × Nat) :=
  if 16 ≤ moreDataLength then
    match aesMmoHash aes hashResult (data.drop pos) data.length with
    | none => none
    | some hashResult => hashBlocks aes data hashResult (pos + 16) (moreDataLength - 16)
  else some (hashResult, pos, moreDataLength)
termination_by moreDataLength

def putLength (temp : List UInt8) (dataLength : Nat) : List UInt8 :=
  (temp.set 14 (UInt8.ofNat ((dataLength >>> 5) &&& 0xFF))).set 15
    (UInt8.ofNat ((dataLength <<< 3) &&& 0xFF))

def hashRest (aes : Aes) (data : List UInt8) (hashResult : AesBlock) (pos moreDataLength : Nat) :
    Option AesBlock :=
  let temp := (data.drop pos).take moreDataLength ++ 0x80 ::
    List.replicate (16 - (moreDataLength + 1)) 0
  if 16 - moreDataLength < 3 then
    match aesMmoHash aes hashResult temp 16 with
    | none => none
    | some hashResult =>
      aesMmoHash aes hashResult (putLength (List.replicate 16 0) data.length) 16
  else aesMmoHash aes hashResult (putLength temp data.length) 16

def hashData (aes : Aes) (data : List UInt8) : Option AesBlock :=
  match hashBlocks aes data (Mmo.zero 16) 0 data.length with
  | none => none
  | some (hashResult, pos, moreDataLength) => hashRest aes data hashResult pos moreDataLength

/-- `CRYPTO_GetMmoHashFromInstallCode`; `none` is `false`. -/
def getMmoHashFromInstallCode (libCrypto : Option Aes) (hexString : List UInt8) : Option AesBlock :=
  match libCrypto with
  | none => none
  | some aes =>
    if hexString.length &&& 1 = 1 then none -- must be even number
    else
      let icLength := hexString.length % 2 ^ 32 / 2 -- a cast to `unsigned`
      -- the valid sizes, plus 2 octets for the checksum
      if icLength = 6 + 2 ∨ icLength = 8 + 2 ∨ icLength = 12 + 2 ∨ icLength = 16 + 2 then
        match readOctets (hexString.take (icLength * 2)) with
        | none => none -- not a hex digit
        | some data => hashData aes (correctCrc data)
      else none

def x25 : CrcParams 16 where
  poly := 0x1021
  init := 0xFFFF
  refIn := true
  refOut := true
  xorOut := 0xFFFF

theorem crcOctet_eq (i : Nat) (crc : BitVec 16) (data : Nat) :
    crcOctet i crc data =
      ((List.range i).map data.testBit).foldl (CrcParams.shiftInLow crcPoly) crc := by
  induction i generalizing crc data with
  | zero => rfl
  | succ i ih =>
    have hshift : (data >>> 1).testBit = data.testBit ∘ Nat.succ := by
      funext j
      rw [Nat.testBit_shiftRight, Function.comp_apply, Nat.add_comm]
    rw [crcOctet, ih, range_succ_eq_map, map_cons, foldl_cons, map_map, hshift]
    rfl

theorem octetBits_low (octet : UInt8) :
    CrcParams.octetBits true octet = (List.range 8).map octet.toNat.testBit := rfl

theorem ccitCrc16_eq (data : List UInt8) : ccitCrc16 data = x25.crc data := by
  have hpoly : x25.poly.reverse = crcPoly := by decide
  have hinit : x25.init.reverse = 0xFFFF := by decide
  have hocts : (fun crc octet => crcOctet 8 crc (UInt8.toNat octet)) = fun crc octet =>
      (CrcParams.octetBits true octet).foldl (CrcParams.shiftInLow crcPoly) crc := by
    funext crc octet
    rw [crcOctet_eq, octetBits_low]
  rw [CrcParams.crc_reflected rfl, hpoly, hinit, foldl_flatMap]
  unfold ccitCrc16
  rw [hocts]
  exact (BitVec.xor_allOnes).symm

def checkOctets (code : List UInt8) : List UInt8 :=
  [UInt8.ofNat ((x25.crc code).toNat % 256), UInt8.ofNat ((x25.crc code).toNat / 256)]

theorem correctCrc_append {code crc : List UInt8} (hcrc : crc.length = 2) :
    correctCrc (code ++ crc) = code ++ checkOctets code := by
  obtain ⟨low, high, rfl⟩ := length_eq_two.mp hcrc
  have hlast : (code ++ [low, high]).getD (code.length + 1) 0 = high := by
    simp [getD_eq_getElem?_getD]
  have hsecond : (code ++ [low, high]).getD code.length 0 = low := by
    simp [getD_eq_getElem?_getD]
  have hset (a b : UInt8) :
      ((code ++ [low, high]).set (code.length + 1) b).set code.length a = code ++ [a, b] := by
    simp
  have hlow : (x25.crc code).toNat &&& 0xFF = (x25.crc code).toNat % 256 :=
    Nat.and_two_pow_sub_one_eq_mod _ 8
  have hhigh : ((x25.crc code).toNat >>> 8) &&& 0xFF = (x25.crc code).toNat / 256 := by
    have hbound := (x25.crc code).isLt
    rw [Nat.shiftRight_eq_div_pow, Nat.and_two_pow_sub_one_eq_mod _ 8]
    omega
  have hlength : (code ++ [low, high]).length = code.length + 2 := List.length_append
  unfold correctCrc checkOctets
  simp only [hlength, Nat.add_sub_cancel, take_left, ccitCrc16_eq, hlow, hhigh, show code.length +
    2 - 1 = code.length + 1 from rfl, hlast, hsecond, hset]
  split
  · rfl
  · rename_i hright
    rw [not_or, not_ne_iff, not_ne_iff] at hright
    rw [hright.1, hright.2]

/-! ## The hash -/

variable (aes : Aes)

theorem aesMmoHash_length (result : AesBlock) (data : List UInt8) :
    aesMmoHash aes result data data.length = some (Mmo.hashFrom aes result data) := by
  induction hlength : data.length using Nat.strong_induction_on generalizing result data with
  | _ length ih =>
    subst hlength
    rw [aesMmoHash]
    by_cases hblock : 16 ≤ data.length
    · obtain ⟨block, rest, rfl⟩ := Mmo.exists_block hblock
      rw [Mmo.length_append] at ih
      rw [if_pos hblock, Mmo.block?_append, Mmo.drop_append, Mmo.length_append,
        Nat.add_sub_cancel_left, Mmo.hashFrom_block aes result (by decide)]
      exact ih rest.length (by omega) _ rest rfl
    · rw [if_neg hblock, Mmo.hashFrom_of_lt aes result (by omega)]

variable {data : List UInt8}

theorem hashBlocks_eq (result : AesBlock) (hshort : data.length < 32) :
    hashBlocks aes data result 0 data.length =
      some (Mmo.hashFrom aes result data, 16 * (data.length / 16), data.length % 16) := by
  have hend (result : AesBlock) (pos : Nat) {more : Nat} (hmore : more < 16) :
      hashBlocks aes data result pos more = some (result, pos, more) := by
    rw [hashBlocks, if_neg (by omega)]
  by_cases hblock : 16 ≤ data.length
  · have hquotient : data.length / 16 = 1 := by omega
    have hrest : data.length % 16 = data.length - 16 := by omega
    rw [hashBlocks, if_pos hblock, drop_zero, aesMmoHash_length, hquotient, hrest]
    exact hend _ _ (by omega)
  · rw [hend _ _ (by omega), Mmo.hashFrom_of_lt aes result (by omega), Nat.div_eq_of_lt (by omega),
      Nat.mod_eq_of_lt (by omega)]

theorem putLength_append {front : List UInt8} (hfront : front.length = 14) (a b : UInt8)
    (dataLength : Nat) :
    putLength (front ++ [a, b]) dataLength = front ++ Mmo.lengthOctets dataLength := by
  have hoctet (n : Nat) : UInt8.ofNat (n &&& 0xFF) = UInt8.ofNat n := by
    rw [Nat.and_two_pow_sub_one_eq_mod n 8]
    exact UInt8.ofNat_mod_size
  have hhigh : dataLength >>> 5 = 8 * dataLength / 256 := by
    rw [Nat.shiftRight_eq_div_pow]
    omega
  have hlow : dataLength <<< 3 = 8 * dataLength := by
    rw [Nat.shiftLeft_eq]
    omega
  unfold putLength Mmo.lengthOctets
  rw [hoctet, hoctet, hhigh, hlow]
  simp [hfront]

theorem aesMmoHash_one (result : AesBlock) (hblock : data.length = 16) :
    aesMmoHash aes result data 16 = some (Mmo.hashFrom aes result data) := by
  have hall := aesMmoHash_length aes result data
  rwa [hblock] at hall

theorem hashRest_eq (result : AesBlock) {pos : Nat}
    (hpos : (data.drop pos).length = data.length % 16) :
    hashRest aes data result pos (data.length % 16) =
      some (Mmo.hashFrom aes result (data.drop pos ++ 0x80 ::
        (List.replicate (Mmo.fill 16 data.length) 0 ++ Mmo.lengthOctets data.length))) := by
  have hmore : data.length % 16 < 16 := Nat.mod_lt _ (by decide)
  have htake : (data.drop pos).take (data.length % 16) = data.drop pos :=
    take_of_length_le hpos.le
  generalize hleft : data.drop pos = left at hpos htake
  have hlengthOctets : (Mmo.lengthOctets data.length).length = 2 := rfl
  have hfill : Mmo.fill 16 data.length = (16 - (data.length + 3) % 16) % 16 := rfl
  unfold hashRest
  simp only [hleft, htake]
  by_cases hextra : 16 - data.length % 16 < 3
  · -- the length does not fit behind the 1 bit
    have hzeros : Mmo.fill 16 data.length = (16 - (data.length % 16 + 1)) + 14 := by omega
    have htemp : (left ++ 0x80 :: List.replicate (16 - (data.length % 16 + 1)) 0).length = 16 := by
      rw [List.length_append, length_cons, length_replicate]
      omega
    have hlast : putLength (List.replicate 16 0) data.length = List.replicate 14 0 ++
        Mmo.lengthOctets data.length :=
      putLength_append (length_replicate (a := 0)) 0 0 data.length
    rw [if_pos hextra, aesMmoHash_one aes result htemp, hlast]
    simp only []
    rw [aesMmoHash_one aes _ (by rw [List.length_append, length_replicate, hlengthOctets]),
      ← Mmo.hashFrom_append aes result (by decide) (by rw [htemp]), hzeros,
      ← replicate_append_replicate]
    simp only [append_assoc, cons_append]
  · have hzeros : 16 - (data.length % 16 + 1) = Mmo.fill 16 data.length + 2 := by omega
    have hfront : (left ++ 0x80 :: List.replicate (Mmo.fill 16 data.length) 0).length = 14 := by
      rw [List.length_append, length_cons, length_replicate]
      omega
    have htemp : left ++ 0x80 :: List.replicate (16 - (data.length % 16 + 1)) 0 =
        (left ++ 0x80 :: List.replicate (Mmo.fill 16 data.length) 0) ++ [0, 0] := by
      rw [hzeros, ← replicate_append_replicate]
      simp only [append_assoc, cons_append]
      rfl
    rw [if_neg hextra, htemp, putLength_append hfront, aesMmoHash_one aes result
      (by rw [List.length_append, hfront, hlengthOctets])]
    simp only [append_assoc, cons_append]

theorem hashData_eq (hshort : data.length < 32) : hashData aes data = some (Mmo.hash aes data) := by
  have hleft : (data.drop (16 * (data.length / 16))).length = data.length % 16 := by
    rw [length_drop]
    omega
  have hwhole : 16 ∣ (data.take (16 * (data.length / 16))).length := by
    rw [length_take_of_le (by omega)]
    exact Nat.dvd_mul_right ..
  have hpad : Mmo.pad 16 data = data.take (16 * (data.length / 16)) ++
      (data.drop (16 * (data.length / 16)) ++ 0x80 ::
        (List.replicate (Mmo.fill 16 data.length) 0 ++ Mmo.lengthOctets data.length)) := by
    rw [← append_assoc, take_append_drop]
    rfl
  unfold hashData Mmo.hash
  rw [hashBlocks_eq aes _ hshort, hpad, Mmo.hashFrom_append aes _ (by decide) hwhole,
    Mmo.hashFrom_take aes _ (by decide)]
  exact hashRest_eq aes _ hleft

def smallDigits : List UInt8 := "0123456789abcdef".toList.map fun ch => UInt8.ofNat ch.toNat

def capitalDigits : List UInt8 := "0123456789ABCDEF".toList.map fun ch => UInt8.ofNat ch.toNat

def IsHexDigit (ch value : UInt8) : Prop :=
  smallDigits[value.toNat]? = some ch ∨ capitalDigits[value.toNat]? = some ch

/-- A text gives octets in hexadecimal digits, in any letter case. -/
inductive Spells : List UInt8 → List UInt8 → Prop
  | nil : Spells [] []
  | octet {a b high low : UInt8} {text data : List UInt8} :
      IsHexDigit a high → IsHexDigit b low → Spells text data →
        Spells (a :: b :: text) ((16 * high + low) :: data)

theorem Spells.length_eq {text data : List UInt8} (hspells : Spells text data) :
    text.length = 2 * data.length := by
  induction hspells with
  | nil => rfl
  | octet _ _ _ ih =>
    rw [length_cons, length_cons, length_cons, ih]
    omega

theorem hexDigit_eq_some_iff (ch value : UInt8) :
    hexDigit ch = some value ↔ IsHexDigit ch value := by
  have hread : ∀ n < 256, ∀ value ∈ hexDigit (UInt8.ofNat n), smallDigits[value.toNat]? =
      some (UInt8.ofNat n) ∨ capitalDigits[value.toNat]? = some (UInt8.ofNat n) := by decide +kernel
  have hspelled : ∀ n < 16, smallDigits[n]?.bind hexDigit = some (UInt8.ofNat n) ∧
      capitalDigits[n]?.bind hexDigit = some (UInt8.ofNat n) := by decide +kernel
  constructor
  · intro hdigit
    rw [← UInt8.ofNat_toNat (x := ch)] at hdigit ⊢
    exact hread ch.toNat ch.toNat_lt value hdigit
  · rintro (hsmall | hcapital)
    · have hvalue : value.toNat < 16 := (List.getElem?_eq_some_iff.mp hsmall).1
      have hdigit := (hspelled value.toNat hvalue).1
      rwa [hsmall, Option.bind_some, UInt8.ofNat_toNat] at hdigit
    · have hvalue : value.toNat < 16 := (List.getElem?_eq_some_iff.mp hcapital).1
      have hdigit := (hspelled value.toNat hvalue).2
      rwa [hcapital, Option.bind_some, UInt8.ofNat_toNat] at hdigit

theorem IsHexDigit.lt {ch value : UInt8} (hdigit : IsHexDigit ch value) : value.toNat < 16 := by
  obtain hsmall | hcapital := hdigit
  · exact (List.getElem?_eq_some_iff.mp hsmall).1
  · exact (List.getElem?_eq_some_iff.mp hcapital).1

theorem pack_digits {high low : UInt8} (hhigh : high.toNat < 16) (hlow : low.toNat < 16) :
    ((0 ||| (high &&& 0xF)) <<< 4) ||| (low &&& 0xF) = 16 * high + low := by
  have hall : ∀ i < 16, ∀ j < 16,
      ((0 ||| (UInt8.ofNat i &&& 0xF)) <<< 4) ||| (UInt8.ofNat j &&& 0xF) = 16 * UInt8.ofNat i +
        UInt8.ofNat j := by decide +kernel
  have hpair := hall high.toNat hhigh low.toNat hlow
  rwa [UInt8.ofNat_toNat, UInt8.ofNat_toNat] at hpair

theorem readOctets_of_spells {text data : List UInt8} (hspells : Spells text data) :
    readOctets text = some data := by
  induction hspells with
  | nil => rfl
  | octet ha hb _ ih =>
    have hpack := pack_digits ha.lt hb.lt
    rw [readOctets, (hexDigit_eq_some_iff ..).mpr ha, (hexDigit_eq_some_iff ..).mpr hb, ih, ← hpack]
    rfl

theorem spells_of_readOctets {text data : List UInt8} (heven : 2 ∣ text.length)
    (hread : readOctets text = some data) : Spells text data := by
  induction text using readOctets.induct generalizing data with
  | case1 a b rest ih =>
    rw [readOctets] at hread
    simp only [Option.bind_eq_bind, Option.bind_eq_some_iff] at hread
    obtain ⟨high, hhigh, low, hlow, octets, hoctets, hdata⟩ := hread
    have ha := (hexDigit_eq_some_iff ..).mp hhigh
    have hb := (hexDigit_eq_some_iff ..).mp hlow
    rw [← Option.some.inj hdata, pack_digits ha.lt hb.lt]
    rw [length_cons, length_cons] at heven
    exact .octet ha hb (ih (by omega) hoctets)
  | case2 text hshort =>
    match text, hshort with
    | [], _ =>
      rw [← Option.some.inj hread]
      exact .nil
    | [a], _ => exact absurd heven (show ¬2 ∣ 1 by decide)
    | a :: b :: rest, hshort => exact absurd rfl (hshort a b rest)

def codeLengths : List Nat := [6, 8, 12, 16]

/-- A text gives a hash exactly if it spells an install code and two octets behind it; the hash is
that of the code and its check.  The text comes from a `QString`, whose length is an `int`. -/
theorem getMmoHashFromInstallCode_eq_some_iff (aes : Aes) {hexString : List UInt8}
    (hsize : hexString.length < 2 ^ 32) (hash : AesBlock) :
    getMmoHashFromInstallCode (some aes) hexString = some hash ↔ ∃ code crc, code.length ∈
      codeLengths ∧ crc.length = 2 ∧ Spells hexString (code ++ crc) ∧ hash =
        Mmo.hash aes (code ++ checkOctets code) := by
  have hodd : hexString.length &&& 1 = hexString.length % 2 := Nat.and_one_is_mod _
  have htake : hexString.take (hexString.length / 2 * 2) = hexString ∨ hexString.length % 2 =
      1 := by
    obtain heven | hone := Nat.mod_two_eq_zero_or_one hexString.length
    · exact .inl (take_of_length_le (by omega))
    · exact .inr hone
  unfold getMmoHashFromInstallCode codeLengths
  simp only [hodd, Nat.mod_eq_of_lt hsize, mem_cons, not_mem_nil, or_false]
  constructor
  · intro hhash
    split at hhash
    · exact nomatch hhash
    rename_i heven
    split at hhash
    · rename_i hlengths
      rw [htake.resolve_right heven] at hhash
      split at hhash
      · exact nomatch hhash
      · rename_i data hread
        have hspells := spells_of_readOctets (by omega) hread
        have hlength := hspells.length_eq
        have hcrc : (data.drop (data.length - 2)).length = 2 := by
          rw [length_drop]
          omega
        have hcode : (data.take (data.length - 2)).length = data.length - 2 :=
          length_take_of_le (by omega)
        have hsplit : data.take (data.length - 2) ++ data.drop (data.length - 2) = data :=
          take_append_drop _ data
        refine ⟨data.take (data.length - 2), data.drop (data.length - 2), ?_, hcrc, ?_, ?_⟩
        · omega
        · rwa [hsplit]
        · rw [← hsplit, correctCrc_append hcrc, hashData_eq aes] at hhash
          · exact (Option.some.inj hhash).symm
          · rw [List.length_append, hcode]
            show data.length - 2 + 2 < 32
            omega
    · exact nomatch hhash
  · rintro ⟨code, crc, hcode, hcrc, hspells, rfl⟩
    have hlength := hspells.length_eq
    rw [List.length_append] at hlength
    rw [if_neg (by omega), if_pos (by omega), htake.resolve_right (by omega),
      readOctets_of_spells hspells]
    simp only []
    rw [correctCrc_append hcrc, hashData_eq aes]
    rw [List.length_append]
    show code.length + 2 < 32
    omega

def allianceExample : List UInt8 :=
  "83FED3407A939723A5C639FF4C12".toList.map fun ch => UInt8.ofNat ch.toNat

theorem allianceExample_hashed :
    getMmoHashFromInstallCode (some Mmo.xor) allianceExample = some (Mmo.hash Mmo.xor
      ([0x83, 0xFE, 0xD3, 0x40, 0x7A, 0x93, 0x97, 0x23, 0xA5, 0xC6, 0x39, 0xFF] ++
        checkOctets [0x83, 0xFE, 0xD3, 0x40, 0x7A, 0x93, 0x97, 0x23, 0xA5, 0xC6, 0x39, 0xFF])) :=
  (getMmoHashFromInstallCode_eq_some_iff Mmo.xor (by decide) _).mpr
    ⟨_, [0x4C, 0x12], by decide, rfl, spells_of_readOctets (by decide) (by decide), rfl⟩

end Crypto
end DeconzRest

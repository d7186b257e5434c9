import DeconzRest.Alarm.DeviceTable
import DeconzRest.Lib.LittleEndian

/-!
# Unique ids

`generateUniqueId` prints the MAC address, the endpoint and the cluster, the last two only if they
are there; `extAddressFromUniqueId` and `endpointFromUniqueId` read the first two back.
-/

namespace DeconzRest

open QString List

/-- A digit of `%x` -/
def lowerHex (d : Nat) : UInt8 := if d < 10 then UInt8.ofNat (0x30 + d) else UInt8.ofNat (0x57 + d)

/-- `%0{width}x` of a number that has no more digits -/
def printHex : Nat → Nat → List UInt8
  | 0, _ => []
  | width + 1, n => printHex width (n / 16) ++ [lowerHex (n % 16)]

/-- `%02x:%02x: …` of some bytes -/
def printBytes : List UInt8 → List UInt8
  | [] => []
  | [b] => printHex 2 b.toNat
  | b :: rest => printHex 2 b.toNat ++ 0x3A :: printBytes rest

/-- The bytes of the MAC address, `a.bytes[7]` first. -/
def macBytes (extAddress : UInt64) : List UInt8 := (writeLE 8 extAddress.toNat).reverse

def uniqueIdParts (endpoint : UInt8) (clusterId : UInt16) : List UInt8 :=
  if clusterId ≠ 0 ∧ endpoint ≠ 0xf2 then
    0x2D :: printHex 2 endpoint.toNat ++ 0x2D :: printHex 4 clusterId.toNat
  else if endpoint ≠ 0 then 0x2D :: printHex 2 endpoint.toNat
  else []

/-- `generateUniqueId` -/
def generateUniqueId (extAddress : UInt64) (endpoint : UInt8) (clusterId : UInt16) : QString :=
  let buf := printBytes (macBytes extAddress) ++ uniqueIdParts endpoint clusterId
  if 64 ≤ buf.length then [] else ofLatin1Octets buf

/-- `endpointFromUniqueId` -/
def endpointFromUniqueId (uniqueId : QString) : Nat :=
  if uniqueId.length < 26 then 0
  else if uniqueId[23]? ≠ some 0x2D then 0
  else
    let buf := ((uniqueId.drop 24).take 2).map toLatin1
    if buf.all isHexChar then hexValue buf else 0

theorem lowerHex_spec : ∀ d < 16, isHexChar (lowerHex d) = true ∧
    Qt.hexDigit (lowerHex d).toUInt16 = d ∧ (lowerHex d).toUInt16 ≠ 0x3A := by
  decide

theorem toLatin1_toUInt16 (c : UInt8) : toLatin1 c.toUInt16 = c := by
  unfold toLatin1
  rw [UInt8.toNat_toUInt16, if_pos c.toNat_lt, UInt8.toUInt8_toUInt16]

theorem length_printHex (width n : Nat) : (printHex width n).length = width := by
  induction width generalizing n with
  | zero => rfl
  | succ width ih => rw [printHex, List.length_append, ih, length_singleton]

theorem isHexChar_of_mem {width n : Nat} {c : UInt8} (h : c ∈ printHex width n) :
    isHexChar c = true := by
  induction width generalizing n with
  | zero => exact absurd h not_mem_nil
  | succ width ih =>
    rcases mem_append.mp h with hfront | hlast
    · exact ih hfront
    · rw [mem_singleton.mp hlast]
      exact (lowerHex_spec _ (Nat.mod_lt n (by decide))).1

theorem hexValue_append (xs : List UInt8) (c : UInt8) :
    hexValue (xs ++ [c]) = 16 * hexValue xs + Qt.hexDigit c.toUInt16 := by
  unfold hexValue
  rw [foldl_append]
  rfl

theorem hexValue_append_printHex (xs : List UInt8) {width n : Nat} (h : n < 16 ^ width) :
    hexValue (xs ++ printHex width n) = 16 ^ width * hexValue xs + n := by
  induction width generalizing n with
  | zero =>
    rw [printHex, append_nil, Nat.pow_zero, Nat.one_mul, Nat.lt_one_iff.mp h, Nat.add_zero]
  | succ width ih =>
    rw [Nat.pow_succ] at h
    rw [printHex, ← append_assoc, hexValue_append, ih (Nat.div_lt_of_lt_mul (by omega)),
      (lowerHex_spec _ (Nat.mod_lt n (by decide))).2.1, Nat.pow_succ, Nat.mul_add,
      Nat.mul_comm (16 ^ width) 16, Nat.mul_assoc]
    omega

theorem hexValue_printHex {width n : Nat} (h : n < 16 ^ width) :
    hexValue (printHex width n) = n := by
  have happend := hexValue_append_printHex [] h
  rw [nil_append] at happend
  rw [happend]
  show 16 ^ width * 0 + n = n
  omega

theorem printHex_inj {width m n : Nat} (hm : m < 16 ^ width) (hn : n < 16 ^ width)
    (h : printHex width m = printHex width n) : m = n := by
  rw [← hexValue_printHex hm, h, hexValue_printHex hn]

theorem ofLatin1Octets_append (xs ys : List UInt8) :
    ofLatin1Octets (xs ++ ys) = ofLatin1Octets xs ++ ofLatin1Octets ys :=
  map_append

theorem length_printBytes {bytes : List UInt8} (h : bytes ≠ []) :
    (printBytes bytes).length + 1 = 3 * bytes.length := by
  induction bytes with
  | nil => exact absurd rfl h
  | cons b rest ih =>
    cases rest with
    | nil => rw [printBytes, length_printHex]; rfl
    | cons c rest =>
      have hrest := ih (cons_ne_nil c rest)
      rw [printBytes, List.length_append, length_printHex, length_cons, length_cons]
      · omega
      · exact fun hnil => absurd hnil (cons_ne_nil c rest)

theorem collectHex_printHex (n : Nat) (rest : QString) {buf : List UInt8}
    (h : buf.length + 2 ≤ 16) :
    collectHex (ofLatin1Octets (printHex 2 n) ++ rest) buf = if buf.length + 2 =
      16 then some (buf ++ printHex 2 n)
      else collectHex rest (buf ++ printHex 2 n) := by
  obtain ⟨hfirst, -, hcolon⟩ := lowerHex_spec (n / 16 % 16) (Nat.mod_lt _ (by decide))
  obtain ⟨hsecond, -, hcolon'⟩ := lowerHex_spec (n % 16) (Nat.mod_lt _ (by decide))
  have hprint : printHex 2 n = [lowerHex (n / 16 % 16), lowerHex (n % 16)] := rfl
  rw [hprint]
  show collectHex
    ((lowerHex (n / 16 % 16)).toUInt16 :: (lowerHex (n % 16)).toUInt16 :: rest) buf = _
  rw [collectHex, if_neg hcolon, toLatin1_toUInt16, if_neg (not_not.mpr hfirst), if_neg (by omega),
    collectHex, if_neg hcolon', toLatin1_toUInt16,
    if_neg (not_not.mpr hsecond), append_assoc, List.length_append]
  rfl

theorem collectHex_printBytes {bytes : List UInt8} (hne : bytes ≠ []) (rest : QString)
    {buf : List UInt8} (h : buf.length + 2 * bytes.length = 16) :
    collectHex (ofLatin1Octets (printBytes bytes) ++ rest) buf =
      some (buf ++ bytes.flatMap fun b => printHex 2 b.toNat) := by
  induction bytes generalizing buf with
  | nil => exact absurd rfl hne
  | cons b bytes ih =>
    rw [length_cons] at h
    cases bytes with
    | nil =>
      have hfull : buf.length + 2 = 16 := h
      rw [printBytes, collectHex_printHex _ _ (Nat.le_of_eq hfull), if_pos hfull, flatMap_singleton]
    | cons c bytes =>
      rw [length_cons] at h
      rw [printBytes, ofLatin1Octets_append, append_assoc, collectHex_printHex _ _ (by omega),
        if_neg (by omega)]
      -- the colon between two bytes is skipped
      · show collectHex
          (0x3A :: (ofLatin1Octets (printBytes (c :: bytes)) ++ rest)) _ = _
        rw [collectHex, if_pos rfl, ih (cons_ne_nil c bytes), append_assoc]
        · rfl
        · rw [List.length_append, length_printHex, length_cons]
          omega
      · exact fun hnil => absurd hnil (cons_ne_nil c bytes)

theorem hexValue_writeLE (size n : Nat) :
    hexValue ((writeLE size n).reverse.flatMap fun b => printHex 2 b.toNat) = n % 256 ^ size := by
  induction size generalizing n with
  | zero => rw [Nat.pow_zero, Nat.mod_one]; rfl
  | succ size ih =>
    have hbyte : (UInt8.ofNat (n % 256)).toNat = n % 256 := by
      rw [UInt8.toNat_ofNat']
      exact Nat.mod_mod n 256
    rw [writeLE, reverse_cons, flatMap_append, flatMap_singleton, hbyte,
      hexValue_append_printHex _ (Nat.mod_lt n (by decide) : n % 256 < 16 ^ 2), ih,
      Nat.pow_succ 256 size, Nat.mul_comm (256 ^ size) 256, Nat.mod_mul]
    omega

/-! ## The unique id -/

variable (extAddress : UInt64) (endpoint : UInt8) (clusterId : UInt16)

theorem macBytes_ne_nil : macBytes extAddress ≠ [] := by
  intro hnil
  have hlength := congrArg List.length hnil
  unfold macBytes at hlength
  rw [length_reverse, length_writeLE] at hlength
  exact absurd hlength (by decide)

theorem length_mac : (printBytes (macBytes extAddress)).length = 23 := by
  have hlength := length_printBytes (macBytes_ne_nil extAddress)
  unfold macBytes at hlength ⊢
  rw [length_reverse, length_writeLE] at hlength
  omega

theorem uniqueIdParts_cases :
    (clusterId ≠ 0 ∧ endpoint ≠ 0xf2 ∧ uniqueIdParts endpoint clusterId = 0x2D ::
        printHex 2 endpoint.toNat ++ 0x2D :: printHex 4 clusterId.toNat) ∨
      (¬ (clusterId ≠ 0 ∧ endpoint ≠ 0xf2) ∧ endpoint ≠ 0 ∧ uniqueIdParts endpoint clusterId =
        0x2D :: printHex 2 endpoint.toNat) ∨
      (clusterId = 0 ∧ endpoint = 0 ∧ uniqueIdParts endpoint clusterId = []) := by
  unfold uniqueIdParts
  by_cases hcluster : clusterId ≠ 0 ∧ endpoint ≠ 0xf2
  · exact .inl ⟨hcluster.1, hcluster.2, if_pos hcluster⟩
  · rw [if_neg hcluster]
    by_cases hendpoint : endpoint ≠ 0
    · exact .inr (.inl ⟨hcluster, hendpoint, if_pos hendpoint⟩)
    · have hzero : endpoint = 0 := not_not.mp hendpoint
      refine .inr (.inr ⟨?_, hzero, if_neg hendpoint⟩)
      refine not_not.mp fun hne => hcluster ⟨hne, ?_⟩
      rw [hzero]
      decide

theorem length_uniqueIdParts : (uniqueIdParts endpoint clusterId).length ≤ 8 := by
  rcases uniqueIdParts_cases endpoint clusterId with ⟨-, -, h⟩ | ⟨-, -, h⟩ | ⟨-, -, h⟩
  · rw [h, List.length_append, length_cons, length_cons, length_printHex, length_printHex]
  · rw [h, length_cons, length_printHex]
    decide
  · rw [h]
    decide

theorem generateUniqueId_eq : generateUniqueId extAddress endpoint clusterId =
    ofLatin1Octets (printBytes (macBytes extAddress) ++ uniqueIdParts endpoint clusterId) := by
  have hparts := length_uniqueIdParts endpoint clusterId
  have hmac := length_mac extAddress
  unfold generateUniqueId
  refine if_neg ?_
  rw [List.length_append]
  omega

theorem length_generateUniqueId : (generateUniqueId extAddress endpoint clusterId).length = 23 +
    (uniqueIdParts endpoint clusterId).length := by
  rw [generateUniqueId_eq]
  unfold ofLatin1Octets
  rw [length_map, List.length_append, length_mac]

theorem extAddressFromUniqueId_generate :
    extAddressFromUniqueId (generateUniqueId extAddress endpoint clusterId) = extAddress.toNat := by
  unfold extAddressFromUniqueId
  rw [length_generateUniqueId, if_neg (by omega), generateUniqueId_eq, ofLatin1Octets_append,
    collectHex_printBytes (macBytes_ne_nil extAddress)]
  · show hexValue (_ ++ _) = _
    unfold macBytes
    rw [nil_append, hexValue_writeLE]
    exact Nat.mod_eq_of_lt extAddress.toNat_lt
  · unfold macBytes
    rw [length_reverse, length_writeLE]
    rfl

theorem endpointFromUniqueId_of_printed {mac : QString} (rest : QString)
    (hmac : mac.length = 23) :
    endpointFromUniqueId (mac ++ 0x2D ::
      (ofLatin1Octets (printHex 2 endpoint.toNat) ++ rest)) = endpoint.toNat := by
  have hprint : printHex 2 endpoint.toNat =
      [lowerHex (endpoint.toNat / 16 % 16), lowerHex (endpoint.toNat % 16)] := rfl
  have hhex : (printHex 2 endpoint.toNat).all isHexChar = true :=
    all_eq_true.mpr fun c hc => isHexChar_of_mem hc
  have hvalue : hexValue (printHex 2 endpoint.toNat) = endpoint.toNat :=
    hexValue_printHex endpoint.toNat_lt
  rw [hprint] at hhex hvalue ⊢
  unfold endpointFromUniqueId
  rw [List.length_append, hmac, if_neg, List.getElem?_append_right (Nat.le_of_eq hmac), hmac,
    Nat.sub_self, List.getElem?_cons_zero, if_neg (not_not.mpr rfl), List.drop_append, hmac,
    drop_of_length_le (Nat.le_trans (Nat.le_of_eq hmac) (by decide)), nil_append]
  · show (if ([_, _] : List UInt8).all isHexChar = true then hexValue [_, _] else 0) = _
    rw [toLatin1_toUInt16, toLatin1_toUInt16, if_pos hhex, hvalue]
  · unfold ofLatin1Octets
    rw [length_cons, List.length_append, length_map]
    show ¬ 23 + (2 + rest.length + 1) < 26
    omega

theorem endpointFromUniqueId_generate :
    endpointFromUniqueId (generateUniqueId extAddress endpoint clusterId) = endpoint.toNat := by
  have hlength : (ofLatin1Octets (printBytes (macBytes extAddress))).length = 23 :=
    (length_map _).trans (length_mac extAddress)
  have hprinted := fun rest => endpointFromUniqueId_of_printed endpoint rest hlength
  rcases uniqueIdParts_cases endpoint clusterId with ⟨-, -, h⟩ | ⟨-, -, h⟩ | ⟨-, hzero, h⟩
  · rw [generateUniqueId_eq, h, ofLatin1Octets_append]
    show endpointFromUniqueId (_ ++ 0x2D :: ofLatin1Octets (_ ++ _)) = _
    rw [ofLatin1Octets_append]
    exact hprinted _
  · rw [generateUniqueId_eq, h, ofLatin1Octets_append]
    show endpointFromUniqueId (_ ++ 0x2D :: ofLatin1Octets _) = _
    rw [← append_nil (ofLatin1Octets (printHex 2 endpoint.toNat))]
    exact hprinted []
  -- an endpoint of 0 is not printed, and 0 is read of an id without one
  · unfold endpointFromUniqueId
    rw [length_generateUniqueId, h, if_pos (by decide), hzero]
    rfl

variable {endpoint clusterId} in
theorem uniqueIdParts_inj {clusterId' : UInt16} (hendpoint : endpoint ≠ 0xf2)
    (h : uniqueIdParts endpoint clusterId = uniqueIdParts endpoint clusterId') :
    clusterId = clusterId' := by
  have hlong : ∀ c : UInt16, c ≠ 0 → uniqueIdParts endpoint c = 0x2D :: printHex 2 endpoint.toNat ++
      0x2D :: printHex 4 c.toNat := fun c hc =>
    if_pos ⟨hc, hendpoint⟩
  have hshort : (uniqueIdParts endpoint 0).length ≤ 3 := by
    rcases uniqueIdParts_cases endpoint 0 with ⟨hzero, -, -⟩ | ⟨-, -, h⟩ | ⟨-, -, h⟩
    · exact absurd rfl hzero
    · rw [h, length_cons, length_printHex]
    · rw [h]
      decide
  -- an id with a cluster is longer than one without
  have hne : ∀ c : UInt16, c ≠ 0 → uniqueIdParts endpoint c ≠ uniqueIdParts endpoint 0 := by
    intro c hc heq
    rw [← heq, hlong c hc, List.length_append, length_cons, length_cons, length_printHex,
      length_printHex] at hshort
    exact absurd hshort (by decide)
  by_cases hc : clusterId = 0
  · by_cases hc' : clusterId' = 0
    · rw [hc, hc']
    · rw [hc] at h
      exact absurd h.symm (hne clusterId' hc')
  · by_cases hc' : clusterId' = 0
    · rw [hc'] at h
      exact absurd h (hne clusterId hc)
    · rw [hlong _ hc, hlong _ hc', append_right_inj, cons_inj_right] at h
      exact UInt16.toNat.inj (printHex_inj clusterId.toNat_lt clusterId'.toNat_lt h)

/-- **Unique ids decode**: the MAC address and the endpoint are read back from every unique id, so
a unique id is made of one MAC address and one endpoint, and of one cluster where the endpoint is
not 0xf2. -/
theorem uniqueId_decodes :
    (∀ (extAddress : UInt64) (endpoint : UInt8) (clusterId : UInt16),
      extAddressFromUniqueId (generateUniqueId extAddress endpoint clusterId) = extAddress.toNat ∧
        endpointFromUniqueId (generateUniqueId extAddress endpoint clusterId) = endpoint.toNat) ∧
      ∀ (extAddress extAddress' : UInt64) (endpoint endpoint' : UInt8)
        (clusterId clusterId' : UInt16),
        generateUniqueId extAddress endpoint clusterId =
            generateUniqueId extAddress' endpoint' clusterId' →
          extAddress = extAddress' ∧ endpoint = endpoint' ∧
            (endpoint ≠ 0xf2 → clusterId = clusterId') := by
  refine ⟨fun extAddress endpoint clusterId =>
    ⟨extAddressFromUniqueId_generate _ _ _, endpointFromUniqueId_generate _ _ _⟩, ?_⟩
  intro extAddress extAddress' endpoint endpoint' clusterId clusterId' h
  have hext := extAddressFromUniqueId_generate extAddress endpoint clusterId
  rw [h, extAddressFromUniqueId_generate] at hext
  have hend := endpointFromUniqueId_generate extAddress endpoint clusterId
  rw [h, endpointFromUniqueId_generate] at hend
  obtain rfl := UInt64.toNat.inj hext
  obtain rfl := UInt8.toNat.inj hend
  refine ⟨rfl, rfl, fun hgp => uniqueIdParts_inj hgp ?_⟩
  rw [generateUniqueId_eq, generateUniqueId_eq, ofLatin1Octets_append, ofLatin1Octets_append,
    append_right_inj] at h
  exact map_injective_iff.mpr (fun a b hab => UInt8.toUInt16_inj.mp hab) h

/-- A unique id with a cluster decodes. -/
theorem uniqueId_decodes_sensor : generateUniqueId 0x00212EFFFF012345 1 0x0406 =
      generateUniqueId 0x00212EFFFF012345 1 0x0406 ∧
    extAddressFromUniqueId (generateUniqueId 0x00212EFFFF012345 1 0x0406) =
      (0x00212EFFFF012345 : UInt64).toNat ∧ (0x0406 : UInt16) = 0x0406 := by
  refine ⟨rfl, (uniqueId_decodes.1 _ _ _).1, ?_⟩
  exact (uniqueId_decodes.2 0x00212EFFFF012345 0x00212EFFFF012345 1 1 0x0406 0x0406 rfl).2.2
    (by decide)

end DeconzRest

import DeconzRest.Ddf.Policy
import DeconzRest.Ddf.UploadStored
import DeconzRest.Qt.Number

/-!
# When a policy request is durable

Requests keep the policy item and its row together, but the load of a bundle writes the hash item
alone.  A request that pins the bundle that is loaded finds its hash in the item and does not store
it: `policy_request_iff`.
-/

namespace DeconzRest
namespace Ddf
namespace Policy

open QString Transition List Option
open Json (ascii)
open StringWorld (atomList interns_atomList)

variable {T : Type} {table : DeconzRest.AtomTable T}

def Plain (value : List UInt8) : Prop := ∀ b ∈ value, 0x21 ≤ b.toNat ∧ b.toNat < 0x7F

instance (value : List UInt8) : Decidable (Plain value) :=
  inferInstanceAs (Decidable (∀ b ∈ value, _))

theorem Plain.not_mem_zero {value : List UInt8} (h : Plain value) : 0 ∉ value := by
  intro hzero
  exact absurd (h 0 hzero).1 (by decide)

theorem toUtf8_latin1 {value : List UInt8} (h : Plain value) : toUtf8 (latin1 value) = value := by
  induction value with
  | nil => rfl
  | cons b value ih =>
    obtain ⟨hb, hvalue⟩ := forall_mem_cons.mp h
    have hascii : b.toUInt16.toNat < 0x80 := by
      rw [UInt8.toNat_toUInt16]
      omega
    show toUtf8 (b.toUInt16 :: latin1 value) = _
    rw [toUtf8_cons_ascii hascii, ih hvalue, UInt8.toUInt8_toUInt16]

theorem trimmed_latin1 {value : List UInt8} (h : Plain value) :
    trimmed (latin1 value) = latin1 value := by
  apply trimmed_of_not_space
  intro c hc
  obtain ⟨b, hb, rfl⟩ := mem_map.mp hc
  have hplain := h b hb
  unfold isSpace
  rw [UInt8.toNat_toUInt16]
  simp
  omega

/-! ## Items that are kept as atoms -/

/-- The values of the item never go to its buffer. -/
structure AsAtom (rid : ResourceItemDescriptor) : Prop where
  type : rid.type = .string
  embedded : ∀ str, embedded rid str = false

theorem asAtom_of_suffix {rid : ResourceItemDescriptor} (htype : rid.type = .string)
    (hsuffix : rid.suffix.toList[0]? = some 'a') : AsAtom rid := by
  refine ⟨htype, fun str => ?_⟩
  unfold DeconzRest.embedded
  rw [hsuffix, decide_eq_false (p := some 'a' ≠ some 'a') fun h => h rfl, Bool.and_false,
    Bool.false_and]

theorem asAtom_policyRid : AsAtom policyRid := asAtom_of_suffix rfl (by decide)

theorem asAtom_hashRid : AsAtom hashRid := asAtom_of_suffix rfl (by decide)

/-- The item has the value. -/
structure Shows (table : DeconzRest.AtomTable T) (rid : ResourceItemDescriptor) (w : StringWorld T)
    (value : List UInt8) : Prop where
  plain : Plain value
  holds : StringWorld.Holds table rid w (latin1 value) []

variable {rid : ResourceItemDescriptor} {w : StringWorld T} {value : List UInt8}

theorem shows_new (atoms : T) : Shows table rid { atoms } [] :=
  ⟨forall_mem_nil _, ⟨rfl, rfl, .inl ⟨rfl, rfl⟩, fun _ => rfl⟩⟩

theorem shows_setValue (htable : table.Interns) (hrid : AsAtom rid) (h : Shows table rid w value)
    {value' : List UInt8} (hplain : Plain value') :
    Shows table rid (setValue table rid w value') value' := by
  have hset := StringWorld.holds_setValue h.holds htable hrid.type (latin1 value')
  rw [trimmed_latin1 hplain] at hset
  unfold StringWorld.noteEmbedded at hset
  simp only at hset
  rw [hrid.embedded, if_neg Bool.false_ne_true] at hset
  exact ⟨hplain, hset⟩

theorem shows_addAtom (htable : table.Interns) (h : Shows table rid w value)
    (octets : List UInt8) : Shows table rid (w.step table rid (.addAtom octets)) value :=
  ⟨h.plain, StringWorld.holds_addAtom h.holds htable octets⟩

theorem shows_setOther (htable : table.Interns) (h : Shows table rid w value)
    {rid' : ResourceItemDescriptor} (hrid : AsAtom rid') (item : StringItem)
    (value' : List UInt8) :
    Shows table rid ⟨w.item, (setValue table rid' ⟨item, w.atoms⟩ value').atoms⟩ value := by
  let str := toUtf8 (trimmed (latin1 value'))
  have hatoms : (setValue table rid' ⟨item, w.atoms⟩ value').atoms =
      (table.stringCacheAdd w.atoms str).2 := by
    unfold setValue StringWorld.setValue StringWorld.setItemString
    simp only
    rw [if_neg (not_not.mpr hrid.type), hrid.embedded, if_neg Bool.false_ne_true]
  rw [hatoms]
  unfold DeconzRest.AtomTable.stringCacheAdd
  split
  · exact h
  · have hstep := shows_addAtom htable h str
    unfold StringWorld.step at hstep
    simp only at hstep
    cases hadd : table.addAtom w.atoms str with
    | none =>
      rw [hadd] at hstep
      exact hstep
    | some added =>
      rw [hadd] at hstep
      exact hstep

theorem Shows.istr_eq (h : Shows table rid w value) : w.item.istr.octets = [] := h.holds.istr

theorem toLatin1String_of_shows (h : Shows table rid w value) : w.toLatin1String table = value := by
  have hutf8 := toUtf8_latin1 h.plain
  unfold StringWorld.toLatin1String
  rcases h.holds.place with ⟨hhandle, hbuffer⟩ | ⟨hhandle, hne, hatom⟩
  · rw [if_pos hhandle, hbuffer, hutf8]
    exact cString_eq_self_iff.mpr h.plain.not_mem_zero
  · rw [if_neg hhandle]
    unfold DeconzRest.AtomTable.stringCacheGet
    rw [if_neg hhandle, hatom, hutf8]
    cases value with
    | nil => exact absurd rfl hne
    | cons b value => rfl

theorem equalsString_of_shows (h : Shows table rid w value) {value' : List UInt8}
    (hne : value' ≠ []) :
    w.equalsString table value' (some value'.length) = true ↔ value = value' := by
  have hlength : 0 < value'.length := length_pos_iff.mpr hne
  have hutf8 := toUtf8_latin1 h.plain
  unfold StringWorld.equalsString
  simp only [getD_some]
  rcases h.holds.place with ⟨hhandle, hbuffer⟩ | ⟨hhandle, hsome, hatom⟩
  · rw [if_neg fun hplace => hplace.1 hhandle, h.istr_eq, if_neg (by rw [length_nil]; omega)]
    refine iff_of_false Bool.false_ne_true ?_
    rintro rfl
    rw [h.istr_eq, hutf8, cString_eq_self_iff.mpr h.plain.not_mem_zero] at hbuffer
    exact hne hbuffer.symm
  · rw [if_pos ⟨hhandle, hlength⟩]
    have hget : table.stringCacheGet w.atoms w.item.strHandle = some value := by
      unfold DeconzRest.AtomTable.stringCacheGet
      rw [if_neg hhandle, hatom, hutf8]
      cases value with
      | nil => exact absurd rfl hsome
      | cons b value => rfl
    rw [hget]
    simp only
    rw [Bool.and_eq_true, beq_iff_eq, beq_iff_eq, take_length]
    constructor
    · exact fun h => h.2.symm
    · rintro rfl
      exact ⟨rfl, rfl⟩

/-! ## Hashes -/

structure IsHash (value : List UInt8) : Prop where
  length_eq : value.length = 64
  digits : ∀ b ∈ value, lowerHexDigit b = some b

theorem lowerHexDigit_range {c d : UInt8} (h : lowerHexDigit c = some d) :
    0x30 ≤ d.toNat ∧ d.toNat ≤ 0x39 ∨ 0x61 ≤ d.toNat ∧ d.toNat ≤ 0x66 := by
  unfold lowerHexDigit at h
  split at h
  · rename_i hdigit
    rw [← some.inj h]
    exact .inl ⟨UInt8.le_iff_toNat_le.mp hdigit.1, UInt8.le_iff_toNat_le.mp hdigit.2⟩
  · split at h
    · rename_i hlower
      rw [← some.inj h]
      exact .inr ⟨UInt8.le_iff_toNat_le.mp hlower.1, UInt8.le_iff_toNat_le.mp hlower.2⟩
    · split at h
      · rename_i hupper
        have hfirst : 0x41 ≤ c.toNat := UInt8.le_iff_toNat_le.mp hupper.1
        have hlast : c.toNat ≤ 0x46 := UInt8.le_iff_toNat_le.mp hupper.2
        rw [← some.inj h, UInt8.toNat_add]
        show 0x30 ≤ (c.toNat + 32) % 256 ∧ _ ∨ 0x61 ≤ (c.toNat + 32) % 256 ∧ (c.toNat + 32) % 256 ≤
          0x66
        omega
      · cases h

theorem lowerHexDigit_self {d : UInt8}
    (h : 0x30 ≤ d.toNat ∧ d.toNat ≤ 0x39 ∨ 0x61 ≤ d.toNat ∧ d.toNat ≤ 0x66) :
    lowerHexDigit d = some d := by
  unfold lowerHexDigit
  rcases h with ⟨hfirst, hlast⟩ | ⟨hfirst, hlast⟩
  · exact if_pos ⟨UInt8.le_iff_toNat_le.mpr hfirst, UInt8.le_iff_toNat_le.mpr hlast⟩
  · have hdigit : ¬ (0x30 ≤ d ∧ d ≤ 0x39) := by
      rintro ⟨-, hle⟩
      have hle' : d.toNat ≤ 0x39 := UInt8.le_iff_toNat_le.mp hle
      omega
    rw [if_neg hdigit]
    exact if_pos ⟨UInt8.le_iff_toNat_le.mpr hfirst, UInt8.le_iff_toNat_le.mpr hlast⟩

theorem isHash_of_sanitize {str hash : List UInt8}
    (h : sanitizeBundleHashString str = some hash) : IsHash hash := by
  unfold sanitizeBundleHashString at h
  split at h
  · rename_i hlength
    have hall : ∀ {l l' : List UInt8}, l.mapM lowerHexDigit = some l' → l'.length = l.length ∧ ∀ b ∈
        l', lowerHexDigit b = some b := by
      intro l
      induction l with
      | nil =>
        intro l' h
        obtain rfl := some.inj h
        exact ⟨rfl, forall_mem_nil _⟩
      | cons c l ih =>
        intro l' h
        rw [mapM_cons] at h
        cases hc : lowerHexDigit c with
        | none =>
          rw [hc] at h
          cases h
        | some d =>
          cases hl : l.mapM lowerHexDigit with
          | none =>
            rw [hc, hl] at h
            cases h
          | some rest =>
            rw [hc, hl] at h
            obtain rfl := some.inj h
            obtain ⟨hlength, hdigits⟩ := ih hl
            exact ⟨congrArg (· + 1) hlength, forall_mem_cons.mpr
              ⟨lowerHexDigit_self (lowerHexDigit_range hc), hdigits⟩⟩
    obtain ⟨hsame, hdigits⟩ := hall h
    exact ⟨hsame.trans hlength, hdigits⟩
  · cases h

theorem IsHash.sanitize {value : List UInt8} (h : IsHash value) :
    sanitizeBundleHashString value = some value := by
  unfold sanitizeBundleHashString
  rw [if_pos h.length_eq, mapM_lowerHexDigit h.digits]

theorem IsHash.plain {value : List UInt8} (h : IsHash value) : Plain value := by
  intro b hb
  have hrange := lowerHexDigit_range (h.digits b hb)
  omega

theorem IsHash.ne_nil {value : List UInt8} (h : IsHash value) : value ≠ [] := by
  rintro rfl
  exact absurd h.length_eq (by decide)

theorem isHash_sha256 (sha256Hash : Sha256) : IsHash (toLowerHex (putHex sha256Hash.octets)) := by
  have hdigit : ∀ n < 16, (if 0x41 ≤ putHex.hexDigit n ∧ putHex.hexDigit n ≤ 0x46 then
      putHex.hexDigit n + 0x20 else putHex.hexDigit n) = binToHexAscii.hexDigit n := by decide
  have hsame : toLowerHex (putHex sha256Hash.octets) = binToHexAscii sha256Hash.octets := by
    unfold toLowerHex putHex binToHexAscii
    rw [map_flatMap]
    refine congrArg (fun f => List.flatMap f sha256Hash.octets) (funext fun b => ?_)
    have hlt := b.toNat_lt
    rw [map_cons, map_cons, map_nil, hdigit _ (by omega), hdigit _ (by omega)]
  refine ⟨?_, ?_⟩
  · rw [hsame, length_binToHexAscii, sha256Hash.length_eq]
  · rw [hsame]
    exact lowerHexDigit_binToHexAscii

theorem plain_of_valid : ∀ policy ∈ validValues, Plain policy ∧ policy ≠ [] ∧ policy.length <
    160 ∧ ((ascii "pin").isPrefixOf policy = true ↔ policy = ascii "pin") := by
  decide +kernel

/-- What a body asks for: one of the policies, and a hash exactly with `pin` -/
structure Request.Valid (request : Request) : Prop where
  policy : request.policy ∈ validValues
  hash : ∀ hash, request.hash = some hash → IsHash hash
  pin : request.policy = ascii "pin" ↔ request.hash.isSome

theorem valid_of_checkBody {content : List UInt8} {request : Request}
    (h : checkBody content = some (.ok request)) : request.Valid := by
  have hany : ∀ {policy : List UInt8},
      validValues.any (fun v => policy.length = v.length ∧ v.isPrefixOf policy) = true →
      policy ∈ validValues := by
    intro policy h
    obtain ⟨v, hv, hsame⟩ := any_eq_true.mp h
    obtain ⟨hlength, hfront⟩ := of_decide_eq_true hsame
    rw [← (List.isPrefixOf_iff_prefix.mp hfront).eq_of_length hlength.symm]
    exact hv
  unfold checkBody at h
  split at h
  · cases h
  · have h := some.inj h
    split at h
    · cases h
    · split at h
      · cases h
      · simp only at h
        split at h
        · rename_i hvalid
          have hmem := hany hvalid
          have hpin := (plain_of_valid _ hmem).2.2.2
          split at h
          · rename_i hfront
            split at h
            · cases h
            · split at h
              · cases h
              · rename_i hsanitize
                obtain rfl := Except.ok.inj h
                refine ⟨hmem, ?_, iff_of_true (hpin.mp hfront) rfl⟩
                intro hash heq
                rw [← some.inj heq]
                exact isHash_of_sanitize hsanitize
          · rename_i hother
            obtain rfl := Except.ok.inj h
            exact ⟨hmem, fun hash heq => (nomatch heq),
              iff_of_false (fun heq => hother (hpin.mpr heq)) Bool.false_ne_true⟩
        · cases h

/-! ## What a device keeps -/

/-- The items have these values, and the row of the policy is the item or not there. -/
structure Invariant (table : DeconzRest.AtomTable T) (d : Device T) (policy hash : List UInt8) :
    Prop where
  showsPolicy : Shows table policyRid ⟨d.policy, d.atoms⟩ policy
  valid : policy ∈ validValues
  policyRow : d.rows.policy = some policy ∨ d.rows.policy = none ∧ policy = preferStable
  showsHash : Shows table hashRid ⟨d.hash, d.atoms⟩ hash
  hashRow : ∀ row, d.rows.hash = some row → IsHash row

theorem Invariant.policyOf_eq {d : Device T} {policy hash : List UInt8}
    (h : Invariant table d policy hash) : policyOf table d = policy :=
  toLatin1String_of_shows h.showsPolicy

theorem Invariant.hashOf_eq {d : Device T} {policy hash : List UInt8}
    (h : Invariant table d policy hash) : hashOf table d = hash :=
  toLatin1String_of_shows h.showsHash

theorem writeItem_spec (htable : table.Interns) (hrid : AsAtom rid) (h : Shows table rid w value)
    (row : Option (List UInt8)) {value' : List UInt8} (hplain : Plain value') (hne : value' ≠ [])
    (hshort : value'.length < 160) :
    Shows table rid (writeItem table rid w row value').1 value' ∧
    (writeItem table rid w row value').2.1 = (if value = value' then row else some value') ∧
    ∀ (rid' : ResourceItemDescriptor) (item : StringItem) (other : List UInt8),
      Shows table rid' ⟨item, w.atoms⟩ other →
      Shows table rid' ⟨item, (writeItem table rid w row value').1.atoms⟩ other := by
  unfold writeItem
  by_cases hsame : value = value'
  · rw [if_pos ((equalsString_of_shows h hne).mpr hsame), if_pos hsame]
    exact ⟨hsame ▸ h, rfl, fun _ _ _ h => h⟩
  · rw [if_neg fun heq => hsame ((equalsString_of_shows h hne).mp heq), if_neg hsame]
    refine ⟨shows_setValue htable hrid h hplain, ?_, fun rid' item other hother => ?_⟩
    · show storeDeviceItem row value' = _
      unfold storeDeviceItem
      rw [if_neg (not_or.mpr ⟨hne, Nat.not_le.mpr hshort⟩)]
    · exact shows_setOther htable hother hrid w.item value'

def hashRowAfter (d : Device T) (hash : List UInt8) (request : Request) : Option (List UInt8) :=
  match request.hash with
  | none => d.rows.hash
  | some hash' => if hash = hash' then d.rows.hash else some hash'

theorem invariant_write (htable : table.Interns) {d : Device T} {policy hash : List UInt8}
    (h : Invariant table d policy hash) {request : Request} (hrequest : request.Valid) :
    Invariant table (write table d request) request.policy (request.hash.getD hash) ∧
      (write table d request).rows.hash = hashRowAfter d hash request := by
  obtain ⟨hplain, hne, hshort, -⟩ := plain_of_valid _ hrequest.policy
  obtain ⟨hpolicy, hpolicyRow, hother⟩ :=
    writeItem_spec htable asAtom_policyRid h.showsPolicy d.rows.policy hplain hne hshort
  have hhash := hother hashRid d.hash hash h.showsHash
  have hrow : (if policy = request.policy then d.rows.policy else some request.policy) =
      some request.policy ∨
      (if policy = request.policy then d.rows.policy else some request.policy) = none ∧
        request.policy = preferStable := by
    split
    · rename_i hsame
      rw [← hsame]
      exact h.policyRow
    · exact .inl rfl
  rw [← hpolicyRow] at hrow
  unfold write hashRowAfter
  cases hask : request.hash with
  | none => exact ⟨⟨hpolicy, hrequest.policy, hrow, hhash, h.hashRow⟩, rfl⟩
  | some hash' =>
    have hvalid := hrequest.hash hash' hask
    obtain ⟨hhash', hhashRow, hother'⟩ :=
      writeItem_spec htable asAtom_hashRid hhash d.rows.hash hvalid.plain hvalid.ne_nil
        (by rw [hvalid.length_eq]; omega)
    refine ⟨⟨hother' policyRid _ _ hpolicy, hrequest.policy, hrow, hhash', ?_⟩, hhashRow⟩
    intro row heq
    have heq := hhashRow.symm.trans heq
    split at heq
    · exact h.hashRow row heq
    · rw [← some.inj heq]
      exact hvalid

theorem invariant_load (htable : table.Interns) {d : Device T} {policy hash : List UInt8}
    (h : Invariant table d policy hash) (sha256Hash : Option Sha256) :
    ∃ hash', Invariant table (initDeviceFromDescription table d sha256Hash) policy hash' := by
  unfold initDeviceFromDescription
  cases sha256Hash with
  | none => exact ⟨hash, h⟩
  | some sha256Hash =>
    have hpolicy := shows_setOther htable h.showsPolicy asAtom_hashRid d.hash
      (toLowerHex (putHex sha256Hash.octets))
    have hhash := shows_setValue htable asAtom_hashRid h.showsHash
      (isHash_sha256 sha256Hash).plain
    simp only at hpolicy ⊢
    generalize setValue table hashRid ⟨d.hash, d.atoms⟩
      (toLowerHex (putHex sha256Hash.octets)) = w at hpolicy hhash ⊢
    exact ⟨_, hpolicy, h.valid, h.policyRow, hhash, h.hashRow⟩

theorem loadRow_spec (htable : table.Interns) (hrid : AsAtom rid) (h : Shows table rid w value)
    (valid : List UInt8 → Bool) {row : Option (List UInt8)}
    (hrow : ∀ value', row = some value' → Plain value' ∧ value' ≠ [] ∧ valid value' = true) :
    Shows table rid (loadRow table rid w valid row) (row.getD value) ∧
    ∀ (rid' : ResourceItemDescriptor) (item : StringItem) (other : List UInt8),
      Shows table rid' ⟨item, w.atoms⟩ other →
      Shows table rid' ⟨item, (loadRow table rid w valid row).atoms⟩ other := by
  unfold loadRow
  cases row with
  | none => exact ⟨h, fun _ _ _ h => h⟩
  | some value' =>
    obtain ⟨hplain, hne, hvalid⟩ := hrow value' rfl
    simp only
    rw [if_pos ⟨hne, hvalid⟩]
    exact ⟨shows_setValue htable hrid h hplain, fun rid' item other hother =>
      shows_setOther htable hother hrid w.item value'⟩

theorem invariant_initDeviceBasic (htable : table.Interns) {d : Device T}
    {policy hash : List UInt8} (hpolicy : Shows table policyRid ⟨d.policy, d.atoms⟩ policy)
    (hhash : Shows table hashRid ⟨d.hash, d.atoms⟩ hash)
    (hpolicyRow : ∀ row, d.rows.policy = some row → row ∈ validValues)
    (hdefault : d.rows.policy = none → policy = [] ∨ policy = preferStable)
    (hhashRow : ∀ row, d.rows.hash = some row → IsHash row) :
    Invariant table (initDeviceBasic table d) (d.rows.policy.getD preferStable)
      (d.rows.hash.getD hash) := by
  obtain ⟨hpolicy', hother⟩ := loadRow_spec htable asAtom_policyRid hpolicy
    (fun _ => true) fun row hrow =>
      ⟨(plain_of_valid _ (hpolicyRow row hrow)).1, (plain_of_valid _ (hpolicyRow row hrow)).2.1, rfl⟩
  obtain ⟨hhash', hother'⟩ := loadRow_spec htable asAtom_hashRid (hother hashRid d.hash hash hhash)
    (fun v => v.length = 64) fun row hrow =>
      ⟨(hhashRow row hrow).plain, (hhashRow row hrow).ne_nil,
        decide_eq_true (hhashRow row hrow).length_eq⟩
  have hpolicy'' := hother' policyRid
    (loadRow table policyRid ⟨d.policy, d.atoms⟩ (fun _ => true) d.rows.policy).item _ hpolicy'
  have hvalue := toLatin1String_of_shows hpolicy''
  have hrows : d.rows.policy.getD preferStable ∈ validValues ∧
      (d.rows.policy = some (d.rows.policy.getD preferStable) ∨ d.rows.policy = none ∧
        d.rows.policy.getD preferStable = preferStable) := by
    cases hrow : d.rows.policy with
    | none => exact ⟨mem_cons_self, .inr ⟨rfl, rfl⟩⟩
    | some row => exact ⟨hpolicyRow row hrow, .inl rfl⟩
  unfold initDeviceBasic
  simp only at hvalue hhash' hpolicy'' ⊢
  generalize loadRow table hashRid _ (fun v => v.length = 64) d.rows.hash = hashWorld
    at hvalue hhash' hpolicy'' ⊢
  generalize loadRow table policyRid _ (fun _ => true) d.rows.policy = policyWorld
    at hvalue hpolicy'' ⊢
  by_cases hempty : d.rows.policy.getD policy = []
  · -- only an item that was never set is empty
    rw [if_pos (hvalue.trans hempty)]
    have hnone : d.rows.policy = none := by
      cases hrow : d.rows.policy with
      | none => rfl
      | some row =>
        rw [hrow] at hempty
        exact absurd hempty (plain_of_valid _ (hpolicyRow row hrow)).2.1
    have hset := shows_setValue htable asAtom_policyRid hpolicy''
      (plain_of_valid preferStable mem_cons_self).1
    have hkept := shows_setOther htable hhash' asAtom_policyRid policyWorld.item preferStable
    generalize setValue table policyRid ⟨policyWorld.item, hashWorld.atoms⟩ preferStable = w
      at hset hkept ⊢
    refine ⟨?_, hrows.1, hrows.2, hkept, hhashRow⟩
    rw [hnone]
    exact hset
  · rw [if_neg fun h => hempty (hvalue.symm.trans h)]
    have hsame : d.rows.policy.getD preferStable = d.rows.policy.getD policy := by
      cases hrow : d.rows.policy with
      | none =>
        rw [hrow] at hempty
        exact ((hdefault hrow).resolve_left hempty).symm
      | some row => rfl
    refine ⟨?_, hrows.1, hrows.2, hhash', hhashRow⟩
    rw [hsame]
    exact hpolicy''

theorem invariant_restart (htable : table.Interns) {d : Device T} {policy hash : List UInt8}
    (h : Invariant table d policy hash) (atoms : T) :
    Invariant table (restart table d atoms) policy (d.rows.hash.getD []) := by
  have hvalid : ∀ row, d.rows.policy = some row → row ∈ validValues := by
    intro row hrow
    rcases h.policyRow with hsome | ⟨hnone, -⟩
    · rw [← some.inj (hsome.symm.trans hrow)]
      exact h.valid
    · rw [hnone] at hrow
      cases hrow
  have hstart := @invariant_initDeviceBasic T table htable { atoms, rows := d.rows } [] []
    (shows_new atoms) (shows_new atoms) hvalid (fun _ => .inl rfl) h.hashRow
  have hsame : d.rows.policy.getD preferStable = policy := by
    rcases h.policyRow with hsome | ⟨hnone, heq⟩
    · rw [hsome]
      rfl
    · rw [hnone, heq]
      rfl
  rwa [hsame] at hstart

theorem invariant_start (htable : table.Interns) (atoms : T) :
    Invariant table (start table atoms) preferStable [] :=
  @invariant_initDeviceBasic T table htable { atoms } [] [] (shows_new atoms) (shows_new atoms)
    (fun _ h => nomatch h) (fun _ => .inl rfl) (fun _ h => nomatch h)

theorem invariant_step (htable : table.Interns) {d : Device T} {policy hash : List UInt8}
    (h : Invariant table d policy hash) (a : Action T) :
    ∃ policy' hash', Invariant table (step table d a) policy' hash' := by
  cases a with
  | put found content =>
    unfold step putDeviceSetDDFPolicy
    simp only
    by_cases hfound : found = false
    · rw [if_pos hfound]
      exact ⟨policy, hash, h⟩
    · rw [if_neg hfound]
      cases hcheck : checkBody content with
      | none => exact ⟨policy, hash, h⟩
      | some result =>
        cases result with
        | error e => exact ⟨policy, hash, h⟩
        | ok request =>
          exact ⟨_, _, (invariant_write htable h (valid_of_checkBody hcheck)).1⟩
  | load sha256Hash => exact ⟨policy, invariant_load htable h sha256Hash⟩
  | added =>
    refine ⟨_, _, invariant_initDeviceBasic htable h.showsPolicy h.showsHash ?_ ?_ h.hashRow⟩
    · intro row hrow
      rcases h.policyRow with hsome | ⟨hnone, -⟩
      · rw [← some.inj (hsome.symm.trans hrow)]
        exact h.valid
      · rw [hnone] at hrow
        cases hrow
    · intro hnone
      rcases h.policyRow with hsome | ⟨-, heq⟩
      · rw [hnone] at hsome
        cases hsome
      · exact .inr heq
  | restarted atoms => exact ⟨_, _, invariant_restart htable h atoms⟩
  | addAtom octets =>
    have hpolicy := shows_addAtom htable h.showsPolicy octets
    have hhash := shows_addAtom htable h.showsHash octets
    unfold StringWorld.step at hpolicy hhash
    unfold step
    simp only at hpolicy hhash ⊢
    cases hadd : table.addAtom d.atoms octets with
    | none => exact ⟨policy, hash, h⟩
    | some added =>
      rw [hadd] at hpolicy hhash
      exact ⟨policy, hash, hpolicy, h.valid, h.policyRow, hhash, h.hashRow⟩

theorem invariant_run (htable : table.Interns) (atoms : T) (acts : List (Action T)) :
    ∃ policy hash, Invariant table (Transition.run (step table) (start table atoms) acts)
      policy hash := by
  refine run_invariant (P := fun d => ∃ policy hash, Invariant table d policy hash)
    (fun d a ⟨policy, hash, h⟩ => invariant_step htable h a) ?_ acts
  exact ⟨_, _, invariant_start htable atoms⟩

/-! ## Requests -/

/-- Where the hash that is asked for is already in the item, it is in the row. -/
def RowFollows (table : DeconzRest.AtomTable T) (d : Device T) (found : Bool)
    (content : List UInt8) : Prop :=
  found = true → ∀ request, checkBody content = some (.ok request) → ∀ hash, request.hash =
    some hash → hashOf table d = hash → d.rows.hash = some hash

theorem atomicAndDurable_iff (htable : table.Interns) {d : Device T} {policy hash : List UInt8}
    (h : Invariant table d policy hash) [Nonempty T] (found : Bool) (content : List UInt8) :
    AtomicAndDurable table d found content ↔ RowFollows table d found content := by
  have hput : ∀ {request : Request}, found = true → checkBody content = some (.ok request) →
      putDeviceSetDDFPolicy table d found content = some (.ok request, write table d request) := by
    intro request hfound hcheck
    unfold putDeviceSetDDFPolicy
    rw [if_neg (by rw [hfound]; exact Bool.true_eq_false.mp), hcheck]
  constructor
  · intro hdurable hfound request hcheck hash' hask hsame
    have hvalid := valid_of_checkBody hcheck
    obtain ⟨hwritten, hrow⟩ := invariant_write htable h hvalid
    obtain ⟨atoms⟩ := ‹Nonempty T›
    obtain ⟨-, -, hrestarted⟩ := hdurable.ok request _ (hput hfound hcheck)
    have hpin := hvalid.pin.mpr (by rw [hask]; rfl)
    have hback := (hrestarted atoms).2 hpin
    rw [(invariant_restart htable hwritten atoms).hashOf_eq, hask, hrow] at hback
    unfold hashRowAfter at hback
    rw [hask] at hback
    simp only at hback
    rw [h.hashOf_eq] at hsame
    rw [if_pos hsame] at hback
    cases hr : d.rows.hash with
    | none =>
      rw [hr] at hback
      exact absurd (some.inj hback) (hvalid.hash hash' hask).ne_nil
    | some row =>
      rw [hr] at hback
      exact hback.symm
  · intro hfollows
    refine ⟨?_, ?_⟩
    · intro e d' hanswer
      unfold putDeviceSetDDFPolicy at hanswer
      split at hanswer
      · exact (Prod.mk.inj (some.inj hanswer)).2.symm
      · split at hanswer
        · cases hanswer
        · exact (Prod.mk.inj (some.inj hanswer)).2.symm
        · cases hanswer
    · intro request d' hanswer
      obtain ⟨hfound, hcheck⟩ : found = true ∧ checkBody content = some (.ok request) := by
        unfold putDeviceSetDDFPolicy at hanswer
        split at hanswer
        · cases hanswer
        · rename_i hfound
          refine ⟨(Bool.not_eq_false _).mp hfound, ?_⟩
          split at hanswer
          · cases hanswer
          · cases hanswer
          · rename_i hcheck
            rw [hcheck, Except.ok.inj (Prod.mk.inj (some.inj hanswer)).1]
      rw [hput hfound hcheck] at hanswer
      obtain rfl := (Prod.mk.inj (some.inj hanswer)).2
      have hvalid := valid_of_checkBody hcheck
      obtain ⟨hwritten, hrow⟩ := invariant_write htable h hvalid
      refine ⟨hwritten.policyOf_eq, fun hpin => ?_, fun atoms =>
        ⟨(invariant_restart htable hwritten atoms).policyOf_eq, fun hpin => ?_⟩⟩
      · obtain ⟨hash', hask⟩ := isSome_iff_exists.mp (hvalid.pin.mp hpin)
        have hhash := hvalid.hash hash' hask
        refine ⟨hash', hask, hhash.length_eq, hhash.sanitize, ?_⟩
        rw [hwritten.hashOf_eq, hask, getD_some]
      · obtain ⟨hash', hask⟩ := isSome_iff_exists.mp (hvalid.pin.mp hpin)
        have hstored : (write table d request).rows.hash = some hash' := by
          rw [hrow]
          unfold hashRowAfter
          rw [hask]
          simp only
          split
          · rename_i hsame
            exact hfollows hfound request hcheck hash' hask (h.hashOf_eq.trans hsame)
          · rfl
        rw [(invariant_restart htable hwritten atoms).hashOf_eq, hstored, hask, getD_some]

/-- **Which policy requests are atomic and durable**: in every history of requests, loads and
starts, those that do not ask for a hash that the item has and the row does not. -/
theorem policy_request_iff (htable : table.Interns) (atoms : T) (acts : List (Action T))
    (found : Bool) (content : List UInt8) :
    AtomicAndDurable table (Transition.run (step table) (start table atoms) acts) found content ↔
      RowFollows table (Transition.run (step table) (start table atoms) acts) found content := by
  obtain ⟨policy, hash, h⟩ := invariant_run htable atoms acts
  have : Nonempty T := ⟨atoms⟩
  exact atomicAndDurable_iff htable h found content

def zeros : Sha256 := ⟨List.replicate 32 0, length_replicate⟩

def pinZeros : List UInt8 :=
  ascii "\x7b\"policy\":\"pin\",\"hash\":\"" ++ List.replicate 64 0x30 ++ ascii "\"\x7d"

theorem checkBody_pinZeros :
    checkBody pinZeros = some (.ok ⟨ascii "pin", some (List.replicate 64 0x30)⟩) := by
  decide +kernel

/-- A request for a bundle that is not loaded -/
theorem policy_request_pinZeros :
    AtomicAndDurable atomList (Transition.run (step atomList) (start atomList []) [.load none])
      true pinZeros := by
  refine (policy_request_iff interns_atomList [] [.load none] true pinZeros).mpr ?_
  intro _ request hcheck hash hask hsame
  rw [checkBody_pinZeros] at hcheck
  obtain rfl := Except.ok.inj (some.inj hcheck)
  rw [← some.inj hask] at hsame
  exact absurd hsame (by decide +kernel)

/-- The bundle is loaded, and its hash is asked for: behind a start the device has no hash. -/
theorem pinZeros_lost :
    ¬ AtomicAndDurable atomList
      (Transition.run (step atomList) (start atomList []) [.load (some zeros)]) true pinZeros := by
  intro h
  have hput : putDeviceSetDDFPolicy atomList
      (Transition.run (step atomList) (start atomList []) [.load (some zeros)]) true pinZeros =
      some (.ok ⟨ascii "pin", some (List.replicate 64 0x30)⟩,
        write atomList (Transition.run (step atomList) (start atomList []) [.load (some zeros)])
          ⟨ascii "pin", some (List.replicate 64 0x30)⟩) := by
    unfold putDeviceSetDDFPolicy
    rw [if_neg Bool.false_ne_true.symm, checkBody_pinZeros]
  have hback := ((h.ok _ _ hput).2.2 []).2 rfl
  exact absurd hback (by decide +kernel)

end Policy
end Ddf
end DeconzRest

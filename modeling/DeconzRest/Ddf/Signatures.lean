import DeconzRest.Lib.ByteStream
import DeconzRest.Lib.Transition

/-!
# The signatures of a bundle

The `SIGN` chunk of a bundle holds public keys and signatures over the bundle hash.  Each key that
a signature verifies under gets a position in `publicKeys`, which is kept from bundle to bundle and
starts with the official keys for stable and beta bundles; the bit at this position is set in the
signatures of the bundle.
-/

namespace DeconzRest
namespace Ddf

open List

/-- `U_ECC_PublicKeySecp256k1`: 33 bytes -/
abbrev PublicKey := List UInt8

/-- `U_ECC_SignatureSecp256k1`: 64 bytes -/
abbrev Signature := List UInt8

def keySize : Nat := 33
def signatureSize : Nat := 64

/-- `DDF_MAX_PUBLIC_KEYS` -/
def maxPublicKeys : Nat := 64

/-- What `DDF_ProcessSignatures` changes: `publicKeys`, `pctx->signatures` and `count`. -/
structure SignState where
  publicKeys : List PublicKey
  signatures : BitVec 64 := 0
  count : Nat := 0
deriving DecidableEq, Repr

/-- `1 << i` of the 32-bit `int` 1, as it is merged into the 64-bit mask: the machine takes the
shift modulo 32, and the sign is extended. -/
def signatureBit (i : Nat) : BitVec 64 := ((1#32) <<< (i % 32)).signExtend 64

/-- The position of a key in `publicKeys`, their number for an unknown key. -/
def keyPosition (publicKeys : List PublicKey) (key : PublicKey) : Nat :=
  publicKeys.findIdx fun pk => pk == key

/-- What is done with an entry of the chunk. -/
def processEntry (verify : PublicKey → Signature → Bool) (s : SignState)
    (entry : PublicKey × Signature) : SignState :=
  if verify entry.1 entry.2 then
    let i := keyPosition s.publicKeys entry.1
    { publicKeys :=
        if i = s.publicKeys.length ∧ s.publicKeys.length < maxPublicKeys then
          s.publicKeys ++ [entry.1]
        else s.publicKeys
      signatures := s.signatures ||| signatureBit i
      count := s.count + 1 }
  else s

def refill (buffer bytes : List UInt8) : List UInt8 := bytes ++ buffer.drop bytes.length

/-- One entry is read into the buffers; `none` when one of its lengths is too large. -/
def readEntry (bs : ByteStream) (key : PublicKey) (sig : Signature) :
    Option ((PublicKey × Signature) × ByteStream) :=
  let (pubkeyLen, bs) := bs.getU16
  if keySize < pubkeyLen then none
  else
    let (pubkey, bs) := bs.getBytes pubkeyLen
    let (sigLen, bs) := bs.getU16
    if signatureSize < sigLen then none
    else
      let (signature, bs) := bs.getBytes sigLen
      some ((refill key pubkey, refill sig signature), bs)

/-- The loop of `DDF_ProcessSignatures`; the buffers keep what was read before. -/
def signLoop (verify : PublicKey → Signature → Bool) :
    Nat → ByteStream → PublicKey → Signature → SignState → SignState
  | 0, _, _, _, s => s
  | fuel + 1, bs, key, sig, s =>
    if bs.ok ∧ bs.pos < bs.size then
      match readEntry bs key sig with
      | none => s
      | some (entry, bs) =>
        signLoop verify fuel bs entry.1 entry.2 (processEntry verify s entry)
    else s

def signEntries : Nat → ByteStream → PublicKey → Signature → List (PublicKey × Signature)
  | 0, _, _, _ => []
  | fuel + 1, bs, key, sig =>
    if bs.ok ∧ bs.pos < bs.size then
      match readEntry bs key sig with
      | none => []
      | some (entry, bs) => entry :: signEntries fuel bs entry.1 entry.2
    else []

/-- A bundle: its hash, the content of its `SIGN` chunk, and what the buffers hold before. -/
structure SignedBundle where
  hash : List UInt8
  sign : ByteStream
  key : PublicKey := List.replicate 33 0
  sig : Signature := List.replicate 64 0
deriving DecidableEq, Repr

def SignedBundle.entries (b : SignedBundle) : List (PublicKey × Signature) :=
  signEntries (b.sign.size + 1) b.sign b.key b.sig

/-- `U_ECC_VerifySignatureSecp256k1` of a bundle hash, a key and a signature. -/
abbrev Verify := List UInt8 → PublicKey → Signature → Bool

/-- `DDF_ProcessSignatures` of a bundle, with `pctx->signatures` cleared before. -/
def processSignatures (verify : Verify) (publicKeys : List PublicKey) (b : SignedBundle) :
    SignState :=
  signLoop (verify b.hash) (b.sign.size + 1) b.sign b.key b.sig { publicKeys }

def readBundle (verify : Verify) (publicKeys : List PublicKey) (b : SignedBundle) :
    List PublicKey :=
  (processSignatures verify publicKeys b).publicKeys

theorem signLoop_eq (verify : PublicKey → Signature → Bool) (fuel : Nat) (bs : ByteStream)
    (key : PublicKey) (sig : Signature) (s : SignState) :
    signLoop verify fuel bs key sig s =
      (signEntries fuel bs key sig).foldl (processEntry verify) s := by
  induction fuel generalizing bs key sig s with
  | zero => rfl
  | succ fuel ih =>
    unfold signLoop signEntries
    split
    · split
      · rfl
      · exact ih _ _ _ _
    · rfl

variable {entry : PublicKey × Signature}

theorem readEntry_progress {bs bs' : ByteStream} {key : PublicKey} {sig : Signature}
    (h : readEntry bs key sig = some (entry, bs')) :
    bs'.size = bs.size ∧ (bs'.ok = true → bs.pos < bs'.pos) := by
  unfold readEntry at h
  simp only at h
  split at h
  · exact absurd h (by simp)
  · split at h
    · exact absurd h (by simp)
    · simp only [Option.some.injEq, Prod.mk.injEq] at h
      obtain ⟨-, rfl⟩ := h
      have hsig := ByteStream.reads_getBytes
        (bs.getU16.2.getBytes bs.getU16.1).2.getU16.1
        (bs.getU16.2.getBytes bs.getU16.1).2.getU16.2
      have hrest := (ByteStream.reads_getBytes bs.getU16.1 bs.getU16.2).trans
        ((ByteStream.reads_skip _ 2).trans hsig)
      refine ⟨hrest.size.trans ByteStream.skip_size, fun hok => ?_⟩
      have hfirst : bs.pos < bs.getU16.2.pos :=
        ByteStream.skip_pos_lt (by decide) (hrest.ok hok)
      exact Nat.lt_of_lt_of_le hfirst hrest.pos_le

theorem signEntries_not_ok {bs : ByteStream} (h : bs.ok = false) (fuel : Nat) (key : PublicKey)
    (sig : Signature) : signEntries fuel bs key sig = [] := by
  cases fuel with
  | zero => rfl
  | succ fuel =>
    unfold signEntries
    rw [if_neg]
    rw [h]
    exact fun hok => absurd hok.1 Bool.false_ne_true

variable (key : PublicKey)

theorem signEntries_fuel {fuel fuel' : Nat} {bs : ByteStream} (sig : Signature)
    (h : bs.size < bs.pos + fuel) (h' : bs.size < bs.pos + fuel') :
    signEntries fuel bs key sig = signEntries fuel' bs key sig := by
  induction fuel generalizing fuel' bs key sig with
  | zero =>
    -- the stream is at its end, and so is the loop with any fuel
    cases fuel' with
    | zero => rfl
    | succ fuel' =>
      unfold signEntries
      rw [if_neg (by omega)]
  | succ fuel ih =>
    cases fuel' with
    | zero =>
      unfold signEntries
      rw [if_neg (by omega)]
    | succ fuel' =>
      unfold signEntries
      split
      · split
        · rfl
        · rename_i entry bs' hread
          obtain ⟨hsize, hpos⟩ := readEntry_progress hread
          refine congrArg (entry :: ·) ?_
          cases hok : bs'.ok with
          | true =>
            have hmoved := hpos hok
            exact ih _ _ (by omega) (by omega)
          | false => rw [signEntries_not_ok hok, signEntries_not_ok hok]
      · rfl

/-! ## The bits -/

theorem signatureBit_stable (i : Nat) : (signatureBit i).getLsbD 0 = decide (i % 32 = 0) := by
  have hall : ∀ k : Fin 32, (((1#32) <<< k.val).signExtend 64).getLsbD 0 =
      decide (k.val = 0) := by decide
  exact hall ⟨i % 32, Nat.mod_lt i (by decide)⟩

theorem signatureBit_beta (i : Nat) : (signatureBit i).getLsbD 1 = decide (i % 32 = 1) := by
  have hall : ∀ k : Fin 32, (((1#32) <<< k.val).signExtend 64).getLsbD 1 =
      decide (k.val = 1) := by decide
  exact hall ⟨i % 32, Nat.mod_lt i (by decide)⟩

/-- `publicKeys` after an entry that verifies. -/
def addKey (publicKeys : List PublicKey) (key : PublicKey) : List PublicKey :=
  if keyPosition publicKeys key = publicKeys.length ∧ publicKeys.length < maxPublicKeys then
    publicKeys ++ [key]
  else publicKeys

/-- The positions of the keys that verify, each in `publicKeys` as it is then. -/
def positions (verify : PublicKey → Signature → Bool) :
    List PublicKey → List (PublicKey × Signature) → List Nat
  | _, [] => []
  | publicKeys, entry :: entries =>
    if verify entry.1 entry.2 then
      keyPosition publicKeys entry.1 :: positions verify (addKey publicKeys entry.1) entries
    else positions verify publicKeys entries

variable {verify : PublicKey → Signature → Bool}

theorem processEntry_verified {s : SignState} (h : verify entry.1 entry.2 = true) :
    processEntry verify s entry =
      { publicKeys := addKey s.publicKeys entry.1
        signatures := s.signatures ||| signatureBit (keyPosition s.publicKeys entry.1)
        count := s.count + 1 } := by
  unfold processEntry
  rw [if_pos h]
  rfl

theorem processEntry_rejected {s : SignState} (h : ¬ verify entry.1 entry.2 = true) :
    processEntry verify s entry = s := by
  unfold processEntry
  rw [if_neg h]

theorem foldl_signatures (verify : PublicKey → Signature → Bool) (n : Nat)
    (entries : List (PublicKey × Signature)) (s : SignState) :
    (entries.foldl (processEntry verify) s).signatures.getLsbD n =
      (s.signatures.getLsbD n ||
        (positions verify s.publicKeys entries).any fun i => (signatureBit i).getLsbD n) := by
  induction entries generalizing s with
  | nil => exact (Bool.or_false _).symm
  | cons entry entries ih =>
    rw [foldl_cons, ih]
    simp only [positions]
    split
    · rename_i hverify
      rw [processEntry_verified hverify, BitVec.getLsbD_or, any_cons, Bool.or_assoc]
    · rename_i hverify
      rw [processEntry_rejected hverify]

theorem addKey_spec {publicKeys : List PublicKey} (h : publicKeys.length ≤ maxPublicKeys) :
    publicKeys <+: addKey publicKeys key ∧ (addKey publicKeys key).length ≤ maxPublicKeys := by
  unfold addKey
  split
  · rename_i hnew
    refine ⟨prefix_append _ _, ?_⟩
    rw [List.length_append]
    exact hnew.2
  · exact ⟨prefix_rfl, h⟩

theorem mem_positions {publicKeys : List PublicKey} {entries : List (PublicKey × Signature)}
    {i : Nat} (h : i ∈ positions verify publicKeys entries)
    (hlength : publicKeys.length ≤ maxPublicKeys) :
    ∃ entry ∈ entries, verify entry.1 entry.2 = true ∧ ∃ grown, publicKeys <+: grown ∧
      grown.length ≤ maxPublicKeys ∧ keyPosition grown entry.1 = i := by
  induction entries generalizing publicKeys with
  | nil => exact absurd h not_mem_nil
  | cons entry entries ih =>
    unfold positions at h
    split at h
    · rename_i hverify
      rcases mem_cons.mp h with rfl | h
      · exact ⟨entry, mem_cons_self, hverify, publicKeys, prefix_rfl, hlength, rfl⟩
      · obtain ⟨hgrown, hgrownLength⟩ := addKey_spec entry.1 hlength
        obtain ⟨entry', hmem, hverify', grown, hle, hbound, hposition⟩ := ih h hgrownLength
        exact ⟨entry', mem_cons_of_mem _ hmem, hverify', grown, hgrown.trans hle, hbound, hposition⟩
    · obtain ⟨entry', hmem, hrest⟩ := ih h hlength
      exact ⟨entry', mem_cons_of_mem _ hmem, hrest⟩

/-- The official keys stay in front. -/
structure Official (stable beta : PublicKey) (publicKeys : List PublicKey) : Prop where
  front : [stable, beta] <+: publicKeys
  length_le : publicKeys.length ≤ maxPublicKeys

theorem key_of_position {stable beta : PublicKey} {grown : List PublicKey} {key : PublicKey}
    (h : [stable, beta] <+: grown) :
    (keyPosition grown key = 0 → key = stable) ∧ (keyPosition grown key = 1 → key = beta) := by
  obtain ⟨rest, rfl⟩ := h
  unfold keyPosition
  rw [cons_append, findIdx_cons, cons_append, findIdx_cons]
  cases hstable : stable == key with
  | true => exact ⟨fun _ => (beq_iff_eq.mp hstable).symm, fun h => absurd h (by simp)⟩
  | false =>
    cases hbeta : beta == key with
    | true => exact ⟨fun h => absurd h (by simp), fun _ => (beq_iff_eq.mp hbeta).symm⟩
    | false => exact ⟨fun h => absurd h (by simp), fun h => absurd h (by simp)⟩

theorem position_le {grown : List PublicKey} (h : grown.length ≤ maxPublicKeys) :
    keyPosition grown key ≤ 64 :=
  Nat.le_trans findIdx_le_length h

/-! ## Bundles -/

section Trust

variable (verify : Verify) (stable beta : PublicKey)

/-- The chunk has a signature over the bundle hash that verifies under the key. -/
def SignedUnder (key : PublicKey) (b : SignedBundle) : Prop :=
  ∃ entry ∈ b.entries, verify b.hash key entry.2 = true

def bundlePositions (publicKeys : List PublicKey) (b : SignedBundle) : List Nat :=
  positions (verify b.hash) publicKeys b.entries

/-- `publicKeys` before the bundle at `k` is read. -/
def keysBefore (bundles : List SignedBundle) (k : Nat) : List PublicKey :=
  Transition.stateAt (readBundle verify) [stable, beta] bundles k

/-- The two trust flags are set only for bundles that are signed accordingly. -/
def TrustSound (bundles : List SignedBundle) : Prop :=
  ∀ k (hk : k < bundles.length),
    let signatures :=
      (processSignatures verify (keysBefore verify stable beta bundles k) bundles[k]).signatures
    (signatures.getLsbD 0 = true → SignedUnder verify stable bundles[k]) ∧
      (signatures.getLsbD 1 = true → SignedUnder verify beta bundles[k])

/-- A key whose position the 32-bit shift folds onto an official one does not verify, or the
bundle is signed with that official key as well. -/
def NoneFolded (bundles : List SignedBundle) : Prop :=
  ∀ k (hk : k < bundles.length),
    let folded := bundlePositions verify (keysBefore verify stable beta bundles k) bundles[k]
    ((32 ∈ folded ∨ 64 ∈ folded) → SignedUnder verify stable bundles[k]) ∧
      (33 ∈ folded → SignedUnder verify beta bundles[k])

variable {verify stable beta}

theorem processSignatures_bit (publicKeys : List PublicKey) (b : SignedBundle) (n : Nat) :
    (processSignatures verify publicKeys b).signatures.getLsbD n =
      (bundlePositions verify publicKeys b).any fun i => (signatureBit i).getLsbD n := by
  unfold processSignatures
  rw [signLoop_eq, foldl_signatures]
  have hclear : ({ publicKeys } : SignState).signatures.getLsbD n = false := BitVec.getLsbD_zero
  rw [hclear, Bool.false_or]
  rfl

theorem foldl_publicKeys (verify : PublicKey → Signature → Bool)
    (entries : List (PublicKey × Signature)) (s : SignState)
    (h : Official stable beta s.publicKeys) :
    Official stable beta (entries.foldl (processEntry verify) s).publicKeys := by
  refine Transition.run_invariant (P := fun s : SignState => Official stable beta s.publicKeys) ?_ h
    entries
  intro s entry h
  by_cases hverify : verify entry.1 entry.2 = true
  · rw [processEntry_verified hverify]
    obtain ⟨hgrown, hlength⟩ := addKey_spec entry.1 h.length_le
    exact ⟨h.front.trans hgrown, hlength⟩
  · rw [processEntry_rejected hverify]
    exact h

theorem official_before (bundles : List SignedBundle) (k : Nat) :
    Official stable beta (keysBefore verify stable beta bundles k) := by
  refine Transition.run_invariant (P := Official stable beta) ?_
    ⟨prefix_rfl, (by decide : 2 ≤ maxPublicKeys)⟩ (bundles.take k)
  intro publicKeys b h
  show Official stable beta (processSignatures verify publicKeys b).publicKeys
  unfold processSignatures
  rw [signLoop_eq]
  exact foldl_publicKeys _ _ _ h

theorem signedUnder_of_position {publicKeys : List PublicKey} {b : SignedBundle}
    (h : Official stable beta publicKeys) :
    (0 ∈ bundlePositions verify publicKeys b → SignedUnder verify stable b) ∧
      (1 ∈ bundlePositions verify publicKeys b → SignedUnder verify beta b) := by
  constructor
  · intro hmem
    obtain ⟨entry, hentry, hverify, grown, hgrown, -, hposition⟩ := mem_positions hmem h.length_le
    rw [(key_of_position (h.front.trans hgrown)).1 hposition] at hverify
    exact ⟨entry, hentry, hverify⟩
  · intro hmem
    obtain ⟨entry, hentry, hverify, grown, hgrown, -, hposition⟩ := mem_positions hmem h.length_le
    rw [(key_of_position (h.front.trans hgrown)).2 hposition] at hverify
    exact ⟨entry, hentry, hverify⟩

theorem bundlePositions_le {publicKeys : List PublicKey} {b : SignedBundle} {i : Nat}
    (h : Official stable beta publicKeys) (hi : i ∈ bundlePositions verify publicKeys b) :
    i ≤ 64 := by
  obtain ⟨entry, -, -, grown, -, hlength, rfl⟩ := mem_positions hi h.length_le
  exact position_le entry.1 hlength

/-- **The trust flags of the bundles** are sound in a run exactly if none of its signatures comes
from a key that the shift folds onto an official position, unless the official key signs too. -/
theorem trustSound_iff (verify : Verify) (stable beta : PublicKey)
    (bundles : List SignedBundle) :
    TrustSound verify stable beta bundles ↔ NoneFolded verify stable beta bundles := by
  constructor
  · intro h k hk
    obtain ⟨hstable, hbeta⟩ := h k hk
    simp only [processSignatures_bit, any_eq_true] at hstable hbeta
    constructor
    · rintro (hmem | hmem)
      · exact hstable ⟨32, hmem, by rw [signatureBit_stable]; rfl⟩
      · exact hstable ⟨64, hmem, by rw [signatureBit_stable]; rfl⟩
    · intro hmem
      exact hbeta ⟨33, hmem, by rw [signatureBit_beta]; rfl⟩
  · intro h k hk
    obtain ⟨hstable, hbeta⟩ := h k hk
    have hofficial := @official_before verify stable beta bundles k
    obtain ⟨hfirst, hsecond⟩ := signedUnder_of_position (b := bundles[k]) hofficial
    simp only [processSignatures_bit, any_eq_true]
    constructor
    · rintro ⟨i, hi, hbit⟩
      rw [signatureBit_stable, decide_eq_true_iff] at hbit
      have hle := bundlePositions_le hofficial hi
      have hcases : i = 0 ∨ i = 32 ∨ i = 64 := by omega
      rcases hcases with rfl | rfl | rfl
      · exact hfirst hi
      · exact hstable (.inl hi)
      · exact hstable (.inr hi)
    · rintro ⟨i, hi, hbit⟩
      rw [signatureBit_beta, decide_eq_true_iff] at hbit
      have hle := bundlePositions_le hofficial hi
      have hcases : i = 1 ∨ i = 33 := by omega
      rcases hcases with rfl | rfl
      · exact hsecond hi
      · exact hbeta hi

end Trust

def manyKeys : SignedBundle where
  hash := []
  sign := .ofBytes ((List.range 31).flatMap fun k => [1, 0, UInt8.ofNat (4 + k), 0, 0])

/-- The 33rd key sets the flag of stable bundles, with no signature under the stable key. -/
theorem key33_taken_for_stable :
    ¬ TrustSound (fun _ key _ => decide (4 ≤ key.headD 0)) (List.replicate 33 3)
      (List.replicate 33 2) [manyKeys] := by
  intro h
  obtain ⟨entry, -, hverify⟩ := (h 0 (by decide)).1 (by decide +kernel)
  have hstable : 4 ≤ (List.replicate 33 (3 : UInt8)).headD 0 := of_decide_eq_true hverify
  exact absurd hstable (by decide)

end Ddf
end DeconzRest

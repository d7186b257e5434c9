import DeconzRest.Cj.Access
import DeconzRest.Ddf.Upload
import DeconzRest.Resource.StringItem

/-!
# The DDF policy of a device

The items `attr/ddf_policy` and `attr/ddf_hash` of a device, the rows in which the database keeps
them, and what writes them: the request (`RestDevices::putDeviceSetDDFPolicy`), the load of a DDF
(`DEV_InitDeviceFromDescription`) and the start (`DEV_InitDeviceBasic`).  A request compares with
the items and writes items and rows; the load of a bundle writes the hash item only.

The database functions succeed and keep one row for each item.
-/

namespace DeconzRest
namespace Ddf
namespace Policy

open Json (ascii)

/-! ## The request -/

/-- `cj_copy_value` into a buffer of `size` octets -/
def copyValue (ctx : Cj.Ctx) (size obj : Nat) (key : List UInt8) : Option (List UInt8) :=
  match Cj.valueRef ctx obj key with
  | none => none
  | some ref =>
    match ctx.tokens[ref]? with
    | none => none
    | some tok =>
      if tok.len < size then
        if ctx.size < tok.len ∨ ctx.size - tok.len < tok.pos then none
        else some (Cj.slice ctx tok)
      else none

def validValues : List (List UInt8) :=
  [ascii "latest_prefer_stable", ascii "latest", ascii "pin", ascii "raw_json"]

def preferStable : List UInt8 := ascii "latest_prefer_stable"

inductive Error where
  | notAvailable
  | invalidJson
  | missingParameters
  | invalidValue (parameter value : List UInt8)
deriving DecidableEq, Repr

def Error.httpStatus : Error → Nat
  | .notAvailable => 404
  | _ => 400

/-- The description of an error, for `/devices/<uniqueid>/ddf/policy` -/
def Error.description (uniqueId : List UInt8) : Error → List UInt8
  | .notAvailable => ascii "resource, /devices/" ++ uniqueId ++ ascii ", not available"
  | .invalidJson => ascii "body contains invalid JSON"
  | .missingParameters => ascii "missing parameters in body"
  | .invalidValue parameter value =>
    ascii "invalid value, " ++ value ++ ascii ", for parameter, " ++ parameter

/-- The buffer behind `DDFB_SanitizeBundleHashString` that fails -/
def partlyLowered (str : List UInt8) : List UInt8 :=
  if str.length = 64 then
    (str.takeWhile fun ch => (lowerHexDigit ch).isSome).filterMap lowerHexDigit ++
      str.dropWhile fun ch => (lowerHexDigit ch).isSome
  else str

/-- A body that is asked for, with the hash where the policy is `pin` -/
structure Request where
  policy : List UInt8
  hash : Option (List UInt8)
deriving DecidableEq, Repr

/-- The checks of the body; none where the parser reads outside of it. -/
def checkBody (content : List UInt8) : Option (Except Error Request) :=
  match Cj.parse (Cj.parseInit content 16) with
  | none => none
  | some ctx =>
    some <|
      if ctx.status ≠ .ok then .error .invalidJson
      else
        match copyValue ctx 32 0 (ascii "policy") with
        | none => .error .missingParameters
        | some policyBuf =>
          let policy := cString policyBuf
          if validValues.any (fun v => policy.length = v.length ∧ v.isPrefixOf policy) then
            if (ascii "pin").isPrefixOf policy then
              match copyValue ctx 96 0 (ascii "hash") with
              | none => .error .missingParameters
              | some bundleHashBuf =>
                match sanitizeBundleHashString (cString bundleHashBuf) with
                | none =>
                  .error (.invalidValue (ascii "hash") (partlyLowered (cString bundleHashBuf)))
                | some hash => .ok ⟨policy, some hash⟩
            else .ok ⟨policy, none⟩
          else .error (.invalidValue (ascii "policy") policy)

def policyRid : ResourceItemDescriptor := { type := .string, suffix := "attr/ddf_policy" }

def hashRid : ResourceItemDescriptor := { type := .string, suffix := "attr/ddf_hash" }

/-- The values of `dev_resource_items` for the two items -/
structure Rows where
  policy : Option (List UInt8) := none
  hash : Option (List UInt8) := none
deriving DecidableEq, Repr

/-- A device, its rows and the number of `REventDDFReload` events that were sent -/
structure Device (T : Type) where
  policy : StringItem := {}
  hash : StringItem := {}
  atoms : T
  rows : Rows := {}
  reloads : Nat := 0

variable {T : Type} (table : DeconzRest.AtomTable T)

/-- Octets as `QLatin1String` -/
def latin1 (octets : List UInt8) : QString := octets.map UInt8.toUInt16

/-- `ResourceItem::setValue(const char *, int)` -/
def setValue (rid : ResourceItemDescriptor) (w : StringWorld T) (value : List UInt8) :
    StringWorld T := w.setValue table rid (latin1 value)

/-- `DB_StoreDeviceItem`: the row of the item -/
def storeDeviceItem (row : Option (List UInt8)) (value : List UInt8) : Option (List UInt8) :=
  if value = [] ∨ 160 ≤ value.length then row else some value

/-- A value of a request: the item with the atoms, the row, and whether the item was another one -/
def writeItem (rid : ResourceItemDescriptor) (w : StringWorld T) (row : Option (List UInt8))
    (value : List UInt8) : StringWorld T × Option (List UInt8) × Bool :=
  if w.equalsString table value (some value.length) then (w, row, false)
  else (setValue table rid w value, storeDeviceItem row value, true)

/-- What is done for a body that passes its checks. -/
def write (d : Device T) (request : Request) : Device T :=
  let (policy, policyRow, policyNew) :=
    writeItem table policyRid ⟨d.policy, d.atoms⟩ d.rows.policy request.policy
  let (hash, hashRow, hashNew) :=
    match request.hash with
    | none => ((⟨d.hash, policy.atoms⟩ : StringWorld T), d.rows.hash, false)
    | some hash => writeItem table hashRid ⟨d.hash, policy.atoms⟩ d.rows.hash hash
  { policy := policy.item
    hash := hash.item
    atoms := hash.atoms
    rows := ⟨policyRow, hashRow⟩
    reloads := if policyNew || hashNew then d.reloads + 1 else d.reloads }

/-- `RestDevices::putDeviceSetDDFPolicy`, for a device that is found or not -/
def putDeviceSetDDFPolicy (d : Device T) (found : Bool) (content : List UInt8) :
    Option (Except Error Request × Device T) :=
  if found = false then some (.error .notAvailable, d)
  else
    match checkBody content with
    | none => none
    | some (.error e) => some (.error e, d)
    | some (.ok request) => some (.ok request, write table d request)

/-! ## Loads and starts -/

structure Sha256 where
  octets : List UInt8
  length_eq : octets.length = 32
deriving DecidableEq

/-- `U_sstream_put_hex` -/
def putHex (octets : List UInt8) : List UInt8 :=
  octets.flatMap fun b => [hexDigit (b.toNat / 16), hexDigit (b.toNat % 16)]
where
  hexDigit (n : Nat) : UInt8 := if n < 10 then UInt8.ofNat (0x30 + n) else UInt8.ofNat (0x37 + n)

def toLowerHex (buf : List UInt8) : List UInt8 :=
  buf.map fun ch => if 0x41 ≤ ch ∧ ch ≤ 0x46 then ch + 0x20 else ch

/-- The start of `DEV_InitDeviceFromDescription`: the hash of a DDF that comes from a bundle -/
def initDeviceFromDescription (d : Device T) (sha256Hash : Option Sha256) : Device T :=
  match sha256Hash with
  | none => d
  | some sha256Hash =>
    let w := setValue table hashRid ⟨d.hash, d.atoms⟩ (toLowerHex (putHex sha256Hash.octets))
    { d with hash := w.item, atoms := w.atoms }

def loadRow (rid : ResourceItemDescriptor) (w : StringWorld T) (valid : List UInt8 → Bool)
    (row : Option (List UInt8)) : StringWorld T :=
  match row with
  | none => w
  | some value => if value ≠ [] ∧ valid value then setValue table rid w value else w

/-- `DEV_InitDeviceBasic`, for the two items -/
def initDeviceBasic (d : Device T) : Device T :=
  let policy := loadRow table policyRid ⟨d.policy, d.atoms⟩ (fun _ => true) d.rows.policy
  let hash := loadRow table hashRid ⟨d.hash, policy.atoms⟩ (fun v => v.length = 64) d.rows.hash
  -- if no attr/ddf_policy is set, use the default
  let policy :=
    if (⟨policy.item, hash.atoms⟩ : StringWorld T).toLatin1String table = [] then
      setValue table policyRid ⟨policy.item, hash.atoms⟩ preferStable
    else ⟨policy.item, hash.atoms⟩
  { d with policy := policy.item, hash := hash.item, atoms := policy.atoms }

def restart (d : Device T) (atoms : T) : Device T :=
  initDeviceBasic table { atoms, rows := d.rows }

/-- What happens to a device: requests, loads of a DDF, the node being added again, starts, and
other atoms. -/
inductive Action (T : Type) where
  | put (found : Bool) (content : List UInt8)
  | load (sha256Hash : Option Sha256)
  | added
  | restarted (atoms : T)
  | addAtom (octets : List UInt8)

def step (d : Device T) : Action T → Device T
  | .put found content =>
    match putDeviceSetDDFPolicy table d found content with
    | none => d
    | some (_, d) => d
  | .load sha256Hash => initDeviceFromDescription table d sha256Hash
  | .added => initDeviceBasic table d
  | .restarted atoms => restart table d atoms
  | .addAtom octets =>
    match table.addAtom d.atoms octets with
    | none => d
    | some (_, atoms) => { d with atoms }

def start (atoms : T) : Device T := initDeviceBasic table { atoms }

/-- The value of an item, as other code reads it -/
def policyOf (d : Device T) : List UInt8 :=
  (⟨d.policy, d.atoms⟩ : StringWorld T).toLatin1String table

def hashOf (d : Device T) : List UInt8 :=
  (⟨d.hash, d.atoms⟩ : StringWorld T).toLatin1String table

/-- **The request is atomic and durable**: an error changes nothing; behind a success the items are
what was asked for, and they are the same behind a start. -/
structure AtomicAndDurable (d : Device T) (found : Bool) (content : List UInt8) : Prop where
  error : ∀ e d', putDeviceSetDDFPolicy table d found content = some (.error e, d') → d' = d
  ok : ∀ request d', putDeviceSetDDFPolicy table d found content = some (.ok request, d') →
    policyOf table d' = request.policy ∧
    (request.policy = ascii "pin" → ∃ hash, request.hash = some hash ∧ hash.length = 64 ∧
      sanitizeBundleHashString hash = some hash ∧ hashOf table d' = hash) ∧
    ∀ atoms, policyOf table (restart table d' atoms) = request.policy ∧
      (request.policy = ascii "pin" → request.hash = some (hashOf table (restart table d' atoms)))

end Policy
end Ddf
end DeconzRest

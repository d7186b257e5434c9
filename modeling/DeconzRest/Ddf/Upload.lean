import DeconzRest.Ddf.Descriptors

/-!
# Bundles that are uploaded

`REST_DDF_PostBundles` cuts the bundle out of a `multipart/form-data` body with three searches and
stores it in the directory of the user under its bundle hash.  `REST_DDF_GetBundle` looks for a
file with the bundle hash in both directories, whatever its name is.

The file functions succeed, and the directory of the user is the list of its entries.
-/

namespace DeconzRest
namespace Ddf

open Json (ascii)

/-- `U_sstream_find` from a position on: the position of what is found -/
def findFrom (data : List UInt8) (pos : Nat) (pattern : List UInt8) : Option Nat :=
  (findFirst (data.drop pos) pattern).map (pos + ·)

/-- What `REST_DDF_PostBundles` answers. -/
inductive PostResult where
  | notHandled
  | badRequest
  | stored (id : List UInt8)
deriving DecidableEq, Repr

/-- The boundary of a `Content-Type` header: all that is behind `boundary=`. -/
def boundaryOf (contentType : List UInt8) : Option (List UInt8) :=
  if (ascii "multipart/form-data").isPrefixOf contentType then
    match findFrom contentType 0 (ascii "boundary=") with
    | none => none
    | some pos =>
      match findFrom contentType pos (ascii "=") with
      | none => none
      | some pos => some (contentType.drop (pos + 1))
  else none

/-- `binStart` and `binEnd` behind the searches -/
def findPart (data boundary : List UInt8) : Except PostResult (Nat × Nat) :=
  -- there might be a preamble before the first boundary
  match findFrom data 0 boundary with
  | none => .error .badRequest
  | some pos =>
    match findFrom data pos (ascii "\r\n\r\n") with
    | none => .error .notHandled
    | some pos =>
      match findFrom data (pos + 4) boundary with
      | none => .error .badRequest
      | some binEnd => .ok (pos + 4, binEnd)

def endsIn (data : List UInt8) (pos : Nat) (a b : UInt8) : Bool :=
  data.getD (pos - 1) 0 = b && data.getD (pos - 2) 0 = a

/-- `binEnd` without the two dashes and the line end in front of the end boundary -/
def trimEnd (data : List UInt8) (binEnd : Nat) : Nat :=
  let binEnd := if endsIn data binEnd 0x2D 0x2D then binEnd - 2 else binEnd
  if endsIn data binEnd 0x0D 0x0A then binEnd - 2 else binEnd

def cutBundle (data boundary : List UInt8) : Except PostResult (List UInt8) :=
  match findPart data boundary with
  | .error result => .error result
  | .ok (binStart, binEnd) =>
    if binStart < binEnd ∧ 16 < binEnd - binStart then
      .ok ((data.drop binStart).take (trimEnd data binEnd - binStart))
    else .error .notHandled

variable (sha256 : List UInt8 → List UInt8)

/-- `FS_OpenFile` for reading, and `FS_DeleteFile` where it is successful -/
def deleteFile (name : List UInt8) (dir : List DirEntry) : List DirEntry :=
  if dir.any (fun e => e.name = name ∧ e.content.isSome) then
    dir.filter fun e => e.name ≠ name
  else dir

/-- `FS_OpenFile` for writing, and `FS_WriteFile` -/
def writeFile (name content : List UInt8) (dir : List DirEntry) : List DirEntry :=
  (dir.filter fun e => e.name ≠ name) ++ [{ name, content := some content }]

def ddbName (id : List UInt8) : List UInt8 := id ++ ascii ".ddb"

def ddfName (id : List UInt8) : List UInt8 := id ++ ascii ".ddf"

/-- The files are deleted and the bundle is written. -/
def storeBundle (id bundle : List UInt8) (dir : List DirEntry) : List DirEntry :=
  writeFile (ddbName id) bundle (deleteFile (ddbName id) (deleteFile (ddfName id) dir))

/-- What is done behind the two checks of the length, for a body that is read at once. -/
def postBody (contentType data : List UInt8) (dir : List DirEntry) : PostResult × List DirEntry :=
  match boundaryOf contentType with
  | none => (.badRequest, dir)
  | some boundary =>
    match cutBundle data boundary with
    | .error result => (result, dir)
    | .ok bundle =>
      match isValidDDFBundle sha256 bundle with
      | none => (.badRequest, dir)
      | some hash =>
        (.stored (binToHexAscii hash), storeBundle (binToHexAscii hash) bundle dir)

/-- `REST_DDF_PostBundles`: the response, and the directory of the user -/
def postBundles (contentType body : List UInt8) (dir : List DirEntry) :
    PostResult × List DirEntry :=
  if body.length < 32 ∨ 512000 < body.length then (.notHandled, dir)
  else if maxBundleSize < body.length + 1 then (.badRequest, dir)
  else postBody sha256 contentType body dir

/-- What `REST_DDF_GetBundle` answers. -/
inductive BundleAnswer where
  | badRequest
  | notFound
  | ok (bin : List UInt8)
deriving DecidableEq, Repr

def lowerHexDigit (ch : UInt8) : Option UInt8 :=
  if 0x30 ≤ ch ∧ ch ≤ 0x39 then some ch
  else if 0x61 ≤ ch ∧ ch ≤ 0x66 then some ch
  else if 0x41 ≤ ch ∧ ch ≤ 0x46 then some (ch + 0x20)
  else none

/-- `DDFB_SanitizeBundleHashString` -/
def sanitizeBundleHashString (str : List UInt8) : Option (List UInt8) :=
  if str.length = 64 then str.mapM lowerHexDigit else none

/-- A file that is listed and holds a bundle with the hash: its content -/
def holdsHash (hash : List UInt8) (e : DirEntry) : Option (List UInt8) :=
  if e.listed then
    match e.content with
    | none => none
    | some content =>
      if 0 < content.length ∧ content.length ≤ maxBundleSize then
        match isValidDDFBundle sha256 content with
        | none => none
        | some sha => if binToHexAscii sha = hash then some content else none
      else none
  else none

/-- `REST_DDF_GetBundle`: the first file with the bundle hash -/
def getBundle (locations : Locations) (urlBundleHash : List UInt8) : BundleAnswer :=
  match sanitizeBundleHashString urlBundleHash with
  | none => .badRequest
  | some hash =>
    match (locations.user.getD [] ++ locations.system.getD []).findSome? (holdsHash sha256 hash) with
    | none => .notFound
    | some bin => .ok bin

/-- A `multipart/form-data` request with one part: the parameters in front of the boundary and
behind it, what may stand in front of the first boundary and behind the last one, the lines of the
header of the part, and the blanks behind the first boundary. -/
structure MultipartRequest where
  params : List UInt8 := ascii "; "
  boundary : List UInt8
  quoted : Bool := false
  moreParams : List UInt8 := []
  preamble : List UInt8 := []
  padding : List UInt8 := []
  lines : List (List UInt8)
  bundle : List UInt8
  epilogue : List UInt8 := ascii "\r\n"
deriving DecidableEq, Repr

def crlf : List UInt8 := [0x0D, 0x0A]

namespace MultipartRequest

/-- The `Content-Type` header -/
def contentType (r : MultipartRequest) : List UInt8 :=
  ascii "multipart/form-data" ++ r.params ++ ascii "boundary=" ++
    (if r.quoted then ascii "\"" ++ r.boundary ++ ascii "\"" else r.boundary) ++ r.moreParams

/-- The header of the part, with the line end behind the boundary and the empty line -/
def header (r : MultipartRequest) : List UInt8 :=
  r.padding ++ crlf ++ r.lines.flatMap (fun line => line ++ crlf) ++ crlf

def body (r : MultipartRequest) : List UInt8 :=
  r.preamble ++ ascii "--" ++ r.boundary ++ r.header ++ r.bundle ++ crlf ++ ascii "--" ++
    r.boundary ++ ascii "--" ++ r.epilogue

def isBoundaryChar (c : UInt8) : Bool :=
  (0x30 ≤ c && c ≤ 0x39) || (0x41 ≤ c && c ≤ 0x5A) || (0x61 ≤ c && c ≤ 0x7A) ||
    (ascii "'()+_,-./:=? ").contains c

/-- **What the format asks of the request**: the header names the boundary where `boundary=` stands
first, the boundary is one and occurs neither in the bundle nor in front of the part, and the header
of the part has no empty line. -/
structure WellFormed (r : MultipartRequest) : Prop where
  params : findFirst (ascii "multipart/form-data" ++ r.params ++ ascii "boundary=")
    (ascii "boundary=") = some (ascii "multipart/form-data" ++ r.params).length
  moreParams : ∀ c ∈ r.moreParams.head?, c = 0x20 ∨ c = 0x3B
  boundary : r.boundary ≠ [] ∧ r.boundary.length ≤ 70 ∧
    (∀ c ∈ r.boundary, isBoundaryChar c = true) ∧ r.boundary.getLast? ≠ some 0x20
  bundle : ¬ r.boundary <:+: r.bundle
  preamble : ¬ r.boundary <:+: r.preamble ∧ (r.preamble = [] ∨ ∃ text, r.preamble = text ++ crlf)
  padding : ∀ c ∈ r.padding, c = 0x20 ∨ c = 0x09
  lines : ∀ line ∈ r.lines, line ≠ [] ∧ 0x0D ∉ line

end MultipartRequest

/-- **The upload comes back**: the bundle is stored under its bundle hash, and a lookup of the id in
the directory, in whatever order it is read, gives the bundle. -/
def ComesBack (r : MultipartRequest) (dir : List DirEntry) (system : Option (List DirEntry)) :
    Prop :=
  ∃ hash, isValidDDFBundle sha256 r.bundle = some hash ∧
    (postBundles sha256 r.contentType r.body dir).1 = .stored (binToHexAscii hash) ∧
    { name := ddbName (binToHexAscii hash), content := some r.bundle } ∈
      (postBundles sha256 r.contentType r.body dir).2 ∧
    ∀ read, read.Perm (postBundles sha256 r.contentType r.body dir).2 →
      getBundle sha256 ⟨some read, system⟩ (binToHexAscii hash) = .ok r.bundle

end Ddf
end DeconzRest

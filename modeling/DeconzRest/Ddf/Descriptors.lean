import DeconzRest.Cj.Parser
import DeconzRest.Ddf.Bundle
import DeconzRest.Json.Serialize
import DeconzRest.Lib.Substring
import Mathlib.Algebra.Ring.Nat

/-!
# The descriptors of the bundles, page by page

`REST_DDF_GetDescriptors` walks over the bundle files of two directories, first the one of the
user.  The files in front of the requested cursor are skipped, of the others up to 64 are
described, and where there are more files the cursor to go on with is put under `next`.

A response that an assertion or a write behind a buffer cuts off is `none`.  `U_Sha256` is a
parameter.
-/

namespace DeconzRest
namespace Ddf

open Json (ascii)

/-- An entry of a directory; the content is `none` where the file cannot be opened. -/
structure DirEntry where
  name : List UInt8
  isFile : Bool := true
  content : Option (List UInt8)
deriving DecidableEq, Repr

/-- The entry passes the two checks in front of each use of a bundle file. -/
def DirEntry.listed (e : DirEntry) : Bool :=
  e.isFile && ((findFirst e.name (ascii ".ddf")).isSome || (findFirst e.name (ascii ".ddb")).isSome)

/-- `MAX_BUNDLE_SIZE` -/
def maxBundleSize : Nat := 2 ^ 20

variable (sha256 : List UInt8 → List UInt8)

/-- The hash over the `DDFB` chunk, header and data -/
def ddfbHash (file : List UInt8) (bsDDFB : ByteStream) : List UInt8 :=
  sha256 ((file.drop (bsDDFB.start - 8)).take (bsDDFB.size + 8))

/-- The content of the `DESC` chunk -/
def descContent (file : List UInt8) (bsDDFB : ByteStream) : Option (List UInt8) :=
  match findChunk bsDDFB (tag "DESC") with
  | (none, _) => none
  | (some chunkSize, bs) => some ((file.drop (bs.start + bs.pos)).take chunkSize)

/-- `IsValidDDFBundle`: the bundle hash of a bundle. -/
def isValidDDFBundle (file : List UInt8) : Option (List UInt8) :=
  match ddfbContent file with
  | none => none
  | some bsDDFB =>
    match descContent file bsDDFB with
    | none => none
    | some _ => some (ddfbHash sha256 file bsDDFB)

/-- `BinToHexAscii` -/
def binToHexAscii (bytes : List UInt8) : List UInt8 :=
  bytes.flatMap fun b => [hexDigit (b.toNat / 16), hexDigit (b.toNat % 16)]
where
  hexDigit (n : Nat) : UInt8 := if n < 10 then UInt8.ofNat (0x30 + n) else UInt8.ofNat (0x57 + n)

/-- `maxResponseSize` -/
def maxResponseSize : Nat := 2 ^ 20

/-- `U_SStream` over the response: a text that does not fit with a closing zero is left out. -/
structure ResponseStream where
  text : List UInt8 := []
  ok : Bool := true
deriving DecidableEq, Repr

/-- `U_sstream_put_str` -/
def ResponseStream.put (ss : ResponseStream) (str : List UInt8) : ResponseStream :=
  if ss.ok && decide (ss.text.length + str.length < maxResponseSize) then
    { ss with text := ss.text ++ str }
  else { ss with ok := false }

/-- `U_sstream_put_str` with the assertion that it was successful. -/
def ResponseStream.putChecked (ss : ResponseStream) (str : List UInt8) : Option ResponseStream :=
  if (ss.put str).ok then some (ss.put str) else none

/-- One turn of the loop that copies the tokens: the text put, with the quotes of a string.
`ibuf` has 512 bytes. -/
def tokenCopy (desc : List UInt8) (tok : Cj.Token) : Option (List UInt8) :=
  if tok.len = 0 then none
  else if 511 < tok.len then none
  else if tok.type = .string then
    if tok.pos = 0 then none
    else if 512 ≤ tok.len + 2 then none -- the closing zero is written behind `ibuf`
    else some ((desc.drop (tok.pos - 1)).take (tok.len + 2))
  else some ((desc.drop tok.pos).take tok.len)

def copyTokens (desc : List UInt8) : List Cj.Token → ResponseStream → Option ResponseStream
  | [], ss => some ss
  | tok :: tokens, ss =>
    match tokenCopy desc tok with
    | none => none
    | some str =>
      match ss.putChecked str with
      | none => none
      | some ss => copyTokens desc tokens ss

/-- The tokens of a descriptor: `cj_parse` with room for 2048 tokens, and the assertions on what it
finds. -/
def descTokens (desc : List UInt8) : Option (List Cj.Token) :=
  if 32 < desc.length then
    match Cj.parse (Cj.parseInit desc 2048) with
    | none => none
    | some cj =>
      if cj.status = .ok ∧ cj.tokens.head?.map Cj.Token.type = some .objectBeg ∧
          cj.tokens.getLast?.map Cj.Token.type = some .objectEnd then
        some cj.tokens
      else none
  else none

/-- What `WriteBundleDescriptorToResponse` puts in front of the descriptor. -/
def putHash (nRecords : Nat) (hash : List UInt8) (ss : ResponseStream) : ResponseStream :=
  let ss := if 0 < nRecords then ss.put (ascii ",") else ss
  ((ss.put (ascii "\"")).put (binToHexAscii hash)).put (ascii "\":")

/-- What `WriteBundleDescriptorToResponse` puts behind the descriptor. -/
def putFileHash (hash : List UInt8) (ss : ResponseStream) : ResponseStream :=
  ((ss.put (ascii ", \"file_hash\": \"")).put (binToHexAscii hash)).put (ascii "\"\x7d")

/-- `WriteBundleDescriptorToResponse` -/
def writeBundleDescriptor (file : List UInt8) (ss : ResponseStream) (nRecords : Nat) :
    Option (Bool × ResponseStream) :=
  match ddfbContent file with
  | none => some (false, ss)
  | some bsDDFB =>
    match descContent file bsDDFB with
    | none => some (false, ss)
    | some desc =>
      match descTokens desc with
      | none => none
      | some tokens =>
        -- enough space for descriptor, hash key and file hash
        if ss.text.length + desc.length + 128 + 128 + 96 < maxResponseSize then
          match copyTokens desc tokens.dropLast
              (putHash nRecords (ddfbHash sha256 file bsDDFB) ss) with
          | none => none
          | some ss =>
            let ss := putFileHash (sha256 file) ss
            some (ss.ok, ss)
        else some (false, ss)

/-! ## The walk -/

/-- `maxRecords` -/
def maxRecords : Nat := 64

/-- The local variables of `REST_DDF_GetDescriptors`.  What has been put into the response is noted
beside it: the files that are described, and the numbers under `next`. -/
structure Listing where
  curCursor : Nat := 1
  nextCursor : Nat := 0
  nRecords : Nat := 0
  rsp : ResponseStream
  described : List DirEntry := []
  nexts : List Nat := []
deriving DecidableEq, Repr

/-- A cursor goes on by one; it is an `unsigned`. -/
def nextCursorOf (cursor : Nat) : Nat := (cursor + 1) % 2 ^ 32

/-- A file that is not skipped and for which there is a record left. -/
def describe (e : DirEntry) (s : Listing) : Option Listing :=
  match e.content with
  | none => some s
  | some content =>
    let file := content.take maxBundleSize
    if 32 < file.length then
      match writeBundleDescriptor sha256 file s.rsp s.nRecords with
      | none => none
      | some (true, rsp) =>
        some { s with
          rsp, curCursor := nextCursorOf s.curCursor, nRecords := s.nRecords + 1
          described := s.described ++ [e] }
      | some (false, rsp) => some { s with rsp }
    else some s

def readDir (reqCursor : Nat) : List DirEntry → Listing → Option Listing
  | [], s => some s
  | e :: dir, s =>
    if e.listed then
      if s.curCursor < reqCursor then
        readDir reqCursor dir { s with curCursor := nextCursorOf s.curCursor }
      else if s.nRecords < maxRecords then
        match describe sha256 e s with
        | none => none
        | some s => readDir reqCursor dir s
      else some { s with nextCursor := s.curCursor }
    else readDir reqCursor dir s

/-- `U_sstream_put_long` of a number that is not negative -/
def decimal (n : Nat) : List UInt8 := (Nat.toDigits 10 n).map fun c => c.toNat.toUInt8

/-- What is put behind the entries of a directory. -/
def putNext (s : Listing) : Listing :=
  if s.nextCursor ≠ 0 then
    { s with
      rsp := (s.rsp.put (ascii ",\"next\":")).put (decimal s.nextCursor)
      nexts := s.nexts ++ [s.nextCursor] }
  else s

/-- The two locations; `none` is a directory that cannot be opened. -/
structure Locations where
  user : Option (List DirEntry)
  system : Option (List DirEntry)
deriving DecidableEq, Repr

/-- The body of the loop over the locations -/
def readLocation (reqCursor : Nat) (dir : Option (List DirEntry)) (s : Listing) : Option Listing :=
  match dir with
  | none => some s
  | some dir => (readDir sha256 reqCursor dir s).map putNext

/-- What is answered; a page is the text with what has been put into it. -/
inductive DescriptorsResponse where
  | badRequest
  | ok (page : Listing)
deriving DecidableEq, Repr

/-- The cursor of a request, from the number under `?next=`. -/
def requestCursor (query : Option Int) : Option Nat :=
  match query with
  | none => some 1
  | some n => if 0 < n then some (n.toNat % 2 ^ 32) else none

/-- `REST_DDF_GetDescriptors` -/
def getDescriptors (locations : Locations) (query : Option Int) : Option DescriptorsResponse :=
  match requestCursor query with
  | none => some .badRequest
  | some reqCursor =>
    match readLocation sha256 reqCursor locations.user
        { rsp := ({} : ResponseStream).put (ascii "\x7b") } with
    | none => none
    | some s =>
      match readLocation sha256 reqCursor locations.system s with
      | none => none
      | some s => some (.ok { s with rsp := s.rsp.put (ascii "\x7d") })

def lampDesc : List UInt8 := ascii "\x7b\"product\":\"Lamp\", \"version\":\"1.0.0\"\x7d"

def lampDdfb : List UInt8 := tag "DDFB" ++ [45, 0, 0, 0] ++ tag "DESC" ++ [37, 0, 0, 0] ++ lampDesc

def lampFile : List UInt8 := tag "RIFF" ++ [53, 0, 0, 0] ++ lampDdfb

def lampEntry : DirEntry where
  name := ascii "lamp.ddb"
  content := some lampFile

/-- The SHA-256 hashes of the file and of its `DDFB` chunk -/
def lampSha256 (bytes : List UInt8) : List UInt8 :=
  if bytes = lampDdfb then
    [7, 29, 81, 54, 37, 126, 61, 202, 144, 5, 94, 32, 77, 31, 55, 118, 110, 219, 10, 55, 84, 53, 98,
      213, 139, 44, 125, 88, 183, 241, 234, 192]
  else if bytes = lampFile then
    [71, 10, 213, 24, 34, 181, 200, 171, 73, 133, 177, 147, 30, 59, 141, 179, 119, 149, 111, 79,
      230, 118, 156, 97, 128, 52, 191, 112, 64, 103, 114, 8]
  else List.replicate 32 0

theorem lampSha256_length (bytes : List UInt8) : (lampSha256 bytes).length = 32 := by
  unfold lampSha256
  split
  · rfl
  · split
    · rfl
    · exact List.length_replicate

end Ddf
end DeconzRest

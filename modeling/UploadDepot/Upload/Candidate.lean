/-
A file on its way in.

The chunks of the file are fed one by one. The size is checked with every
chunk, the type as soon as enough bytes have come to tell it, and only then
is the chunk hashed and spooled: so a file that will not be taken is given
up as early as can be.
-/
import UploadDepot.Digest.Sha256
import UploadDepot.Media.Signatures
import UploadDepot.Upload.Error

namespace UploadDepot.Upload

/-- What is asked of a file. -/
structure Terms where
  maxSize : Int
  /-- The number of bytes from which the type is told. -/
  sniffBytes : Int
  allowed : Table String String
  /-- Tells the type from the first bytes. -/
  sniff : Bytes → String

/-- The most bytes that are spooled in memory. -/
def spoolMemory : Nat := 1024 * 1024

/-- The state of an upload. -/
structure Candidate where
  terms : Terms
  size : Nat := 0
  /-- The type, once it has been told and admitted. -/
  mime : Option String := none
  /-- The first bytes, as long as the type has not been told. -/
  head : Bytes := []
  hasher : Sha256.Hasher := {}
  /-- The spooled chunks, latest first. -/
  spooled : List Bytes := []
  closed : Bool := false
  /-- The heads from which the type was told, latest first. -/
  sniffed : List Bytes := []

namespace Candidate

/-- Tells the type from the head. -/
def sniff (c : Candidate) : Candidate × Except UploadError Unit :=
  let mime := c.terms.sniff c.head
  let c := { c with head := [], sniffed := c.head :: c.sniffed }
  if Media.isAllowed mime c.terms.allowed then ({ c with mime := some mime }, .ok ())
  else (c, .error (.unsupportedType mime))

/-- Adds what is missing to the head, and tells the type if nothing is missing any more. -/
def look (c : Candidate) (chunk : Bytes) : Candidate × Except UploadError Unit :=
  if c.mime.isSome then (c, .ok ())
  else
    let c := { c with head := c.head ++ chunk.upTo (c.terms.sniffBytes - c.head.length) }
    if c.terms.sniffBytes ≤ c.head.length then c.sniff else (c, .ok ())

/-- Refuses the use of a spool that is closed. -/
def useSpool (c : Candidate) (use : SpoolUse) : Except Failure Unit :=
  if c.closed then
    let onDisk := c.spooled.foldl (fun n bs => n + bs.length) 0 > spoolMemory
    .error (.stray (.closedSpool { use, onDisk }))
  else .ok ()

/-- Hashes and spools a chunk. -/
def keep (c : Candidate) (chunk : Bytes) : Candidate × Except Failure Unit :=
  let c := { c with hasher := c.hasher.update chunk }
  match c.useSpool .write with
  | .error e => (c, .error e)
  | .ok () => ({ c with spooled := chunk :: c.spooled }, .ok ())

/-- Takes the next chunk of the file. -/
def feed (c : Candidate) (chunk : Bytes) : Candidate × Except Failure Unit :=
  let c := { c with size := c.size + chunk.length }
  if (c.size : Int) > c.terms.maxSize then (c, .error (.told (.tooLarge c.terms.maxSize)))
  else
    match c.look chunk with
    | (c, .error e) => (c, .error (.told e))
    | (c, .ok ()) => c.keep chunk

/-- The end of the file: its digest. The type of a short file is told here, from all its bytes. -/
def finish (c : Candidate) : Candidate × Except Failure String :=
  let (c, told) := if c.mime.isSome then (c, .ok ()) else c.sniff
  match told with
  | .error e => (c, .error (.told e))
  | .ok () =>
    match c.useSpool .flush with
    | .error e => (c, .error e)
    | .ok () => (c, .ok c.hasher.hexDigest)

/-- Gives the spool up. -/
def close (c : Candidate) : Candidate := { c with closed := true }

/-- All that was spooled. -/
def content (c : Candidate) : Bytes := c.spooled.reverse.flatten

/-- All that was spooled, unless the spool is closed. -/
def readSpool (c : Candidate) : Except Failure Bytes :=
  match c.useSpool .read with
  | .error e => .error e
  | .ok () => .ok c.content

/-- Feeds chunks up to the first that fails; also gives the number of those that did not. -/
def feedAll (c : Candidate) : List Bytes → Nat → Candidate × Nat × Except Failure Unit
  | [], fed => (c, fed, .ok ())
  | chunk :: chunks, fed =>
    match c.feed chunk with
    | (c, .error e) => (c, fed, .error e)
    | (c, .ok ()) => c.feedAll chunks (fed + 1)

end Candidate

end UploadDepot.Upload

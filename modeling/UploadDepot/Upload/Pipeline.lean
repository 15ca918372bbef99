/-
From a stream of bytes to a stored object: the stream is read piece by piece
into a candidate, and the candidate is committed to the store.
-/
import UploadDepot.Store.Basic
import UploadDepot.Upload.Candidate

namespace UploadDepot.Upload

/-- The stored object of an upload. -/
structure Ref where
  hash : String
  mime : String
  size : Nat
  /-- The object was there already. -/
  duplicate : Bool
  deriving DecidableEq, Repr

/-- How the upload ended. -/
def Ref.outcome (r : Ref) : Outcome := if r.duplicate then .duplicate else .fresh

/-- The log line of an upload that was stored. -/
def Ref.line (r : Ref) : Log.Line where
  level := .info
  text := "upload stored hash=" ++ r.hash ++ " mime=" ++ r.mime ++ " size=" ++ toString r.size
    ++ " duplicate=" ++ (if r.duplicate then "True" else "False")

/-- How an upload went. -/
structure Attempt where
  result : Except Failure Ref
  lines : List Log.Line := []
  /-- The heads from which the type was told. -/
  sniffed : List Bytes := []
  /-- The number of reads, or of chunks, up to the end or the failure. -/
  taken : Nat := 0

/-! ## Streams -/

/-- What one read from a stream gives; no bytes, or nothing, is the end. -/
inductive Read where
  | bytes (bs : Bytes)
  | nothing
  | fails (mishap : Mishap)
  deriving DecidableEq, Repr

/-- The reads of bytes in memory, so many at a time: all at once if the number is negative, and none
if it is zero. -/
def Read.ofBytes (chunkSize : Int) (data : Bytes) : List Read :=
  if chunkSize = 0 then []
  else if chunkSize < 0 then [.bytes data]
  else (data.pieces chunkSize.toNat).map .bytes

/-- A failed read. Failures of the system and useless values are failures of the stream. -/
def Failure.ofRead (m : Mishap) : Failure :=
  if m.kind = .other then .stray (.reading m) else .told (.stream (.reading m))

/-- Reads a stream into a candidate, up to its end or a failure; also gives the number of reads. -/
def Candidate.read (c : Candidate) : List Read → Nat → Candidate × Nat × Except Failure Unit
  | [], reads => (c, reads + 1, .ok ())
  | .nothing :: _, reads => (c, reads + 1, .ok ())
  | .fails m :: _, reads => (c, reads + 1, .error (Failure.ofRead m))
  | .bytes [] :: _, reads => (c, reads + 1, .ok ())
  | .bytes (b :: bs) :: rest, reads =>
    match c.feed (b :: bs) with
    | (c, .error e) => (c, reads + 1, .error e)
    | (c, .ok ()) => c.read rest (reads + 1)

/-! ## The pipeline -/

/-- The way of an upload into a store. -/
structure Pipeline (Q : Type) (A : Q → Type) where
  store : Store Q A
  terms : Terms
  /-- The number of bytes asked for in one read. -/
  chunkSize : Int

namespace Pipeline

variable {Q : Type} {A : Q → Type}

/-- A new candidate, unless the size declared for it is too large. -/
def candidate (p : Pipeline Q A) (declared : Option Int) : Except UploadError Candidate :=
  match declared with
  | some n => if n > p.terms.maxSize then .error (.tooLarge p.terms.maxSize)
              else .ok { terms := p.terms }
  | none => .ok { terms := p.terms }

/-- Ends a candidate and commits it. -/
def publish (p : Pipeline Q A) (c : Candidate) (taken : Nat) : Dialogue Q A Attempt :=
  match c.finish with
  | (c, .error e) => .done { result := .error e, sniffed := c.sniffed.reverse, taken }
  | (c, .ok hash) => do
    let mime := c.mime.getD ""
    let spool : Store.Spool := { content := c.content, position := c.size }
    let committed ← p.store.commit hash mime spool c.size
    match committed.value with
    | .error fault =>
      return { result := .error (Failure.ofStore fault), lines := committed.lines,
               sniffed := c.sniffed.reverse, taken }
    | .ok created =>
      let ref : Ref := { hash, mime, size := c.size, duplicate := !created }
      return { result := .ok ref, lines := committed.lines ++ [ref.line],
               sniffed := c.sniffed.reverse, taken }

/-- Publishes a candidate that was fed without a failure. -/
def conclude (p : Pipeline Q A) : Candidate × Nat × Except Failure Unit → Dialogue Q A Attempt
  | (c, taken, .error e) => .done { result := .error e, sniffed := c.sniffed.reverse, taken }
  | (c, taken, .ok ()) => p.publish c taken

/-- Takes in a whole stream, given by its reads. -/
def ingest (p : Pipeline Q A) (declared : Option Int) (reads : List Read) : Dialogue Q A Attempt :=
  match p.candidate declared with
  | .error e => .done { result := .error (.told e) }
  | .ok c => p.conclude (c.read reads 0)

/-- Takes in a file that is pushed chunk by chunk. -/
def push (p : Pipeline Q A) (declared : Option Int) (chunks : List Bytes) : Dialogue Q A Attempt :=
  match p.candidate declared with
  | .error e => .done { result := .error (.told e) }
  | .ok c => p.conclude (c.feedAll chunks 0)

end Pipeline

/-- The bytes in the first reads of a stream. -/
def Read.consumed (reads : List Read) (taken : Nat) : Nat :=
  ((reads.take taken).flatMap fun
    | .bytes bs => bs
    | _ => []).length

end UploadDepot.Upload

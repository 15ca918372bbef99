/-
Objects in a bucket of an object service.

The object of a digest has the key `<folder>/<first two characters>/<digest>`.
It is written by a request that is refused where there is an object already,
so it is created once.
-/
import UploadDepot.Store.Basic

namespace UploadDepot.Store

open Log (Logged)

/-- A store of objects in a bucket. -/
structure BucketStore where
  bucket : String
  folder : String
  /-- The region of the service, if it is known. -/
  region : Option String
  /-- The number of bytes looked at to tell the type of an object without one. -/
  sniffBytes : Int
  sniff : Bytes → String

/-- The codes that say that there is no object. -/
def missingCodes : List String := ["404", "NoSuchKey", "NotFound"]

/-- The codes that refuse a write because there is an object. -/
def presentCodes : List String := ["412", "PreconditionFailed"]

/-- The codes that refuse a write because of another one that has not ended. That one may still
fail, so there need not be an object. -/
def rivalCodes : List String := ["409", "ConditionalRequestConflict"]

namespace BucketStore

/-- The key of the object of a digest. -/
def keyOf (s : BucketStore) (digest : String) : String :=
  s.folder ++ "/" ++ String.ofList (digest.toList.take 2) ++ "/" ++ digest

/-- Makes the bucket if it is not there. -/
def prepare (s : BucketStore) : ServiceTalk (Logged (Except Fault Unit)) := do
  match ← ServiceTalk.headBucket s.bucket with
  | .ok () => return .silent (.ok ())
  | .error (.refused r) =>
    let tried : Log.Line :=
      { level := .warning
        text := "head_bucket failed for '" ++ s.bucket ++ "' (will attempt create): "
          ++ (ServiceFault.refused r).message }
    match ← ServiceTalk.createBucket s.bucket with
    | .ok () =>
      let made : Log.Line := { level := .info, text := "created bucket '" ++ s.bucket ++ "'" }
      return { lines := [tried, made], value := .ok () }
    | .error fault =>
      return { lines := [tried]
               value := .error (.storage (.bucketMissing s.bucket fault s.region)) }
  | .error fault => return .silent (.error (.storage (.bucketUnreachable s.bucket fault)))

/-- Whether there is an object of a digest. -/
def holds (s : BucketStore) (digest : String) : ServiceTalk (Except StorageFault Bool) := do
  match ← ServiceTalk.headObject s.bucket (s.keyOf digest) with
  | .ok () => return .ok true
  | .error (.refused r) =>
    if r.codeText ∈ missingCodes then return .ok false
    else return .error (.lookingUp digest (.refused r))
  | .error fault => return .error (.lookingUp digest fault)

/-- A write that failed, logged. -/
def writeFailed (s : BucketStore) (digest : String) (fault : ServiceFault) :
    Logged (Except Fault Bool) :=
  .note .error
    ("put_object failed hash=" ++ digest ++ " key=" ++ s.keyOf digest ++ " bucket=" ++ s.bucket
      ++ " err=" ++ fault.logged)
    (.error (.storage (.putting fault)))

/-- Stores a spool under a digest. What an object that is there already says is that the upload is
a duplicate; a rival write says so only if it has left its object. -/
def commit (s : BucketStore) (digest mime : String) (spool : Spool) (size : Int) :
    ServiceTalk (Logged (Except Fault Bool)) := do
  match ← s.holds digest with
  | .error fault => return .silent (.error (.storage fault))
  | .ok true => return .silent (.ok false)
  | .ok false =>
    let key := s.keyOf digest
    let wanted : Put :=
      { bucket := s.bucket, key, body := spool.rewind.rest, length := size, mime,
        onlyIfAbsent := true }
    match ← ServiceTalk.putObject wanted with
    | .ok () => return .silent (.ok true)
    | .error (.refused r) =>
      if r.codeText ∈ presentCodes then return .silent (.ok false)
      else if r.codeText ∈ rivalCodes then
        match ← s.holds digest with
        | .error fault => return .silent (.error (.storage fault))
        | .ok true => return .silent (.ok false)
        | .ok false => return .silent (.error (.storage (.rivalUnfinished key)))
      else return s.writeFailed digest (.refused r)
    | .error fault => return s.writeFailed digest fault

/-- A served object. Its type is the one noted with it, or else the one it is served with, or else
the one its first bytes tell; an empty one counts as none. -/
def loaded (s : BucketStore) (object : ServedObject) : Loaded :=
  match ((object.notes.get? "mime-type").filter (· ≠ "")).or
      (object.contentType.filter (· ≠ "")) with
  | some mime => { data := object.body, mime }
  | none =>
    let head := object.body.upTo s.sniffBytes
    { data := object.body, mime := s.sniff head, sniffed := [head] }

/-- The object of a digest. -/
def load (s : BucketStore) (digest : String) : ServiceTalk (Except Fault (Option Loaded)) := do
  match ← ServiceTalk.getObject s.bucket (s.keyOf digest) with
  | .ok object => return .ok (some (s.loaded object))
  | .error (.refused r) =>
    if r.codeText ∈ missingCodes then return .ok none
    else return .error (.storage (.fetching digest (.refused r)))
  | .error fault => return .error (.storage (.fetching digest fault))

/-- The store as others see it. -/
def store (s : BucketStore) : Store Request Request.Reply where
  label := "S3ObjectStore"
  prepare := s.prepare
  holds digest := do
    match ← s.holds digest with
    | .ok there => return .ok there
    | .error fault => return .error (.storage fault)
  commit := s.commit
  load := s.load

end BucketStore

end UploadDepot.Store

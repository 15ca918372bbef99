/-
An object service in memory, which can be told beforehand how to answer.
-/
import UploadDepot.Store.ObjectService

namespace UploadDepot.Store

/-- An answer told beforehand. -/
inductive Prepared where
  /-- The request fails; the operation is filled in. -/
  | fails (fault : ServiceFault)
  /-- The request is taken without an effect; one for an object gets this one. -/
  | succeeds (object : ServedObject)
  deriving Repr

/-- The state of the service. -/
structure MemoryService where
  buckets : List String
  objects : Table (String × String) ServedObject := []
  /-- The answers told beforehand, by operation, the next one first. -/
  prepared : Table String (List Prepared) := []
  deriving Repr

namespace MemoryService

/-- The refusal of a request. -/
def refuse (request : Request) (code message : String) : ServiceFault :=
  .refused { operation := request.operation, code := some code, message := some message }

/-- A fault, as the answer to a request. -/
def faultOf (request : Request) : ServiceFault → ServiceFault
  | .refused r => .refused { r with operation := request.operation }
  | fault => fault

/-- A taken request, by its answer told beforehand. -/
def taken (object : ServedObject) : (request : Request) → request.Gain
  | .headBucket _ => ()
  | .createBucket _ => ()
  | .headObject _ _ => ()
  | .putObject _ => ()
  | .getObject _ _ => object

/-- What the service answers of its own accord. -/
def serve : (request : Request) → MemoryService → request.Reply × MemoryService
  | .headBucket bucket, s =>
    if bucket ∈ s.buckets then (.ok (), s)
    else (.error (refuse (.headBucket bucket) "404" "Not Found"), s)
  | .createBucket bucket, s => (.ok (), { s with buckets := s.buckets ++ [bucket] })
  | .headObject bucket key, s =>
    if s.objects.has (bucket, key) then (.ok (), s)
    else (.error (refuse (.headObject bucket key) "404" "Not Found"), s)
  | .putObject put, s =>
    if put.onlyIfAbsent && s.objects.has (put.bucket, put.key) then
      (.error (refuse (.putObject put) "PreconditionFailed" "exists"), s)
    else
      let object : ServedObject :=
        { body := put.body, notes := [("mime-type", put.mime)], contentType := some put.mime }
      (.ok (), { s with objects := s.objects.set (put.bucket, put.key) object })
  | .getObject bucket key, s =>
    match s.objects.get? (bucket, key) with
    | some object => (.ok object, s)
    | none => (.error (refuse (.getObject bucket key) "NoSuchKey" "no such key"), s)

/-- The answer to a request: the next one told beforehand, or else the service's own. -/
def answer (request : Request) (s : MemoryService) : request.Reply × MemoryService :=
  match s.prepared.get? request.operation with
  | some (.fails fault :: rest) =>
    (.error (faultOf request fault),
      { s with prepared := s.prepared.set request.operation rest })
  | some (.succeeds object :: rest) =>
    (.ok (taken object request), { s with prepared := s.prepared.set request.operation rest })
  | _ => serve request s

end MemoryService

end UploadDepot.Store

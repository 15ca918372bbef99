/-
The service as its clients see it: requests in, answers out.

An upload asks for admission before anything of its body is read. Images are
served under their digest and never change, so they may be kept for ever.
-/
import UploadDepot.Http.ClientAddress
import UploadDepot.Http.ReadLimit
import UploadDepot.Http.Route
import UploadDepot.Json
import UploadDepot.RateLimit.Admission
import UploadDepot.Upload.Form

namespace UploadDepot.Http

open RateLimit (Gate Scope WholeSeconds)

/-- A failure that has no answer of its own. -/
inductive Escape where
  | upload (stray : Upload.Stray)
  | admission (fault : RateLimit.CallFault)
  | window (fault : Binary64.NotWhole)
  /-- A media type that no header field can hold. -/
  | mediaType (mime : String)
  deriving DecidableEq, Repr

/-- A request answered. -/
structure Exchange where
  response : Response
  lines : List Log.Line := []
  /-- The heads from which types were told. -/
  sniffed : List Bytes := []
  /-- The chunks of the body that were read. -/
  consumed : Nat := 0
  /-- What went wrong, if the answer is only that something did. -/
  escaped : Option Escape := none

/-- The state of the service. -/
structure Site (τ : Type) where
  gate : Gate τ
  reading : ReadLimit := {}

/-! ## Answers -/

/-- An answer with a body. -/
def answer (status : Nat) (contentType : String) (body : Bytes) (fields : Fields) : Response :=
  { status, body
    fields := [("content-type", contentType), ("content-length", toString body.length)] ++ fields }

/-- An answer in JSON. -/
def answerJson (status : Nat) (object : List (String × Json)) (fields : Fields) : Response :=
  answer status "application/json" (Bytes.ofText (Json.object object).render) fields

/-- An answer that says one thing. -/
def answerDetail (status : Nat) (detail : String) (fields : Fields) : Response :=
  answerJson status [("detail", .text detail)] fields

/-- The answer to a request that failed without an answer of its own. -/
def broken (escape : Escape) : Exchange :=
  { response := answer 500 "text/plain; charset=utf-8" (Bytes.ofText "Internal Server Error") []
    escaped := some escape }

/-- The answer where there is no such image. -/
def noImage : Exchange := { response := answerDetail 404 "not found" [] }

/-- The answer to a failed upload. -/
def rejected (e : Upload.UploadError) : Exchange :=
  { response := answerDetail e.outcome.status e.detail [], lines := [e.line] }

/-- A media type as it stands in the header: text has a character set. -/
def contentType (mime : String) : String :=
  let isText := "text/".toList.isPrefixOf mime.toList
  let hasCharset :=
    (Bytes.indexOf? (Bytes.ofText "charset=") (Bytes.ofText (Text.lowerString mime))).isSome
  if isText && !hasCharset then mime ++ "; charset=utf-8" else mime

/-- The answer with an image. -/
def serveImage (object : Store.Loaded) : Exchange :=
  let mime := contentType object.mime
  if (Bytes.ofLatin1? mime.toList).isNone then
    { broken (.mediaType mime) with sniffed := object.sniffed }
  else
    { response := answer 200 mime object.data
        [("cache-control", "public, max-age=31536000, immutable"),
         ("x-content-type-options", "nosniff")]
      sniffed := object.sniffed }

/-- The answer to an upload that was stored. -/
def stored (r : Upload.Ref) : Response :=
  answerJson r.outcome.status
    [("hash", .text r.hash), ("mime", .text r.mime), ("size", .whole r.size),
     ("duplicate", .flag r.duplicate)] []

/-! ## Requests -/

namespace Site

variable {Q : Type} {A : Q → Type} {τ : Type}

/-- Counts the end of an upload. -/
def count (s : Site τ) (outcome : Upload.Outcome) : Site τ :=
  { s with gate := { s.gate with metrics := s.gate.metrics.countUpload outcome } }

/-- The answer to an upload, and its outcome counted. -/
def conclude (s : Site τ) (attempt : Upload.Attempt) : Exchange × Site τ :=
  match attempt.result with
  | .ok ref =>
    ({ response := stored ref, lines := attempt.lines, sniffed := attempt.sniffed,
       consumed := attempt.taken }, s.count ref.outcome)
  | .error (.told e) =>
    let answered := rejected e
    ({ answered with lines := attempt.lines ++ answered.lines, sniffed := attempt.sniffed,
                     consumed := attempt.taken }, s.count e.outcome)
  | .error (.stray stray) =>
    ({ broken (.upload stray) with
       lines := attempt.lines, sniffed := attempt.sniffed, consumed := attempt.taken }, s)

/-- The answer to a client that is not admitted. -/
def turnedAway : RateLimit.AdmissionFault → Exchange
  | .limited denial =>
    { response := answerDetail 429 "rate limited" [("retry-after", toString denial.retryAfter)] }
  | .call fault => broken (.admission fault)
  | .window fault => broken (.window fault)

section Upload

variable [Sub τ] [LE τ] [DecidableLE τ] [WholeSeconds τ]

/-- An upload. -/
def upload (s : Site τ) (pipeline : Upload.Pipeline Q A) (request : Request) (now : τ) :
    Dialogue Q A (Exchange × Site τ) :=
  let client := clientAddress request.fields request.peer
  let (admission, gate) := s.gate.enter .uploadFile client now
  let s := { s with gate }
  match admission.value with
  | .error fault => .done ({ turnedAway fault with lines := admission.lines }, s)
  | .ok () => do
    let attempt ← pipeline.receive request
    return s.conclude attempt

end Upload

/-- An image. A request counts against the limit on reading whatever comes of it. -/
def image (s : Site τ) (pipeline : Upload.Pipeline Q A) (request : Request) (digest : String) :
    Dialogue Q A (Exchange × Site τ) :=
  let client := clientAddress request.fields request.peer
  let (within, reading) := s.reading.count client request.path
  let s := { s with reading }
  if within = false then
    .done ({ response := answerJson 429 [("error", .text reading.message)] [] }, s)
  else if Route.isDigest digest = false then .done (noImage, s)
  else do
    match ← pipeline.store.load digest with
    | .ok (some object) => return (serveImage object, s)
    | .ok none => return (noImage, s)
    | .error (.storage fault) => return (rejected (.storage fault), s)
    | .error (.stray fault) => return (broken (.upload (.file fault)), s)

/-- The answer to a path that leads nowhere. -/
def nowhere (path : String) : Response :=
  if Route.isElsewhere path then { status := 307, fields := [("content-length", "0")] }
  else answerDetail 404 "Not Found" []

variable [Sub τ] [LE τ] [DecidableLE τ] [WholeSeconds τ]

/-- Answers a request. -/
def handle (s : Site τ) (pipeline : Upload.Pipeline Q A) (request : Request) (now : τ) :
    Dialogue Q A (Exchange × Site τ) :=
  match Route.ofPath? request.path with
  | none => .done ({ response := nowhere request.path }, s)
  | some route =>
    if request.method ≠ route.method then
      .done ({ response := answerDetail 405 "Method Not Allowed" [("allow", route.method)] }, s)
    else
      match route with
      | .uploads => s.upload pipeline request now
      | .image digest => s.image pipeline request digest
      | .health => .done ({ response := answerJson 200 [("status", .text "ok")] [] }, s)
      | .metrics =>
        .done ({ response :=
                   answer 200 "text/plain; version=1.0.0; charset=utf-8"
                     (Bytes.ofText s.gate.metrics.exposition) [] }, s)

end Site

end UploadDepot.Http

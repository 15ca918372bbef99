/-
The file of a form: from the events of a multipart body, the data of the
first part that carries the wanted name and a file name.

The `Selector` is the machine over events; it keeps the headers of the part
at hand, within a budget, and the data slices not yet handed over. The
`Reader` drives it with the events of each chunk.
-/
import UploadDepot.Header.Parameters
import UploadDepot.Multipart.Scanner

namespace UploadDepot.Multipart

/-- The most bytes that the header names and values of one part may have together. -/
def headerBudget : Nat := 16 * 1024

/-- Why a body, or its content type, was refused. -/
inductive FormFault where
  | notMultipart
  | missingBoundary
  | malformed (fault : Fault)
  | headersTooLarge
  | missingField (field : String)
  | truncated
  deriving DecidableEq, Repr

/-- What the client is told. -/
def FormFault.message : FormFault → String
  | .notMultipart => "Expected a multipart/form-data body"
  | .missingBoundary => "Missing multipart boundary"
  | .malformed fault => "malformed multipart body: " ++ fault.message
  | .headersTooLarge => "multipart part headers too large"
  | .missingField field => "Missing '" ++ field ++ "' field"
  | .truncated => "upload truncated before the closing boundary"

/-- A refused body, or a header whose parameters cannot be told. -/
inductive ReadFault where
  | form (fault : FormFault)
  | parameters (fault : Header.ParameterFault)
  deriving DecidableEq, Repr

/-- The boundary of a body, from its content type. -/
def boundary (contentType : Option String) : Except ReadFault Bytes :=
  match Header.parameters (contentType.getD "").toList with
  | .error fault => .error (.parameters fault)
  | .ok (mediaType, ps) =>
    if mediaType ≠ Bytes.ofText "multipart/form-data" then .error (.form .notMultipart)
    else
      match ps.get? (Bytes.ofText "boundary") with
      | none | some [] => .error (.form .missingBoundary)
      | some b => .ok b

/-! ## Choosing the part -/

/-- The state of the choice. -/
structure Selector where
  /-- The name of the wanted field. -/
  field : String
  /-- The wanted part has come. -/
  found : Bool := false
  /-- The wanted part has ended. -/
  finished : Bool := false
  /-- The part at hand is the wanted one. -/
  inTarget : Bool := false
  /-- Bytes of header names and values seen in the part at hand. -/
  headerBytes : Nat := 0
  /-- The header name at hand, as far as it has come. -/
  name : Bytes := []
  /-- The header value at hand, as far as it has come. -/
  value : Bytes := []
  /-- The complete headers of the part at hand, by name in small letters. -/
  headers : Header.Parameters := []
  /-- The data slices of the wanted part that are not handed over yet, latest first. -/
  taken : List Bytes := []
  deriving Repr

namespace Selector

/-- Counts header bytes against the budget. -/
def charge (s : Selector) (n : Nat) : Except ReadFault Selector :=
  if s.headerBytes + n > headerBudget then .error (.form .headersTooLarge)
  else .ok { s with headerBytes := s.headerBytes + n }

/-- The headers of the part at hand are complete: is it the wanted one? Only a part with a file name
is a file. -/
def choose (s : Selector) : Except ReadFault Selector :=
  let disposition := (s.headers.get? (Bytes.ofText "content-disposition")).getD []
  match Header.parameters (Bytes.latin1 disposition) with
  | .error fault => .error (.parameters fault)
  | .ok (_, ps) =>
    let name := Bytes.latin1 ((ps.get? (Bytes.ofText "name")).getD [])
    let isFile := (ps.get? (Bytes.ofText "filename")).isSome
    if s.found = false ∧ isFile ∧ name = s.field.toList then
      .ok { s with found := true, inTarget := true }
    else .ok s

/-- One event. -/
def step (s : Selector) : Event → Except ReadFault Selector
  | .partBegin => .ok { s with headers := [], headerBytes := 0 }
  | .headerName bs => do
    let s ← s.charge bs.length
    return { s with name := s.name ++ bs }
  | .headerValue bs => do
    let s ← s.charge bs.length
    return { s with value := s.value ++ bs }
  | .headerEnd =>
    .ok { s with headers := s.headers.set (Bytes.lower s.name) s.value, name := [], value := [] }
  | .headersFinished => s.choose
  | .data bs => .ok (if s.inTarget then { s with taken := bs :: s.taken } else s)
  | .partEnd => .ok (if s.inTarget then { s with inTarget := false, finished := true } else s)

/-- A run of events, up to the first that fails: the state before that event, and the failure. -/
def run (s : Selector) : List Event → Selector × Option ReadFault
  | [] => (s, none)
  | e :: es =>
    match s.step e with
    | .error fault => (s, some fault)
    | .ok s => s.run es

/-- Hands over the data taken so far. -/
def handOver (s : Selector) : Selector × Bytes :=
  ({ s with taken := [] }, s.taken.reverse.flatten)

end Selector

/-! ## Reading a body -/

/-- The reader of one body. -/
structure Reader where
  scanner : Scanner
  selector : Selector

namespace Reader

/-- A reader before the first chunk. -/
def start (boundary : Bytes) (field : String) : Reader :=
  { scanner := .start boundary, selector := { field } }

/-- The wanted part has come. -/
def found (r : Reader) : Bool := r.selector.found

/-- The wanted part has ended. -/
def finished (r : Reader) : Bool := r.selector.finished

/-- Reads one chunk and gives the bytes of the file that it held. What is wrong first in the order
of the body is what is reported: an event before a fault counts. -/
def feed (r : Reader) (chunk : Bytes) : Reader × Except ReadFault Bytes :=
  let (events, scanned) := r.scanner.scan chunk
  match r.selector.run events with
  | (selector, some fault) => ({ r with selector }, .error fault)
  | (selector, none) =>
    match scanned with
    | .error fault => ({ r with selector }, .error (.form (.malformed fault)))
    | .ok scanner =>
      let (selector, data) := selector.handOver
      ({ scanner, selector }, .ok data)

/-- The end of the body: did the file come whole? -/
def close (r : Reader) : Except FormFault Unit :=
  if r.found = false then .error (.missingField r.selector.field)
  else if r.finished = false then .error .truncated
  else .ok ()

end Reader

end UploadDepot.Multipart

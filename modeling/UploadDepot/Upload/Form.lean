/-
Uploads as forms: the file is one part of a multipart body that comes in
chunks of any size. What a chunk holds of the file goes into the candidate
at once, so a file that will not be taken ends the reading of the body.
-/
import UploadDepot.Http.Message
import UploadDepot.Upload.Pipeline

namespace UploadDepot.Upload

/-- The name of the field of the file. -/
def fileField : String := "file"

/-- What a body may have beyond the file: boundaries and the headers of the parts. -/
def formOverhead : Nat := 64 * 1024

/-- Digits as they may stand in a header field, the superscripts among them. -/
def isFieldDigit (c : Char) : Bool :=
  c.isDigit || c = '\u00B2' || c = '\u00B3' || c = '\u00B9'

/-- Refuses a body that is declared longer than the limit. A length that is not made of digits says
nothing. -/
def checkDeclared (maxSize bodyLimit : Int) (declared : Option String) : Except Failure Unit :=
  match declared with
  | none => .ok ()
  | some text =>
    if text = "" ∨ text.toList.all isFieldDigit = false then .ok ()
    else
      match Numeral.readInt text with
      | .error fault => .error (.stray (.declaredLength fault))
      | .ok n => if n > bodyLimit then .error (.told (.tooLarge maxSize)) else .ok ()

/-- A form on its way in. -/
structure Intake where
  candidate : Candidate
  reader : Multipart.Reader
  /-- The bytes of the body so far. -/
  received : Nat := 0
  /-- The chunks of the body so far. -/
  taken : Nat := 0

namespace Intake

/-- Refuses a body that has grown over the limit. -/
def checkReceived (i : Intake) (bodyLimit : Int) : Except Failure Unit :=
  if (i.received : Int) > bodyLimit then .error (.told (.tooLarge i.candidate.terms.maxSize))
  else .ok ()

/-- Takes bytes of the body. -/
def feed (i : Intake) (bodyLimit : Int) (bytes : Bytes) : Intake × Except Failure Unit :=
  let i := { i with received := i.received + bytes.length }
  match i.checkReceived bodyLimit with
  | .error e => (i, .error e)
  | .ok () =>
    match i.reader.feed bytes with
    | (reader, .error fault) => ({ i with reader }, .error (Failure.ofForm fault))
    | (reader, .ok []) => ({ i with reader }, .ok ())
    | (reader, .ok (b :: bs)) =>
      let (candidate, fed) := i.candidate.feed (b :: bs)
      ({ i with reader, candidate }, fed)

/-- Takes the chunks of the body, up to the first that fails. An empty one is passed over. -/
def feedAll (i : Intake) (bodyLimit : Int) : List Bytes → Intake × Except Failure Unit
  | [] => (i, .ok ())
  | [] :: chunks => { i with taken := i.taken + 1 }.feedAll bodyLimit chunks
  | (b :: bs) :: chunks =>
    match { i with taken := i.taken + 1 }.feed bodyLimit (b :: bs) with
    | (i, .error e) => (i, .error e)
    | (i, .ok ()) => i.feedAll bodyLimit chunks

/-- The end of the body. A limit below zero is broken even by a body without bytes. -/
def finish (i : Intake) (bodyLimit : Int) (disconnects : Bool) : Except Failure Unit :=
  if disconnects then .error (.told (.stream .disconnected))
  else
    match i.checkReceived bodyLimit with
    | .error e => .error e
    | .ok () =>
      match i.reader.close with
      | .ok () => .ok ()
      | .error fault => .error (.told (.stream (.form fault)))

end Intake

/-- Takes in the file of a form. -/
def Pipeline.receive {Q : Type} {A : Q → Type} (p : Pipeline Q A) (request : Http.Request) :
    Dialogue Q A Attempt :=
  let bodyLimit := p.terms.maxSize + formOverhead
  match checkDeclared p.terms.maxSize bodyLimit (request.fields.get? "content-length") with
  | .error e => .done { result := .error e }
  | .ok () =>
    match Multipart.boundary (request.fields.get? "content-type") with
    | .error fault => .done { result := .error (Failure.ofForm fault) }
    | .ok boundary =>
      match p.candidate none with
      | .error e => .done { result := .error (.told e) }
      | .ok candidate =>
        let intake : Intake := { candidate, reader := .start boundary fileField }
        let (intake, fed) := intake.feedAll bodyLimit request.chunks
        let ended :=
          match fed with
          | .error e => .error e
          | .ok () => intake.finish bodyLimit request.disconnects
        p.conclude (intake.candidate, intake.taken, ended)

end UploadDepot.Upload

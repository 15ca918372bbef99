/-
Who the client is. Behind a proxy the other end of the connection is the
proxy, and the client is named in a header: in the first entry of
X-Forwarded-For, or in the `for` parameter of Forwarded.
-/
import UploadDepot.Http.Message
import UploadDepot.Text.Blank
import UploadDepot.Text.Split

namespace UploadDepot.Http

open Text (before partsAt)

/-- The node that a part of Forwarded names, if it is a `for` parameter: an address with an optional
port, or one in brackets with an optional port, in quotation marks or without; a list counts by its
first entry. -/
def forwardedNode? (part : List Char) : Option (List Char) :=
  let part := Text.strip part
  if Text.lower (part.take 4) = "for=".toList then
    let value := Text.trim (· == '"') (Text.strip (before ',' (part.drop 4)))
    match value with
    | '[' :: address => some (before ']' address)
    | _ => some (before ':' value)
  else none

/-- The first entry of X-Forwarded-For, unless it is blank. -/
def forwardedFor? (fields : Fields) : Option (List Char) :=
  match fields.get? "x-forwarded-for" with
  | none => none
  | some text =>
    let first := Text.strip (before ',' text.toList)
    if first = [] then none else some first

/-- The first `for` parameter of Forwarded that names anything. -/
def forwarded? (fields : Fields) : Option (List Char) :=
  match fields.get? "forwarded" with
  | none => none
  | some text => (partsAt ';' text.toList).findSome? fun part =>
      match forwardedNode? part with
      | none | some [] => none
      | some node => some node

/-- The address of the client, from the headers or else from the connection. -/
def clientAddress (fields : Fields) (peer : Option String) : String :=
  match forwardedFor? fields with
  | some address => String.ofList address
  | none =>
    match forwarded? fields with
    | some address => String.ofList address
    | none =>
      match peer with
      | none => "unknown"
      | some host => if host = "" then "unknown" else host

end UploadDepot.Http

/-
Requests and responses.
-/
import UploadDepot.Bytes
import UploadDepot.Text.Lower

namespace UploadDepot.Http

/-- Header fields, in the order in which they came. -/
abbrev Fields := List (String × String)

/-- The value of the first field of a name; names are compared without regard to the size of their
letters. -/
def Fields.get? (fs : Fields) (name : String) : Option String :=
  (fs.find? fun f => Text.lowerString f.1 = Text.lowerString name).map (·.2)

/-- A request. The body comes in chunks, and may break off after the last. -/
structure Request where
  method : String
  path : String
  fields : Fields := []
  /-- The address of the other end of the connection. -/
  peer : Option String := none
  chunks : List Bytes := []
  /-- The client goes away after the last chunk. -/
  disconnects : Bool := false

/-- A response. -/
structure Response where
  status : Nat
  fields : Fields := []
  body : Bytes := []
  deriving DecidableEq, Repr

end UploadDepot.Http

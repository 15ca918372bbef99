/-
The resources of the service and the paths that lead to them.
-/
import UploadDepot.Bytes

namespace UploadDepot.Http

/-- A resource. -/
inductive Route where
  | uploads
  | image (digest : String)
  | health
  | metrics
  deriving DecidableEq, Repr

namespace Route

/-- The one method that a resource knows. -/
def method : Route → String
  | .uploads => "POST"
  | _ => "GET"

/-- The resources with a path of their own. -/
def fixed : List (String × Route) :=
  [("/api/health", .health), ("/metrics", .metrics), ("/api/v1/images", .uploads)]

/-- What all paths of images begin with. -/
def imageRoot : String := "/images/"

/-- The digest in the path of an image: all that follows, unless it is nothing or has a slash. -/
def imageDigest? (path : String) : Option String :=
  let cs := path.toList
  if imageRoot.toList.isPrefixOf cs then
    let rest := cs.drop imageRoot.length
    if rest = [] ∨ '/' ∈ rest then none else some (String.ofList rest)
  else none

/-- The resource of a path. A path of its own may be followed by a line feed. -/
def ofPath? (path : String) : Option Route :=
  match fixed.find? fun entry => path = entry.1 ∨ path = entry.1 ++ "\n" with
  | some (_, route) => some route
  | none => (imageDigest? path).map .image

/-- The same path with a slash at the end, or without the slashes that are there. -/
def otherSlash (path : String) : String :=
  let cs := path.toList
  if cs.getLast? = some '/' then String.ofList (cs.reverse.dropWhile (· == '/')).reverse
  else path ++ "/"

/-- Whether a path that leads nowhere leads somewhere with or without a slash at its end. -/
def isElsewhere (path : String) : Bool := path ≠ "/" && (ofPath? (otherSlash path)).isSome

/-- Whether a text is a digest: sixty-four hexadecimal digits in small letters. Nothing else is ever
made a path of. -/
def isDigest (text : String) : Bool :=
  text.length = 64 && text.toList.all fun c => c.isDigit || ('a' ≤ c && c ≤ 'f')

end Route

end UploadDepot.Http

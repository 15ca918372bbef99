/-
What can go wrong with files, and the words for it.
-/
import UploadDepot.Files.Tree
import UploadDepot.Text.Quoted

namespace UploadDepot

/-- The classes of failure that callers tell apart. -/
inductive MishapClass where
  /-- A system call found something in its way. -/
  | alreadyThere
  /-- A system call failed. -/
  | system
  /-- A value was of no use, as a stream that is closed already. -/
  | value
  /-- Anything else. -/
  | other
  deriving DecidableEq, Repr

/-- A failure reported from outside, by name and in its own words. -/
structure Mishap where
  kind : MishapClass
  label : String
  text : String
  deriving DecidableEq, Repr

/-- Whether a system call failed. -/
def Mishap.isSystem (m : Mishap) : Bool := m.kind = .alreadyThere ∨ m.kind = .system

namespace Files

/-- The number and the words of a refusal. -/
def Refusal.words : Refusal → Nat × String
  | .notFound => (2, "No such file or directory")
  | .alreadyThere => (17, "File exists")
  | .notDirectory => (20, "Not a directory")
  | .isDirectory => (21, "Is a directory")
  | .nameTooLong => (36, "File name too long")

/-- The name of a refusal. -/
def Refusal.label : Refusal → String
  | .notFound => "FileNotFoundError"
  | .alreadyThere => "FileExistsError"
  | .notDirectory => "NotADirectoryError"
  | .isDirectory => "IsADirectoryError"
  | .nameTooLong => "OSError"

/-- What went wrong with a file. -/
inductive Fault where
  /-- The file system refused, on these paths. -/
  | refused (refusal : Refusal) (paths : List Path)
  /-- A path holds a NUL character. -/
  | nulInPath
  /-- Something else failed in its place. -/
  | mishap (m : Mishap)
  deriving DecidableEq, Repr

namespace Fault

/-- Whether a system call failed; a path that is none is found out before the call. -/
def isSystem : Fault → Bool
  | .refused _ _ => true
  | .nulInPath => false
  | .mishap m => m.isSystem

/-- Whether something was in the way. -/
def isAlreadyThere : Fault → Bool
  | .refused refusal _ => refusal = .alreadyThere
  | .nulInPath => false
  | .mishap m => m.kind = .alreadyThere

/-- Whether a path led to nothing. -/
def isNotFound : Fault → Bool
  | .refused refusal _ => refusal = .notFound
  | _ => false

/-- The words of a fault. -/
def message : Fault → String
  | .refused refusal paths =>
    "[Errno " ++ toString refusal.words.1 ++ "] " ++ refusal.words.2 ++ ": "
      ++ " -> ".intercalate (paths.map fun p => Text.quote p.text)
  | .nulInPath => "embedded null byte"
  | .mishap m => m.text

/-- The name of a fault. -/
def label : Fault → String
  | .refused refusal _ => refusal.label
  | .nulInPath => "ValueError"
  | .mishap m => m.label

/-- A fault as it is logged. -/
def logged : Fault → String
  | .refused refusal paths =>
    (refused refusal paths).label ++ "(" ++ toString refusal.words.1 ++ ", "
      ++ Text.quote refusal.words.2 ++ ")"
  | fault => fault.label ++ "(" ++ Text.quote fault.message ++ ")"

end Fault

end Files

end UploadDepot

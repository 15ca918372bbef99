/-
File trees, and what a file system does with them.

A tree is a table from places to nodes. A place is the list of names on the
way from the top; the top itself is always a directory. A path is followed
name by name, through directories only. Names and paths have a greatest
length.
-/
import UploadDepot.Files.Path
import UploadDepot.Table

namespace UploadDepot.Files

/-- Why a file system refuses. -/
inductive Refusal where
  | notFound
  | alreadyThere
  | notDirectory
  | isDirectory
  | nameTooLong
  deriving DecidableEq, Repr

/-- What is at a place. The content of a file is left open. Of links there are only those that lead
nowhere: one that leads to something would be followed by all that is asked of a path, and taken away
itself. -/
inductive Node (α : Type) where
  | file (content : α)
  | directory
  /-- A link to nothing. -/
  | brokenLink
  deriving DecidableEq, Repr

/-- A place in a tree. -/
abbrev Place := List String

/-- A file tree. -/
abbrev Tree (α : Type) := Table Place (Node α)

namespace Tree

variable {α : Type}

/-- The node at a place. -/
def node? (t : Tree α) (place : Place) : Option (Node α) :=
  if place = [] then some .directory else t.get? place

/-- The most bytes in a name. -/
def nameLimit : Nat := 255

/-- The most bytes in a path, with a slash before every name. -/
def pathLimit : Nat := 4095

/-- Follows the names of a path from a directory on. Every name but the last has to lead to a
directory; `..` leads up, and from the top to the top. -/
def follow (t : Tree α) (start : Place) : List String → Except Refusal Place
  | [] => .ok start
  | name :: names =>
    if name = ".." then follow t start.dropLast names
    else if nameLimit < name.utf8ByteSize then .error .nameTooLong
    else if names = [] then .ok (start ++ [name])
    else
      match t.node? (start ++ [name]) with
      | some .directory => follow t (start ++ [name]) names
      | some (.file _) => .error .notDirectory
      | some .brokenLink | none => .error .notFound

/-- The place of a path. -/
def resolve (t : Tree α) (path : List String) : Except Refusal Place :=
  if pathLimit < path.foldl (fun n name => n + 1 + name.utf8ByteSize) 0 then .error .nameTooLong
  else follow t [] path

/-- The node that a path leads to. -/
def status (t : Tree α) (path : List String) : Except Refusal (Node α) := do
  match t.node? (← t.resolve path) with
  | some (.file content) => return .file content
  | some .directory => return .directory
  | some .brokenLink | none => throw .notFound

/-- Whether a path leads to anything. A path that is too long is not followed; one that is cut off
leads to nothing. -/
def holds (t : Tree α) (path : List String) : Except Refusal Bool :=
  match t.status path with
  | .ok _ => .ok true
  | .error .nameTooLong => .error .nameTooLong
  | .error _ => .ok false

/-- Whether a path leads to a file. -/
def isFile (t : Tree α) (path : List String) : Except Refusal Bool :=
  match t.status path with
  | .ok (.file _) => .ok true
  | .ok _ => .ok false
  | .error .nameTooLong => .error .nameTooLong
  | .error _ => .ok false

/-- Whether a path leads to a directory. -/
def isDirectory (t : Tree α) (path : List String) : Bool :=
  match t.status path with
  | .ok .directory => true
  | _ => false

/-- The same, unless the path is too long to be followed. -/
def hasDirectory (t : Tree α) (path : List String) : Except Refusal Bool :=
  match t.status path with
  | .error .nameTooLong => .error .nameTooLong
  | _ => .ok (t.isDirectory path)

/-- The content of a file. -/
def read (t : Tree α) (path : List String) : Except Refusal α := do
  match ← t.status path with
  | .file content => return content
  | _ => throw .isDirectory

/-- Makes one directory. -/
def makeDirectory (t : Tree α) (path : List String) : Except Refusal (Tree α) := do
  let place ← t.resolve path
  if (t.node? place).isSome then throw .alreadyThere else return t.set place .directory

/-- Makes a directory that may be there already, the directory above it being there. -/
def makeLast (t : Tree α) (path : List String) : Except (Refusal × List String) (Tree α) :=
  match t.makeDirectory path with
  | .ok t => .ok t
  | .error .notFound => .error (.notFound, path)
  | .error refusal => if t.isDirectory path then .ok t else .error (refusal, path)

/-- Makes a directory that may be there already, and first the directories above it that are
missing. A refusal comes with the path that was refused; the directories made until then stay. -/
def makeDirectories (t : Tree α) (path : List String) :
    Except (Refusal × List String) Unit × Tree α :=
  match t.makeLast path with
  | .ok made => (.ok (), made)
  | .error (.notFound, _) =>
    if path = [] then (.error (.notFound, path), t)
    else
      match makeDirectories t path.dropLast with
      | (.error e, above) => (.error e, above)
      | (.ok (), above) =>
        match above.makeLast path with
        | .ok made => (.ok (), made)
        | .error e => (.error e, above)
  | .error e => (.error e, t)
termination_by path.length
decreasing_by
  rename_i nonempty
  have : 0 < path.length := List.length_pos_iff.2 nonempty
  rw [List.length_dropLast]
  omega

/-- Writes a file, in the place of a file that is there. -/
def write (t : Tree α) (path : List String) (content : α) : Except Refusal (Tree α) := do
  let place ← t.resolve path
  match t.node? place with
  | some .directory => throw .isDirectory
  | _ => return t.set place (.file content)

/-- Gives a file a second name, which must be free. -/
def link (t : Tree α) (path new : List String) : Except Refusal (Tree α) := do
  let content ← t.read path
  let place ← t.resolve new
  if (t.node? place).isSome then throw .alreadyThere else return t.set place (.file content)

/-- Takes a file away. -/
def remove (t : Tree α) (path : List String) : Except Refusal (Tree α) := do
  let place ← t.resolve path
  match t.node? place with
  | none => throw .notFound
  | some .directory => throw .isDirectory
  | some _ => return t.erase place

/-- Takes away everything at and below a place. -/
def removeAll (t : Tree α) (place : Place) : Tree α := t.filter fun p => !place.isPrefixOf p.1

/-- All that is below a place and is no directory, each with the names on the way from there. -/
def below (t : Tree α) (place : Place) : List (List String) :=
  t.filterMap fun (p, node) =>
    match node with
    | .directory => none
    | _ =>
      if place.length < p.length ∧ place.isPrefixOf p then some (p.drop place.length) else none

/-- The names in a directory. -/
def names (t : Tree α) (path : List String) : Except Refusal (List String) := do
  let place ← t.resolve path
  return t.filterMap fun (p, _) =>
    if p.length = place.length + 1 ∧ place.isPrefixOf p then p.getLast? else none

end Tree

end UploadDepot.Files

/-
A disk, as stores use it: the questions that are put to it, and its answers.
-/
import UploadDepot.Dialogue
import UploadDepot.Files.Fault

namespace UploadDepot.Store

open Files (Path)

/-- What can be asked of a disk. -/
inductive DiskRequest where
  /-- Is there anything at a path? -/
  | holds (path : Path)
  | isFile (path : Path)
  | makeDirectories (path : Path)
  /-- A name that nothing else bears. -/
  | freshName
  | write (path : Path) (content : Bytes)
  | link (path new : Path)
  | remove (path : Path)
  | read (path : Path)
  deriving DecidableEq, Repr

/-- The types of the answers. -/
@[reducible] def DiskRequest.Reply : DiskRequest → Type
  | .holds _ => Except Files.Fault Bool
  | .isFile _ => Except Files.Fault Bool
  | .freshName => String
  | .read _ => Except Files.Fault Bytes
  | _ => Except Files.Fault Unit

/-- A dialogue with a disk. -/
abbrev DiskTalk := Dialogue DiskRequest DiskRequest.Reply

namespace DiskTalk

/-- Asks whether there is anything at a path. -/
def holds (path : Path) : DiskTalk (Except Files.Fault Bool) := .ask (.holds path) .done

/-- Asks whether there is a file at a path. -/
def isFile (path : Path) : DiskTalk (Except Files.Fault Bool) := .ask (.isFile path) .done

/-- Makes a directory and those above it. -/
def makeDirectories (path : Path) : DiskTalk (Except Files.Fault Unit) :=
  .ask (.makeDirectories path) .done

/-- Asks for a name that nothing else bears. -/
def freshName : DiskTalk String := .ask .freshName .done

/-- Writes a file. -/
def write (path : Path) (content : Bytes) : DiskTalk (Except Files.Fault Unit) :=
  .ask (.write path content) .done

/-- Gives a file a second name. -/
def link (path new : Path) : DiskTalk (Except Files.Fault Unit) := .ask (.link path new) .done

/-- Removes a file. -/
def remove (path : Path) : DiskTalk (Except Files.Fault Unit) := .ask (.remove path) .done

/-- Reads a file. -/
def read (path : Path) : DiskTalk (Except Files.Fault Bytes) := .ask (.read path) .done

end DiskTalk

/-- A write that breaks off. -/
structure BrokenWrite where
  mishap : Mishap
  /-- The number of bytes that are in the file by then; there is no file at all if there is none. -/
  reached : Option Nat
  deriving DecidableEq, Repr

/-- A disk. -/
structure Disk where
  tree : Files.Tree Bytes := []
  /-- The names that will be given out. -/
  names : Nat → String
  /-- The number of names given out. -/
  named : Nat := 0
  /-- How the next write breaks off. -/
  writeBreaks : Option BrokenWrite := none
  /-- What goes wrong instead of the next link. -/
  linkFails : Option Mishap := none

namespace Disk

/-- Does something to the tree that may be refused, on the paths given. -/
def change (d : Disk) (paths : List Path) (result : Except Files.Refusal (Files.Tree Bytes)) :
    Except Files.Fault Unit × Disk :=
  if paths.any Path.hasNul then (.error .nulInPath, d)
  else
    match result with
    | .ok tree => (.ok (), { d with tree })
    | .error refusal => (.error (.refused refusal paths), d)

/-- Asks the tree about a path. One with a NUL character leads to nothing. -/
def look (d : Disk) (path : Path) (result : Except Files.Refusal Bool) :
    Except Files.Fault Bool × Disk :=
  if path.hasNul then (.ok false, d)
  else
    match result with
    | .ok found => (.ok found, d)
    | .error refusal => (.error (.refused refusal [path]), d)

/-- Begins to write a file, and breaks off. What the tree refuses is not begun. -/
def breakOff (d : Disk) (path : Path) (content : Bytes) (b : BrokenWrite) :
    Except Files.Fault Unit × Disk :=
  match d.change [path] (d.tree.write path.parts (content.take (b.reached.getD 0))) with
  | (.ok (), begun) => (.error (.mishap b.mishap), if b.reached.isSome then begun else d)
  | refused => refused

/-- The answers of a disk. A path with a NUL character leads to nothing, and nothing can be done
with it. -/
def answer : (q : DiskRequest) → Disk → q.Reply × Disk
  | .holds path, d => d.look path (d.tree.holds path.parts)
  | .isFile path, d => d.look path (d.tree.isFile path.parts)
  | .makeDirectories path, d =>
    if path.hasNul then (.error .nulInPath, d)
    else
      match d.tree.makeDirectories path.parts with
      | (.ok (), tree) => (.ok (), { d with tree })
      | (.error (refusal, parts), tree) =>
        (.error (.refused refusal [{ path with parts }]), { d with tree })
  | .freshName, d => (d.names d.named, { d with named := d.named + 1 })
  | .write path content, d =>
    match d.writeBreaks with
    | some b => d.breakOff path content b
    | none => d.change [path] (d.tree.write path.parts content)
  | .link path new, d =>
    match d.linkFails with
    | some m => (.error (.mishap m), d)
    | none => d.change [path, new] (d.tree.link path.parts new.parts)
  | .remove path, d => d.change [path] (d.tree.remove path.parts)
  | .read path, d =>
    if path.hasNul then (.error .nulInPath, d)
    else
      match d.tree.read path.parts with
      | .ok content => (.ok content, d)
      | .error refusal => (.error (.refused refusal [path]), d)

end Disk

end UploadDepot.Store

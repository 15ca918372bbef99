/-
Cleaning the quarantine.

A file that is being written lives in the quarantine directory. Whoever
writes it removes it, but one who dies half-way leaves it behind. The sweep
removes the files of the quarantine that have not been touched for too long.
It may run while others write and remove: an entry that is gone before its
turn is passed over. Any other fault stops the sweep, and what it removed by
then is gone.

The type of instants is left open, as for the limiter.
-/
import UploadDepot.Dialogue
import UploadDepot.Files.Fault
import UploadDepot.Store.FileStore

namespace UploadDepot.Quarantine

open Files (Path)

/-- What a sweep asks of the file system. -/
inductive Request where
  | isDirectory (path : Path)
  /-- The names in a directory. -/
  | names (path : Path)
  | isFile (path : Path)
  /-- The instant of the last change. -/
  | changed (path : Path)
  /-- Removes a file. -/
  | remove (path : Path)
  deriving DecidableEq, Repr

/-- The types of the answers. -/
@[reducible] def Request.Reply (τ : Type) : Request → Type
  | .isDirectory _ => Except Files.Fault Bool
  | .names _ => Except Files.Fault (List String)
  | .isFile _ => Except Files.Fault Bool
  | .changed _ => Except Files.Fault τ
  | .remove _ => Except Files.Fault Unit

/-- A dialogue with a file system. -/
abbrev Talk (τ : Type) := Dialogue Request (Request.Reply τ)

namespace Talk

variable {τ : Type}

/-- Asks whether a path leads to a directory. -/
def isDirectory (path : Path) : Talk τ (Except Files.Fault Bool) := .ask (.isDirectory path) .done

/-- Asks for the names in a directory. -/
def names (path : Path) : Talk τ (Except Files.Fault (List String)) := .ask (.names path) .done

/-- Asks whether a path leads to a file. -/
def isFile (path : Path) : Talk τ (Except Files.Fault Bool) := .ask (.isFile path) .done

/-- Asks when a file was last changed. -/
def changed (path : Path) : Talk τ (Except Files.Fault τ) := .ask (.changed path) .done

/-- Removes a file. -/
def remove (path : Path) : Talk τ (Except Files.Fault Unit) := .ask (.remove path) .done

end Talk

/-- A file removed by a sweep. -/
structure Deletion (τ : Type) where
  path : Path
  age : τ
  deriving Repr

/-- How a sweep went: the files that it removed, in order, and the fault that stopped it. -/
structure Course (τ : Type) where
  deleted : List (Deletion τ) := []
  stopped : Option Files.Fault := none
  deriving Repr

section Sweep

variable {τ : Type} [Sub τ] [LT τ] [DecidableLT τ]

/-- What a fault at an entry comes to: one that is gone is passed over. -/
def missed (fault : Files.Fault) : Except Files.Fault (Option (Deletion τ)) :=
  if fault.isNotFound then .ok none else .error fault

/-- Looks at one entry, and removes it if it is a file that is too old. -/
def visit (maxAge now : τ) (entry : Path) : Talk τ (Except Files.Fault (Option (Deletion τ))) := do
  match ← Talk.isFile entry with
  | .error fault => return .error fault
  | .ok false => return .ok none
  | .ok true =>
    match ← Talk.changed entry with
    | .error fault => return missed fault
    | .ok instant =>
      if maxAge < now - instant then
        match ← Talk.remove entry with
        | .error fault => return missed fault
        | .ok () => return .ok (some { path := entry, age := now - instant })
      else return .ok none

/-- Visits the entries of a directory. `deleted` holds what was removed so far, latest first. -/
def visitAll (maxAge now : τ) (directory : Path) :
    List String → List (Deletion τ) → Talk τ (Course τ)
  | [], deleted => .done { deleted := deleted.reverse }
  | name :: names, deleted => do
    match ← visit maxAge now (directory.join name) with
    | .error fault => return { deleted := deleted.reverse, stopped := some fault }
    | .ok none => visitAll maxAge now directory names deleted
    | .ok (some d) => visitAll maxAge now directory names (d :: deleted)

/-- Sweeps the quarantine under a root. -/
def sweep (root : Path) (maxAge now : τ) : Talk τ (Course τ) := do
  let directory := root.join Store.quarantineName
  match ← Talk.isDirectory directory with
  | .error fault => return { stopped := some fault }
  | .ok false => return {}
  | .ok true =>
    match ← Talk.names directory with
    | .error fault => return { stopped := some fault }
    | .ok names => visitAll maxAge now directory names []

end Sweep

/-! ## The answers of a file tree -/

/-- A file tree with the instants of the last changes, in which some files are removed by others
just before a sweep would. -/
structure Yard (τ : Type) where
  tree : Files.Tree τ
  /-- The files that others remove first. -/
  snatched : List Path := []

/-- The answer of a tree about a path. -/
def told {α : Type} (path : Path) : Except Files.Refusal α → Except Files.Fault α
  | .ok a => .ok a
  | .error refusal => .error (.refused refusal [path])

/-- The same to a question that a path with a NUL character only answers with no. -/
def toldWhether (path : Path) : Except Files.Refusal Bool → Except Files.Fault Bool
  | .ok found => .ok found
  | .error refusal => if path.hasNul then .ok false else .error (.refused refusal [path])

/-- The answers of a file tree. -/
def Yard.answer {τ : Type} : (q : Request) → Yard τ → q.Reply τ × Yard τ
  | .isDirectory path, y => (toldWhether path (y.tree.hasDirectory path.parts), y)
  | .names path, y => (told path (y.tree.names path.parts), y)
  | .isFile path, y => (toldWhether path (y.tree.isFile path.parts), y)
  | .changed path, y => (told path (y.tree.read path.parts), y)
  | .remove path, y =>
    if path ∈ y.snatched then (.error (.refused .notFound [path]), y)
    else
      match y.tree.remove path.parts with
      | .ok tree => (.ok (), { y with tree })
      | .error refusal => (.error (.refused refusal [path]), y)

end UploadDepot.Quarantine

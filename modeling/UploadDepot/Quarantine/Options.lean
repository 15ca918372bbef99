/-
A sweep as it is asked for on a command line.

A switch may be left without a value, which also gives up the default. A
sweep without a root cannot begin, nor can one whose root the file system
will not follow. One without an age goes on as long as it has no age to compare:
up to the first file in the quarantine.
-/
import UploadDepot.Quarantine.Sweep

namespace UploadDepot.Quarantine

open Files (Path)

/-- What a sweep is asked to do; a part without a value is `none`. -/
structure Options where
  root : Option String
  maxAge : Option Float

/-- Why a sweep did not come to its end. -/
inductive SweepFault where
  | noRoot
  | noMaxAge
  /-- The quarantine, or an entry of it, cannot be reached. -/
  | unreachable (fault : Files.Fault)
  deriving DecidableEq, Repr

/-- What the user is told. -/
def SweepFault.message : SweepFault → String
  | .noRoot => "the sweep has no root"
  | .noMaxAge => "the sweep has no maximal age"
  | .unreachable fault => fault.message

/-- Whether one of the entries of a directory is a file. -/
def anyFile {τ : Type} (directory : Path) : List String → Talk τ (Except Files.Fault Bool)
  | [] => .done (.ok false)
  | name :: names => do
    match ← Talk.isFile (directory.join name) with
    | .error fault => return .error fault
    | .ok false => anyFile directory names
    | .ok true =>
      match ← Talk.changed (directory.join name) with
      | .ok _ => return .ok true
      | .error fault => if fault.isNotFound then anyFile directory names else return .error fault

/-- Whether the quarantine under a root has a file. -/
def hasFile {τ : Type} (root : Path) : Talk τ (Except Files.Fault Bool) := do
  let directory := root.join Store.quarantineName
  match ← Talk.isDirectory directory with
  | .error fault => return .error fault
  | .ok false => return .ok false
  | .ok true =>
    match ← Talk.names directory with
    | .error fault => return .error fault
    | .ok names => anyFile directory names

/-- Sweeps as asked. A fault of the file system is part of the course of the sweep. -/
def Options.course (o : Options) (now : Float) : Talk Float (Except SweepFault (Course Float)) :=
  match o.root.map Path.ofText with
  | none => .done (.error .noRoot)
  | some root =>
    match o.maxAge with
    | some maxAge => do return .ok (← Quarantine.sweep root maxAge now)
    | none => do
      match ← hasFile root with
      | .error fault => return .ok { stopped := some fault }
      | .ok true => return .error .noMaxAge
      | .ok false => return .ok {}

/-- What a sweep that came to its end removed, in order. -/
def Course.ended (c : Course Float) : Except SweepFault (List (Deletion Float)) :=
  match c.stopped with
  | none => .ok c.deleted
  | some fault => .error (.unreachable fault)

/-- Sweeps as asked; gives what was removed, in order. -/
def Options.sweep (o : Options) (now : Float) :
    Talk Float (Except SweepFault (List (Deletion Float))) := do
  match ← o.course now with
  | .error fault => return .error fault
  | .ok course => return course.ended

end UploadDepot.Quarantine

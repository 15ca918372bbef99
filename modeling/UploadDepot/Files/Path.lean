/-
Paths, in normal form: no empty parts and no `.`; a `..` stays, since what it
leads to depends on the tree.
-/
import UploadDepot.Text.Split

namespace UploadDepot.Files

/-- A path: what it is anchored at (nothing for a relative path) and its parts. -/
structure Path where
  anchor : String := ""
  parts : List String
  deriving DecidableEq, Repr

namespace Path

/-- The parts of a text between slashes, without the empty ones and those that stay in place. -/
def partsOf (text : List Char) : List String :=
  ((Text.partsAt '/' text).map String.ofList).filter fun part => part ≠ "" ∧ part ≠ "."

/-- What a text is anchored at: exactly two slashes are kept, any other number counts as one. -/
def anchorOf (text : List Char) : String :=
  match (text.takeWhile (· == '/')).length with
  | 0 => ""
  | 2 => "//"
  | _ => "/"

/-- The path of a text. -/
def ofText (text : String) : Path :=
  { anchor := anchorOf text.toList, parts := partsOf text.toList }

/-- A path seen from another one: an anchored path stands for itself. -/
def join (base : Path) (text : String) : Path :=
  let path := ofText text
  if path.anchor = "" then { base with parts := base.parts ++ path.parts } else path

/-- The path without its last part. -/
def parent (p : Path) : Path := { p with parts := p.parts.dropLast }

/-- The text of a path. -/
def text (p : Path) : String :=
  if p.anchor = "" ∧ p.parts = [] then "." else p.anchor ++ "/".intercalate p.parts

/-- Whether a part holds a NUL character, which no file name does. -/
def hasNul (p : Path) : Bool := p.parts.any fun part => part.toList.contains (Char.ofNat 0)

end Path

end UploadDepot.Files

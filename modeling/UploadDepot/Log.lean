/-
Log lines and their levels.
-/
import UploadDepot.Text.Upper

namespace UploadDepot.Log

/-- How serious a line is. -/
inductive Level where
  | trace
  | debug
  | info
  | success
  | warning
  | error
  | critical
  deriving DecidableEq, Repr

/-- All levels. -/
def Level.all : List Level := [.trace, .debug, .info, .success, .warning, .error, .critical]

/-- The rank of a level. -/
def Level.rank : Level → Nat
  | .trace => 5
  | .debug => 10
  | .info => 20
  | .success => 25
  | .warning => 30
  | .error => 40
  | .critical => 50

/-- The name of a level. -/
def Level.label : Level → String
  | .trace => "TRACE"
  | .debug => "DEBUG"
  | .info => "INFO"
  | .success => "SUCCESS"
  | .warning => "WARNING"
  | .error => "ERROR"
  | .critical => "CRITICAL"

/-- The level of a name in capital letters. -/
def Level.ofLabel? (name : String) : Option Level := Level.all.find? fun l => l.label = name

/-- A log line. -/
structure Line where
  level : Level
  text : String
  deriving DecidableEq, Repr

/-- A name that no level has. -/
structure UnknownLevel where
  name : String
  deriving DecidableEq, Repr

/-- What the operator is told. -/
def UnknownLevel.message (u : UnknownLevel) : String := "Level '" ++ u.name ++ "' does not exist"

/-- The level of a name in capital letters, or else that there is none. -/
def Level.named (name : String) : Except UnknownLevel Level :=
  match Level.ofLabel? name with
  | some level => .ok level
  | none => .error { name }

/-- The threshold of a name, in letters of any size. -/
def threshold (name : String) : Except UnknownLevel Level := Level.named (Text.upper name)

/-- The lines that reach the output. -/
def emitted (least : Level) (lines : List Line) : List Line :=
  lines.filter fun line => least.rank ≤ line.level.rank

/-- A value with the log lines written on the way to it. -/
structure Logged (α : Type) where
  lines : List Line
  value : α

namespace Logged

/-- A value without log lines. -/
def silent {α : Type} (value : α) : Logged α := { lines := [], value }

/-- A value with one log line. -/
def note {α : Type} (level : Level) (text : String) (value : α) : Logged α :=
  { lines := [{ level, text }], value }

end Logged

end UploadDepot.Log

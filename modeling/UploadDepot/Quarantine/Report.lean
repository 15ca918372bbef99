/-
What a sweep logs.
-/
import UploadDepot.Log
import UploadDepot.Number.Binary64
import UploadDepot.Quarantine.Sweep

namespace UploadDepot.Quarantine

/-- The log line of a removed file; the age is given in whole seconds. -/
def Deletion.line (d : Deletion Float) : Log.Line where
  level := .info
  text := "Deleted: " ++ d.path.text ++ " (age: " ++ Binary64.wholeText d.age ++ "s)"

/-- The log line at the end of a sweep. -/
def finishedLine (removed : Nat) : Log.Line where
  level := .info
  text := "quarantine sweep finished removed=" ++ toString removed

/-- All log lines of a sweep that came to its end. -/
def report (deletions : List (Deletion Float)) : List Log.Line :=
  deletions.map Deletion.line ++ [finishedLine deletions.length]

/-- All log lines of a sweep; one that was stopped does not say that it is finished. -/
def Course.lines (c : Course Float) : List Log.Line :=
  match c.stopped with
  | none => report c.deleted
  | some _ => c.deleted.map Deletion.line

end UploadDepot.Quarantine

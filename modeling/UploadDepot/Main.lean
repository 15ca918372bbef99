/-
The sweep as a program: cleans the quarantine of the store in the settings,
or of the one named on the command line.
-/
import Std.Time.DateTime.Timestamp
import UploadDepot.Quarantine.CommandLine
import UploadDepot.Quarantine.Report
import UploadDepot.Settings

namespace UploadDepot.Quarantine

/-- The instant of so many nanoseconds, in seconds. -/
def instantOf (nanoseconds : Int) : Float :=
  Binary64.ofRatio (nanoseconds < 0) nanoseconds.natAbs 1000000000

/-- What this machine answers about a path. -/
def attempt {α : Type} (path : Files.Path) (act : IO α) : IO (Except Files.Fault α) := do
  try
    return .ok (← act)
  catch
    | .noFileOrDirectory .. => return .error (.refused .notFound [path])
    | .inappropriateType .. => return .error (.refused .notDirectory [path])
    | e => return .error (.mishap { kind := .system, label := "OSError", text := toString e })

/-- The same to a question that is answered with no if the path leads to nothing. -/
def attemptWhether (path : Files.Path) (act : IO Bool) : IO (Except Files.Fault Bool) := do
  match ← attempt path act with
  | .error (.refused ..) => return .ok false
  | reply => return reply

/-- What this machine notes about a file. -/
def metadataOf (path : Files.Path) : IO IO.FS.Metadata := do
  ((← IO.currentDir) / path.text).metadata

/-- The answers of the file system of this machine. -/
def perform : (q : Request) → IO (q.Reply Float)
  | .isDirectory path => attemptWhether path do
    return (← metadataOf path).type == .dir
  | .names path => attempt path do
    let entries ← ((← IO.currentDir) / path.text).readDir
    return entries.toList.map (·.fileName)
  | .isFile path => attemptWhether path do
    return (← metadataOf path).type == .file
  | .changed path => attempt path do
    let changed := (← metadataOf path).modified
    return instantOf (changed.sec * 1000000000 + changed.nsec.toNat)
  | .remove path => attempt path (IO.FS.removeFile path.text)

/-- Holds a dialogue with the file system of this machine. -/
def converse {α : Type} : Talk Float α → IO α
  | .done a => return a
  | .ask q next => do converse (next (← perform q))

/-- The variables of the settings that are set. -/
def environment : IO Environment :=
  ["RL_ENABLED", "RL_THREAD_LIMIT", "RL_THREAD_WINDOW", "RL_REPLY_LIMIT", "RL_REPLY_WINDOW",
   "RL_IMAGE_LIMIT", "RL_IMAGE_WINDOW", "RL_READ_LIMIT", "SNIFF_BYTES", "CHUNK_SIZE",
   "STORAGE_BACKEND", "S3_BUCKET", "S3_ENDPOINT", "S3_REGION", "S3_ACCESS_KEY", "S3_SECRET_KEY",
   "LOCAL_STORAGE_ROOT", "QUARANTINE_MAX_AGE", "LOG_LEVEL", "CORS_ORIGINS"].filterMapM fun name =>
    return (← IO.getEnv name).map fun value => (name, value)

/-- Cleans the quarantine of a store. -/
def clean (options : Options) : IO UInt32 := do
  let now ← Std.Time.Timestamp.now
  let instant := instantOf now.toNanosecondsSinceUnixEpoch.val
  match ← converse (options.course instant) with
  | .error fault =>
    IO.eprintln fault.message
    return 1
  | .ok course =>
    for line in course.lines do
      IO.eprintln (line.level.label ++ " " ++ line.text)
    match course.stopped with
    | none => return 0
    | some fault =>
      IO.eprintln fault.message
      return 1

end UploadDepot.Quarantine

open UploadDepot Quarantine in
/-- Runs the sweep. -/
def main (words : List String) : IO UInt32 := do
  match Settings.ofEnvironment (← environment) with
  | .error fault =>
    IO.eprintln fault.message
    return 1
  | .ok settings =>
    let program := (← IO.appPath).fileName.getD ""
    let maxAge := Binary64.atMost settings.quarantineMaxAge
    match Command.ofWords { root := some settings.localRoot, maxAge := some maxAge } words with
    | .error complaint =>
      IO.eprintln (usage program)
      IO.eprintln (complaint.report program)
      return UInt32.ofNat complaintExit
    | .ok .help =>
      IO.println (helpText program)
      return 0
    | .ok (.sweep options) => clean options

/-
Objects as files.

The object of a digest is the file `<root>/<first two characters>/<digest>`.
It is written under a fresh name in the quarantine directory and then given
its own name by a link, which is refused where there is something already:
so an object is there with all its bytes or not at all, and is created once.
-/
import UploadDepot.Store.Basic
import UploadDepot.Store.Disk

namespace UploadDepot.Store

open Files (Path)
open Log (Logged)

/-- The name of the directory for files that are being written. -/
def quarantineName : String := ".quarantine"

/-- A store of objects as files. -/
structure FileStore where
  root : Path
  /-- The number of bytes looked at to tell the type of a file. -/
  sniffBytes : Int
  sniff : Bytes → String

namespace FileStore

/-- The quarantine directory. -/
def quarantine (s : FileStore) : Path := s.root.join quarantineName

/-- The path of the object of a digest. -/
def pathOf (s : FileStore) (digest : String) : Path :=
  (s.root.join (String.ofList (digest.toList.take 2))).join digest

/-- Whether there is an object of a digest. -/
def holds (s : FileStore) (digest : String) : DiskTalk (Except Fault Bool) := do
  match ← DiskTalk.isFile (s.pathOf digest) with
  | .ok there => return .ok there
  | .error fault => return .error (.stray fault)

/-- Writes a quarantine file and links it to its final path. A path that is taken says that the
object is there already. -/
def linkThrough (quarantined final : Path) (spool : Spool) : DiskTalk (Except Files.Fault Bool) := do
  match ← DiskTalk.write quarantined spool.rewind.rest with
  | .error fault => return .error fault
  | .ok () =>
    match ← DiskTalk.link quarantined final with
    | .ok () => return .ok true
    | .error fault => return if fault.isAlreadyThere then .ok false else .error fault

/-- Publishes a spool at a path. The quarantine file is removed whatever happened, and may be gone
by then. -/
def publish (s : FileStore) (final : Path) (spool : Spool) : DiskTalk (Except Files.Fault Bool) := do
  match ← DiskTalk.makeDirectories final.parent with
  | .error fault => return .error fault
  | .ok () =>
    match ← DiskTalk.makeDirectories s.quarantine with
    | .error fault => return .error fault
    | .ok () =>
      let quarantined := s.quarantine.join (← DiskTalk.freshName)
      let outcome ← linkThrough quarantined final spool
      match ← DiskTalk.remove quarantined with
      | .ok () => return outcome
      | .error fault => return if fault.isNotFound then outcome else .error fault

/-- Stores a spool under a digest, unless there is something at its path. Failures of the system in
writing are failures of the storage; all others are reported as they are. -/
def commit (s : FileStore) (digest : String) (spool : Spool) :
    DiskTalk (Logged (Except Fault Bool)) := do
  let final := s.pathOf digest
  match ← DiskTalk.holds final with
  | .error fault => return .silent (.error (.stray fault))
  | .ok true => return .silent (.ok false)
  | .ok false =>
    match ← s.publish final spool with
    | .ok created => return .silent (.ok created)
    | .error fault =>
      if fault.isSystem then
        return .note .error
          ("local commit failed hash=" ++ digest ++ " path=" ++ final.text ++ " err="
            ++ fault.logged)
          (.error (.storage (.writing final fault)))
      else return .silent (.error (.stray fault))

/-- The object of a digest, its type told from its first bytes. -/
def load (s : FileStore) (digest : String) : DiskTalk (Except Fault (Option Loaded)) := do
  let path := s.pathOf digest
  match ← DiskTalk.read path with
  | .ok data =>
    let head := data.upTo s.sniffBytes
    return .ok (some { data, mime := s.sniff head, sniffed := [head] })
  | .error fault =>
    if fault.isNotFound then return .ok none
    else if fault.isSystem then return .error (.storage (.reading path fault))
    else return .error (.stray fault)

/-- The store as others see it. -/
def store (s : FileStore) : Store DiskRequest DiskRequest.Reply where
  label := "LocalObjectStore"
  prepare := .done (.silent (.ok ()))
  holds := s.holds
  commit digest _ spool _ := s.commit digest spool
  load := s.load

end FileStore

end UploadDepot.Store

/-
What a content-addressed store is to those who use it.

An object lives under the digest of its bytes. It is created once and never
changed: a commit creates the object, or finds it there.
-/
import UploadDepot.Dialogue
import UploadDepot.Log
import UploadDepot.Store.Fault

namespace UploadDepot.Store

open Log (Logged)

/-- Bytes that wait to be stored, and the position at which they are read on. -/
structure Spool where
  content : Bytes
  position : Nat := 0
  deriving DecidableEq, Repr

/-- Back to the first byte. -/
def Spool.rewind (s : Spool) : Spool := { s with position := 0 }

/-- The bytes from the position on. -/
def Spool.rest (s : Spool) : Bytes := s.content.drop s.position

@[simp] theorem Spool.rest_rewind (s : Spool) : s.rewind.rest = s.content := rfl

/-- An object handed out. -/
structure Loaded where
  data : Bytes
  mime : String
  /-- The heads that were looked at to tell the type. -/
  sniffed : List Bytes := []
  deriving DecidableEq, Repr

end UploadDepot.Store

namespace UploadDepot

/-- A store, spoken to in questions of type `Q`. -/
structure Store (Q : Type) (A : Q → Type) where
  /-- The name of the kind of store. -/
  label : String
  /-- Makes ready what objects are kept in. -/
  prepare : Dialogue Q A (Log.Logged (Except Store.Fault Unit))
  /-- Whether there is an object of a digest. -/
  holds : String → Dialogue Q A (Except Store.Fault Bool)
  /-- Stores an object of a digest, a type and a size; tells whether it was created. -/
  commit : String → String → Store.Spool → Int → Dialogue Q A (Log.Logged (Except Store.Fault Bool))
  /-- The object of a digest, if there is one. -/
  load : String → Dialogue Q A (Except Store.Fault (Option Store.Loaded))

end UploadDepot

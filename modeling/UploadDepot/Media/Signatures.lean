/-
Media types told from the first bytes of a file, and the types that are
admitted.
-/
import UploadDepot.Bytes
import UploadDepot.Table

namespace UploadDepot.Media

/-- Signatures, each with the type of the files that begin with it; an earlier one wins. -/
structure Signatures where
  table : List (Bytes × String)
  /-- The type of a file that begins with none of them. -/
  fallback : String := "application/octet-stream"
  deriving Repr

/-- The type of an empty file. -/
def emptyType : String := "application/x-empty"

/-- The type of a file that begins with `head`. -/
def Signatures.typeOf (s : Signatures) (head : Bytes) : String :=
  match s.table.find? fun entry => entry.1.isPrefixOf head with
  | some (_, mime) => mime
  | none => if head = [] then emptyType else s.fallback

/-- The signatures of common formats. -/
def Signatures.standard : Signatures where
  table :=
    [([0x89, 0x50, 0x4E, 0x47, 0x0D, 0x0A, 0x1A, 0x0A], "image/png"),
     ([0xFF, 0xD8, 0xFF], "image/jpeg"),
     (Bytes.ofText "GIF87a", "image/gif"),
     (Bytes.ofText "GIF89a", "image/gif"),
     (Bytes.ofText "%PDF", "application/pdf"),
     ([0x1A, 0x45, 0xDF, 0xA3], "video/webm"),
     (Bytes.ofText "OggS", "audio/ogg"),
     (Bytes.ofText "fLaC", "audio/flac"),
     (Bytes.ofText "ID3", "audio/mpeg"),
     (Bytes.ofText "BM", "image/x-ms-bmp"),
     (Bytes.ofText "#!", "text/x-shellscript"),
     (Bytes.ofText "<html", "text/html"),
     (Bytes.ofText "<svg", "image/svg+xml"),
     (Bytes.ofText "MZ", "application/x-dosexec")]

/-- Whether a type is in the table of admitted types. -/
def isAllowed (mime : String) (table : Table String String) : Bool := table.has mime

end UploadDepot.Media

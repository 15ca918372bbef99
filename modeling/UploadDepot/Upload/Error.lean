/-
The failures of an upload.

The kinds do not overlap, so that each has one outcome: the file is too
large, its type is not admitted, it could not be read, or it could not be
stored.
-/
import UploadDepot.Log
import UploadDepot.Multipart.FilePart
import UploadDepot.Number.Numeral
import UploadDepot.Store.Fault
import UploadDepot.Upload.Outcome

namespace UploadDepot.Upload

/-- Why the input could not be read. -/
inductive StreamFault where
  | form (fault : Multipart.FormFault)
  | disconnected
  | reading (mishap : Mishap)
  /-- Another failure, in its own words. -/
  | described (text : String)
  deriving DecidableEq, Repr

/-- The words of a stream fault. -/
def StreamFault.message : StreamFault → String
  | .form fault => fault.message
  | .disconnected => "client disconnected during upload"
  | .reading mishap => "failed reading upload stream: " ++ mishap.text
  | .described text => text

/-- A failed upload. -/
inductive UploadError where
  /-- The file, or the whole body, is larger than the limit allows. -/
  | tooLarge (limit : Int)
  | unsupportedType (mime : String)
  | stream (fault : StreamFault)
  | storage (fault : Store.StorageFault)
  /-- A failure of no particular kind. -/
  | general (text : String)
  deriving DecidableEq, Repr

namespace UploadError

/-- The words of a failure. -/
def message : UploadError → String
  | .tooLarge limit => "File size exceeds " ++ toString (limit.fdiv (1024 * 1024)) ++ "MB limit"
  | .unsupportedType mime => "File type '" ++ mime ++ "' is not allowed"
  | .stream fault => fault.message
  | .storage fault => fault.message
  | .general text => text

/-- The name of the kind. -/
def label : UploadError → String
  | .tooLarge _ => "TooLarge"
  | .unsupportedType _ => "UnsupportedType"
  | .stream _ => "StreamError"
  | .storage _ => "StorageError"
  | .general _ => "UploadError"

/-- What the failure is counted as. -/
def outcome : UploadError → Outcome
  | .tooLarge _ => .tooLarge
  | .unsupportedType _ => .unsupportedType
  | .stream _ => .streamError
  | .storage _ => .storageError
  | .general _ => .error

/-- What the client is told. Of a storage that failed it is told nothing. -/
def detail : UploadError → String
  | .storage _ => "internal error"
  | e => e.message

/-- The log line of a failure: ours is an error, the client's a warning. -/
def line (e : UploadError) : Log.Line :=
  match e with
  | .storage fault =>
    { level := .error, text := "upload failed: storage error: " ++ fault.message }
  | e => { level := .warning, text := "upload rejected: " ++ e.label ++ ": " ++ e.message }

end UploadError

/-- What can be asked of a spool. -/
inductive SpoolUse where
  | write
  | flush
  | read
  deriving DecidableEq, Repr

/-- A closed spool was used. -/
structure ClosedSpool where
  use : SpoolUse
  /-- The spool had grown out of memory, into a file. -/
  onDisk : Bool
  deriving DecidableEq, Repr

/-- The words for the use of a closed spool. -/
def ClosedSpool.message (c : ClosedSpool) : String :=
  match c.onDisk, c.use with
  | false, _ => "I/O operation on closed file."
  | true, .write => "write to closed file"
  | true, .flush => "flush of closed file"
  | true, .read => "I/O operation on closed file"

/-- A failure that no kind of upload failure covers: whoever asked for the upload gets it as it is. -/
inductive Stray where
  | closedSpool (fault : ClosedSpool)
  | reading (mishap : Mishap)
  | file (fault : Files.Fault)
  | parameters (fault : Header.ParameterFault)
  | declaredLength (fault : Numeral.IntFault)
  deriving DecidableEq, Repr

/-- The words of a stray failure. -/
def Stray.message : Stray → String
  | .closedSpool fault => fault.message
  | .reading mishap => mishap.text
  | .file fault => fault.message
  | .parameters fault => fault.message
  | .declaredLength _ => "the declared length is no number"

/-- Why an upload came to nothing. -/
inductive Failure where
  | told (error : UploadError)
  | stray (stray : Stray)
  deriving DecidableEq, Repr

/-- A failure of the store, as one of the upload. -/
def Failure.ofStore : Store.Fault → Failure
  | .storage fault => .told (.storage fault)
  | .stray fault => .stray (.file fault)

/-- A failure to read the form, as one of the upload. -/
def Failure.ofForm : Multipart.ReadFault → Failure
  | .form fault => .told (.stream (.form fault))
  | .parameters fault => .stray (.parameters fault)

end UploadDepot.Upload

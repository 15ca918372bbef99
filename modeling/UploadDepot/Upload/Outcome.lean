/-
How an upload can end. The outcome is what it is counted as, and decides the
status of the answer.
-/

namespace UploadDepot.Upload

/-- The end of an upload. -/
inductive Outcome where
  /-- A new object was stored. -/
  | fresh
  /-- The object was there already. -/
  | duplicate
  | tooLarge
  | unsupportedType
  | streamError
  | storageError
  /-- A failure of no particular kind. -/
  | error
  deriving DecidableEq, Repr

/-- The name of an outcome. -/
def Outcome.label : Outcome → String
  | .fresh => "fresh"
  | .duplicate => "duplicate"
  | .tooLarge => "too_large"
  | .unsupportedType => "unsupported_type"
  | .streamError => "stream_error"
  | .storageError => "storage_error"
  | .error => "error"

/-- The status of the answer to the client. -/
def Outcome.status : Outcome → Nat
  | .fresh => 201
  | .duplicate => 200
  | .tooLarge => 413
  | .unsupportedType => 415
  | .streamError => 400
  | .storageError => 500
  | .error => 500

end UploadDepot.Upload

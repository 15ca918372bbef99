/-
What can go wrong with a store, and the words for it.
-/
import UploadDepot.Files.Fault
import UploadDepot.Store.ObjectService

namespace UploadDepot.Store

/-- A failure of the storage itself. -/
inductive StorageFault where
  | writing (path : Files.Path) (fault : Files.Fault)
  | reading (path : Files.Path) (fault : Files.Fault)
  | lookingUp (digest : String) (fault : ServiceFault)
  | fetching (digest : String) (fault : ServiceFault)
  | putting (fault : ServiceFault)
  /-- A rival write to the same key went on, and left no object. -/
  | rivalUnfinished (key : String)
  | bucketUnreachable (bucket : String) (fault : ServiceFault)
  | bucketMissing (bucket : String) (fault : ServiceFault) (region : Option String)
  /-- Another failure, in its own words. -/
  | described (text : String)
  deriving DecidableEq, Repr

/-- Whether a text occurs in another. -/
def occursIn (needle text : String) : Bool :=
  (Bytes.indexOf? (Bytes.ofText needle) (Bytes.ofText text)).isSome

/-- What a failed write is probably due to. -/
def writeHint : ServiceFault → String
  | .refused r =>
    let words := (ServiceFault.refused r).message
    if occursIn "NoSuchBucket" words then " (bucket missing or not yet propagated)"
    else if occursIn "AccessDenied" words then " (check S3_ACCESS_KEY/S3_SECRET_KEY permissions)"
    else ""
  | _ => ""

/-- What a bucket that was not made is probably due to. -/
def regionHint : Option String → String
  | none => ""
  | some region =>
    if region = "us-east-1" then ""
    else " (non us-east-1 regions may need a CreateBucketConfiguration)"

/-- The words of a failure of the storage. -/
def StorageFault.message : StorageFault → String
  | .writing path fault => "cannot write " ++ path.text ++ ": " ++ fault.message
  | .reading path fault => "cannot read " ++ path.text ++ ": " ++ fault.message
  | .lookingUp digest fault => "head_object failed for " ++ digest ++ ": " ++ fault.message
  | .fetching digest fault => "get_object failed for " ++ digest ++ ": " ++ fault.message
  | .putting fault => fault.message ++ writeHint fault
  | .rivalUnfinished key => "concurrent write to " ++ key ++ " did not complete; retry the upload"
  | .bucketUnreachable bucket fault =>
    "cannot reach storage for bucket '" ++ bucket ++ "': " ++ fault.message
  | .bucketMissing bucket fault region =>
    "failed to ensure bucket '" ++ bucket ++ "': " ++ fault.message ++ regionHint region
  | .described text => text

/-- Why a store did not do what it was asked for. -/
inductive Fault where
  | storage (fault : StorageFault)
  /-- A failure that the store does not answer for. -/
  | stray (fault : Files.Fault)
  deriving DecidableEq, Repr

end UploadDepot.Store

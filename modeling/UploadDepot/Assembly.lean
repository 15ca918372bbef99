/-
The parts of the service, put together from the settings. What is not said
otherwise is as in the settings.
-/
import UploadDepot.Settings
import UploadDepot.Store.BucketStore
import UploadDepot.Store.FileStore
import UploadDepot.Upload.Pipeline

namespace UploadDepot.Settings

/-- A name, unless it is empty. -/
def nameOr (name : Option String) (default : String) : String :=
  (name.filter (· ≠ "")).getD default

/-- A store of files under a root. -/
def fileStore (s : Settings) (root : Files.Path) (sniff : Bytes → String) : Store.FileStore :=
  { root, sniffBytes := s.sniffBytes, sniff }

/-- A store in a bucket of an object service in a region. -/
def bucketStore (s : Settings) (bucket folder region : Option String) (sniff : Bytes → String) :
    Store.BucketStore :=
  { bucket := nameOr bucket s.bucket, folder := nameOr folder s.imageFolder, region
    sniffBytes := s.sniffBytes, sniff }

/-- What is asked of a file. -/
def terms (s : Settings) (maxSize sniffBytes : Option Int) (allowed : Option (Table String String))
    (sniff : Bytes → String) : Upload.Terms :=
  { maxSize := maxSize.getD s.maxFileSize, sniffBytes := sniffBytes.getD s.sniffBytes
    allowed := allowed.getD s.allowedTypes, sniff }

/-- A way of uploads into a store. -/
def pipeline {Q : Type} {A : Q → Type} (s : Settings) (store : Store Q A) (terms : Upload.Terms)
    (chunkSize : Option Int) : Upload.Pipeline Q A :=
  { store, terms, chunkSize := chunkSize.getD s.chunkSize }

end UploadDepot.Settings

/-
The settings as they are shown, each under its name.
-/
import UploadDepot.Json
import UploadDepot.Settings

namespace UploadDepot

/-- A time span as it is shown. -/
def Seconds.shown : Seconds → Json
  | .whole n => .whole n
  | .double x => .double x

/-- The settings by name. -/
def Settings.entries (s : Settings) : List (String × Json) :=
  [("RL_ENABLED", .flag s.limiterEnabled),
   ("RL_THREAD_LIMIT", .whole s.threadLimit),
   ("RL_THREAD_WINDOW", s.threadWindow.shown),
   ("RL_REPLY_LIMIT", .whole s.replyLimit),
   ("RL_REPLY_WINDOW", s.replyWindow.shown),
   ("RL_IMAGE_LIMIT", .whole s.uploadLimit),
   ("RL_IMAGE_WINDOW", s.uploadWindow.shown),
   ("RL_READ_LIMIT", .text s.readLimit),
   ("MAX_FILE_SIZE", .whole s.maxFileSize),
   ("SNIFF_BYTES", .whole s.sniffBytes),
   ("CHUNK_SIZE", .whole s.chunkSize),
   ("ALLOWED_MIME_TYPES",
     .object (s.allowedTypes.map fun (mime, extension) => (mime, .text extension))),
   ("STORAGE_BACKEND", .text s.storageBackend),
   ("S3_BUCKET", .text s.bucket),
   ("S3_ENDPOINT", (s.endpoint.map Json.text).getD .null),
   ("S3_REGION", .text s.region),
   ("S3_ACCESS_KEY", .text s.accessKey),
   ("S3_SECRET_KEY", .text s.secretKey),
   ("IMAGE_PREFIX", .text s.imageFolder),
   ("LOCAL_STORAGE_ROOT", .text s.localRoot),
   ("QUARANTINE_MAX_AGE", .whole s.quarantineMaxAge),
   ("LOG_LEVEL", .text s.logLevel),
   ("CORS_ORIGINS", .list (s.corsOrigins.map Json.text))]

end UploadDepot

/-
The settings of the service: what they are by default, how the environment
changes them, and the table of rate limits they give.
-/
import UploadDepot.Files.Path
import UploadDepot.Number.Numeral
import UploadDepot.RateLimit.Rule
import UploadDepot.Table
import UploadDepot.Text.Lower
import UploadDepot.Text.Quoted

namespace UploadDepot

/-- The environment: variables and their values. -/
abbrev Environment := Table String String

/-- A setting that cannot be read. -/
inductive SettingFault where
  | notInteger (name value : String)
  deriving DecidableEq, Repr

/-- What the operator is told. -/
def SettingFault.message : SettingFault → String
  | .notInteger name value => name ++ " must be an integer, got " ++ Text.quote value

namespace Environment

/-- A whole number, or the default where the variable is not set. -/
def int (env : Environment) (name : String) (default : Int) : Except SettingFault Int :=
  match Table.get? env name with
  | none => .ok default
  | some raw =>
    match Numeral.readInt raw with
    | .ok n => .ok n
    | .error _ => .error (.notInteger name raw)

/-- A switch, on for four words in letters of any size, or the default where the variable is not
set. -/
def flag (env : Environment) (name : String) (default : Bool) : Bool :=
  match Table.get? env name with
  | none => default
  | some raw =>
    let word := String.ofList (Text.lower (Text.strip raw.toList))
    ["1", "true", "yes", "on"].contains word

/-- A text, or the default where the variable is not set. -/
def text (env : Environment) (name default : String) : String :=
  (Table.get? env name).getD default

end Environment

/-- A time span: whole seconds, or a double. -/
inductive Seconds where
  | whole (n : Int)
  | double (x : Float)

/-- The media types that are stored, each with the extension of its files. SVG and HTML are not among
them: a browser runs the scripts in them. -/
def defaultTypes : Table String String :=
  [("image/png", ".png"), ("image/jpeg", ".jpg"), ("image/gif", ".gif"), ("image/webp", ".webp"),
   ("image/bmp", ".bmp"), ("image/x-ms-bmp", ".bmp"), ("image/tiff", ".tiff"),
   ("video/mp4", ".mp4"), ("video/webm", ".webm"), ("audio/mpeg", ".mp3"), ("audio/ogg", ".ogg"),
   ("audio/flac", ".flac"), ("audio/x-wav", ".wav"), ("audio/wav", ".wav"),
   ("application/pdf", ".pdf")]

/-- The settings. -/
structure Settings where
  limiterEnabled : Bool := false
  threadLimit : Int := 1
  threadWindow : Seconds := .whole 300
  replyLimit : Int := 10
  replyWindow : Seconds := .whole 60
  uploadLimit : Int := 5
  uploadWindow : Seconds := .whole 3600
  readLimit : String := "120/minute"
  maxFileSize : Int := 25 * 1024 * 1024
  sniffBytes : Int := 8192
  chunkSize : Int := 64 * 1024
  allowedTypes : Table String String := defaultTypes
  storageBackend : String := "s3"
  bucket : String := "rib-images"
  endpoint : Option String := none
  region : String := "us-east-1"
  accessKey : String := ""
  secretKey : String := ""
  imageFolder : String := "images"
  localRoot : String := "./data/images"
  quarantineMaxAge : Int := 3600
  logLevel : String := "INFO"
  corsOrigins : List String := ["http://localhost:5173"]

namespace Settings

/-- Reads the settings; the first variable that cannot be read is reported. -/
def ofEnvironment (env : Environment) : Except SettingFault Settings := do
  let base : Settings := {}
  return { base with
    limiterEnabled := env.flag "RL_ENABLED" false
    threadLimit := ← env.int "RL_THREAD_LIMIT" 1
    threadWindow := .whole (← env.int "RL_THREAD_WINDOW" 300)
    replyLimit := ← env.int "RL_REPLY_LIMIT" 10
    replyWindow := .whole (← env.int "RL_REPLY_WINDOW" 60)
    uploadLimit := ← env.int "RL_IMAGE_LIMIT" 5
    uploadWindow := .whole (← env.int "RL_IMAGE_WINDOW" 3600)
    readLimit := env.text "RL_READ_LIMIT" base.readLimit
    sniffBytes := ← env.int "SNIFF_BYTES" base.sniffBytes
    chunkSize := ← env.int "CHUNK_SIZE" base.chunkSize
    storageBackend := env.text "STORAGE_BACKEND" base.storageBackend
    bucket := env.text "S3_BUCKET" base.bucket
    endpoint := Table.get? env "S3_ENDPOINT"
    region := env.text "S3_REGION" base.region
    accessKey := env.text "S3_ACCESS_KEY" base.accessKey
    secretKey := env.text "S3_SECRET_KEY" base.secretKey
    localRoot := env.text "LOCAL_STORAGE_ROOT" base.localRoot
    quarantineMaxAge := ← env.int "QUARANTINE_MAX_AGE" base.quarantineMaxAge
    logLevel := env.text "LOG_LEVEL" base.logLevel
    corsOrigins := (Text.partsAt ',' (env.text "CORS_ORIGINS" "http://localhost:5173").toList).map
      String.ofList }

end Settings

/-! ## The table of rate limits -/

/-- Why the settings give no table of rate limits. -/
inductive RuleFault where
  /-- A window in whole seconds is beyond the largest double. -/
  | windowTooLarge
  | limitTooSmall (scope : RateLimit.Scope) (limit : Int)
  | windowNotPositive (scope : RateLimit.Scope) (window : Float)

/-- What the operator is told. -/
def RuleFault.message : RuleFault → String
  | .windowTooLarge => "int too large to convert to float"
  | .limitTooSmall scope limit =>
    scope.label ++ ": limit must be >= 1 (got " ++ toString limit ++ ")"
  | .windowNotPositive scope window =>
    scope.label ++ ": window must be > 0 (got " ++ Binary64.text window ++ ")"

/-- A time span as a double. -/
def Seconds.toDouble : Seconds → Except RuleFault Float
  | .double x => .ok x
  | .whole n =>
    match Binary64.ofInt? n with
    | some x => .ok x
    | none => .error .windowTooLarge

/-- A rule is usable if it lets at least one call through and its window is not empty; a window that
is not a number is not found out. -/
def checkRule (scope : RateLimit.Scope) (rule : RateLimit.Rule Float) : Except RuleFault Unit :=
  if rule.limit < 1 then .error (.limitTooSmall scope rule.limit)
  else if rule.window ≤ 0 then .error (.windowNotPositive scope rule.window)
  else .ok ()

/-- The table of rate limits, every rule checked. -/
def Settings.rules (s : Settings) : Except RuleFault (Table RateLimit.Scope (RateLimit.Rule Float)) := do
  let table : Table RateLimit.Scope (RateLimit.Rule Float) :=
    [(.createThread, { limit := s.threadLimit, window := ← s.threadWindow.toDouble }),
     (.createReply, { limit := s.replyLimit, window := ← s.replyWindow.toDouble }),
     (.uploadFile, { limit := s.uploadLimit, window := ← s.uploadWindow.toDouble })]
  table.forM fun (scope, rule) => checkRule scope rule
  return table

/-! ## The store that the settings ask for -/

/-- How an object service is reached. -/
structure ServiceAccess where
  region : String
  endpoint : Option String
  /-- The key and its secret; without both, the surroundings are asked for them. -/
  credentials : Option (String × String)
  deriving DecidableEq, Repr

/-- The store that is asked for. -/
inductive StoreChoice where
  | objectService (access : ServiceAccess) (bucket folder : String)
  | files (root : Files.Path)
  deriving DecidableEq, Repr

/-- The name of a store that does not exist. -/
structure UnknownBackend where
  name : String
  deriving DecidableEq, Repr

/-- What the operator is told. -/
def UnknownBackend.message (u : UnknownBackend) : String :=
  "unknown STORAGE_BACKEND '" ++ u.name ++ "' (expected 's3' or 'local')"

/-- The store that the settings ask for; an empty endpoint is none. -/
def Settings.store (s : Settings) : Except UnknownBackend StoreChoice :=
  let name := Text.lowerString s.storageBackend
  if name = "s3" then
    let access : ServiceAccess :=
      { region := s.region
        endpoint := s.endpoint.filter (· ≠ "")
        credentials :=
          if s.accessKey ≠ "" ∧ s.secretKey ≠ "" then some (s.accessKey, s.secretKey) else none }
    .ok (.objectService access s.bucket s.imageFolder)
  else if name = "local" then .ok (.files (Files.Path.ofText s.localRoot))
  else .error { name := s.storageBackend }

end UploadDepot

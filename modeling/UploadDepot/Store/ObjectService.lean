/-
An object service: buckets of objects under keys, reached by requests that
may fail. A write may ask to be refused where there is an object already, so
that of two writes under one key only one creates the object.
-/
import UploadDepot.Bytes
import UploadDepot.Dialogue
import UploadDepot.Table
import UploadDepot.Text.Quoted

namespace UploadDepot.Store

/-- An object to be written. -/
structure Put where
  bucket : String
  key : String
  body : Bytes
  /-- The length that is announced for the body. -/
  length : Int
  mime : String
  /-- The write is refused where there is an object already. -/
  onlyIfAbsent : Bool
  deriving DecidableEq, Repr

/-- A request to the service. -/
inductive Request where
  | headBucket (bucket : String)
  | createBucket (bucket : String)
  | headObject (bucket key : String)
  | putObject (put : Put)
  | getObject (bucket key : String)
  deriving DecidableEq, Repr

/-- The service's name for a request. -/
def Request.operation : Request → String
  | .headBucket _ => "HeadBucket"
  | .createBucket _ => "CreateBucket"
  | .headObject _ _ => "HeadObject"
  | .putObject _ => "PutObject"
  | .getObject _ _ => "GetObject"

/-- The answer of a service that refuses. -/
structure ServiceRefusal where
  operation : String
  code : Option String := none
  message : Option String := none
  /-- The number of retries, as written, if they were used up. -/
  retries : Option String := none
  deriving DecidableEq, Repr

/-- The code of a refusal; an answer without one has the empty code. -/
def ServiceRefusal.codeText (r : ServiceRefusal) : String := r.code.getD ""

/-- Why a request failed. -/
inductive ServiceFault where
  | refused (refusal : ServiceRefusal)
  /-- The service cannot be reached, under this address. -/
  | unreachable (address : String)
  /-- Anything else between here and the service. -/
  | unspecified
  deriving DecidableEq, Repr

namespace ServiceFault

/-- The words of a fault. -/
def message : ServiceFault → String
  | .refused r =>
    "An error occurred (" ++ r.code.getD "Unknown" ++ ") when calling the " ++ r.operation
      ++ " operation" ++ (r.retries.map fun n => " (reached max retries: " ++ n ++ ")").getD ""
      ++ ": " ++ r.message.getD "Unknown"
  | .unreachable address => "Could not connect to the endpoint URL: \"" ++ address ++ "\""
  | .unspecified => "An unspecified error occurred"

/-- A fault as it is logged. -/
def logged (fault : ServiceFault) : String :=
  let label :=
    match fault with
    | .refused _ => "ClientError"
    | .unreachable _ => "EndpointConnectionError"
    | .unspecified => "BotoCoreError"
  label ++ "(" ++ Text.quote fault.message ++ ")"

end ServiceFault

/-- An object handed out by the service. -/
structure ServedObject where
  body : Bytes := []
  /-- What the writer noted about the object. -/
  notes : Table String String := []
  contentType : Option String := none
  deriving DecidableEq, Repr

/-- The type of the answer to a request that does not fail. -/
@[reducible] def Request.Gain : Request → Type
  | .getObject _ _ => ServedObject
  | _ => Unit

/-- The type of the answer to a request. -/
@[reducible] def Request.Reply (r : Request) : Type := Except ServiceFault r.Gain

/-- A dialogue with an object service. -/
abbrev ServiceTalk := Dialogue Request Request.Reply

namespace ServiceTalk

/-- Asks whether a bucket is there. -/
def headBucket (bucket : String) : ServiceTalk (Except ServiceFault Unit) :=
  .ask (.headBucket bucket) .done

/-- Makes a bucket. -/
def createBucket (bucket : String) : ServiceTalk (Except ServiceFault Unit) :=
  .ask (.createBucket bucket) .done

/-- Asks whether an object is there. -/
def headObject (bucket key : String) : ServiceTalk (Except ServiceFault Unit) :=
  .ask (.headObject bucket key) .done

/-- Writes an object. -/
def putObject (put : Put) : ServiceTalk (Except ServiceFault Unit) := .ask (.putObject put) .done

/-- Asks for an object. -/
def getObject (bucket key : String) : ServiceTalk (Except ServiceFault ServedObject) :=
  .ask (.getObject bucket key) .done

end ServiceTalk

end UploadDepot.Store

/-
What a multipart body consists of, as a sequence of events, and the ways in
which a body can fail to be one.

The events of one part come in the order begin, headers, end of headers,
data, end. A header name, a header value and the data of a part may each
come in any number of fragments.
-/
import UploadDepot.Bytes

namespace UploadDepot.Multipart

/-- One step in the reading of a body. -/
inductive Event where
  | partBegin
  | headerName (fragment : Bytes)
  | headerValue (fragment : Bytes)
  | headerEnd
  | headersFinished
  | data (slice : Bytes)
  | partEnd
  deriving DecidableEq, Repr

/-- A byte that no multipart body has at its place. Positions count from the start of the chunk
that is being read. -/
inductive Fault where
  | boundaryByte (expected got : UInt8) (index : Nat)
  | boundaryWithoutReturn (position : Nat)
  | boundaryWithoutFeed (position : Nat)
  | boundaryWithoutDash (position : Nat)
  | emptyHeaderName (position : Nat)
  | headerNameByte (got : UInt8) (position : Nat)
  | headerWithoutFeed (got : UInt8)
  | headersWithoutFeed (got : UInt8)
  deriving DecidableEq, Repr

/-- What the client is told about a fault. -/
def Fault.message : Fault → String
  | .boundaryByte expected got index =>
    "Expected boundary character " ++ toString expected.toNat ++ ", got " ++ toString got.toNat
      ++ " at index " ++ toString index
  | .boundaryWithoutReturn position =>
    "Did not find CR at end of boundary (" ++ toString position ++ ")"
  | .boundaryWithoutFeed position =>
    "Did not find LF at end of boundary (" ++ toString position ++ ")"
  | .boundaryWithoutDash position =>
    "Did not find - at end of boundary (" ++ toString position ++ ")"
  | .emptyHeaderName position => "Found 0-length header at " ++ toString position
  | .headerNameByte got position =>
    "Found invalid character " ++ toString got.toNat ++ " in header at " ++ toString position
  | .headerWithoutFeed got =>
    "Did not find LF character at end of header (found " ++ toString got.toNat ++ ")"
  | .headersWithoutFeed got =>
    "Did not find LF at end of headers (found " ++ toString got.toNat ++ ")"

end UploadDepot.Multipart

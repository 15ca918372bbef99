/-
The coarse limit on reading: so many requests of one client for one path in
a minute. A minute begins with all counts at zero.
-/
import UploadDepot.Table

namespace UploadDepot.Http

/-- The requests of the current minute. -/
structure ReadLimit where
  perMinute : Nat := 120
  /-- The number of requests by client and path. -/
  counts : Table (String × String) Nat := []
  deriving DecidableEq, Repr

namespace ReadLimit

/-- Counts a request, and tells whether it is within the limit. -/
def count (l : ReadLimit) (client path : String) : Bool × ReadLimit :=
  let counts := l.counts.add (client, path) 1
  (decide (((counts.get? (client, path)).getD 0) ≤ l.perMinute), { l with counts })

/-- A new minute. -/
def nextMinute (l : ReadLimit) : ReadLimit := { l with counts := [] }

/-- What a client beyond the limit is told. -/
def message (l : ReadLimit) : String :=
  "Rate limit exceeded: " ++ toString l.perMinute ++ " per 1 minute"

end ReadLimit

end UploadDepot.Http

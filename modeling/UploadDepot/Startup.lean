/-
The start of the service: what objects are kept in is made ready first, and
if that fails the service does not start.
-/
import UploadDepot.RateLimit.Limiter
import UploadDepot.Store.Basic

namespace UploadDepot

/-- The log line of a service that has started. -/
def startedLine (store : String) (limiterEnabled : Bool) : Log.Line where
  level := .info
  text := "rib started storage=" ++ store ++ " rate_limit_enabled="
    ++ (if limiterEnabled then "True" else "False")

/-- Starts the service. -/
def start {Q : Type} {A : Q → Type} {τ : Type} (store : Store Q A)
    (limiter : RateLimit.Limiter τ) : Dialogue Q A (Log.Logged (Except Store.Fault Unit)) := do
  let prepared ← store.prepare
  match prepared.value with
  | .error fault => return { lines := prepared.lines, value := .error fault }
  | .ok () =>
    return { lines := prepared.lines ++ [startedLine store.label limiter.enabled], value := .ok () }

end UploadDepot

/-
Admission of a client to an action: the limiter decides, the decision is
counted, and a client that is turned away is told after how many seconds to
try again.
-/
import UploadDepot.Log
import UploadDepot.Metrics
import UploadDepot.Number.Binary64
import UploadDepot.RateLimit.Limiter

namespace UploadDepot.RateLimit

/-- Time spans that may have a whole number of seconds. -/
class WholeSeconds (τ : Type) where
  /-- The whole seconds of a time span. -/
  wholeSeconds : τ → Except Binary64.NotWhole Int

instance : WholeSeconds Float where
  wholeSeconds := Binary64.truncate

/-- A client turned away. -/
structure Denial where
  scope : Scope
  /-- The seconds after which to try again. -/
  retryAfter : Int
  deriving DecidableEq, Repr

/-- The words of a denial. -/
def Denial.message (d : Denial) : String := "rate limited: " ++ d.scope.label

/-- Why a client is not admitted. -/
inductive AdmissionFault where
  | limited (denial : Denial)
  | call (fault : CallFault)
  /-- The window of the rule is no number of seconds. -/
  | window (fault : Binary64.NotWhole)
  deriving DecidableEq, Repr

/-- The limiter, and what it has decided. -/
structure Gate (τ : Type) where
  limiter : Limiter τ
  metrics : Metrics := {}

/-- The log line of a denial. -/
def denialLine (scope : Scope) (client : String) : Log.Line where
  level := .warning
  text := "rate limit denied scope=" ++ scope.label ++ " client=" ++ client

/-- Asks for admission at `now`. -/
def Gate.enter {τ : Type} [Sub τ] [LE τ] [DecidableLE τ] [WholeSeconds τ] (g : Gate τ)
    (scope : Scope) (client : String) (now : τ) :
    Log.Logged (Except AdmissionFault Unit) × Gate τ :=
  match g.limiter.call scope client now with
  | (.error fault, limiter) => (.silent (.error (.call fault)), { g with limiter })
  | (.ok .allowed, limiter) =>
    (.silent (.ok ()), { limiter, metrics := g.metrics.countDecision scope .allowed })
  | (.ok .denied, limiter) =>
    let fault : AdmissionFault :=
      match WholeSeconds.wholeSeconds (limiter.rules scope).window with
      | .ok retryAfter => .limited { scope, retryAfter }
      | .error notWhole => .window notWhole
    ({ lines := [denialLine scope client], value := .error fault },
      { limiter, metrics := g.metrics.countDecision scope .denied })

end UploadDepot.RateLimit

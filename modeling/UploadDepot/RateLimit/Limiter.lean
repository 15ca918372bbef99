/-
The sliding-window limiter.

For each scope and client the limiter keeps the instants of the calls it
allowed, oldest first. A call first drops the instants that have left the
window, from the front only, and is allowed if fewer than the limit are
left. The keys are spread over shards; every so many calls to a shard its
windows are swept, so that clients that have gone away take no memory.

The type of instants is left open: doubles when the program runs, exact
numbers where something is proved. Nothing depends on it but the comparison
of a difference with the window.
-/
import UploadDepot.RateLimit.Rule
import UploadDepot.Table

namespace UploadDepot.RateLimit

/-- A client in a scope. -/
abbrev Key := Scope × String

section Window

variable {τ : Type} [Sub τ] [LE τ] [DecidableLE τ]

/-- An instant has left the window at `now`. -/
def expired (window now instant : τ) : Bool := window ≤ now - instant

/-- Drops the instants that have left the window, up to the first that has not. -/
def prune (window now : τ) (instants : List τ) : List τ := instants.dropWhile (expired window now)

end Window

/-- One shard: the windows of its keys and the number of calls it has had. -/
structure Shard (τ : Type) where
  windows : Table Key (List τ) := []
  calls : Nat := 0

/-- The limiter. -/
structure Limiter (τ : Type) where
  rules : Scope → Rule τ
  enabled : Bool
  /-- Every so many calls to a shard it is swept; the sign does not matter. -/
  sweepEvery : Int
  /-- Spreads the keys: a key lives in the shard of this number, counted around. -/
  spread : Key → Nat
  shards : List (Shard τ)

namespace Shard

variable {τ : Type} [Sub τ] [LE τ] [DecidableLE τ]

/-- The instants kept for a key. -/
def window (s : Shard τ) (key : Key) : List τ := (s.windows.get? key).getD []

/-- A call: the decision, and the shard with the instant if it was allowed. -/
def call (s : Shard τ) (rule : Rule τ) (key : Key) (now : τ) : Decision × Shard τ :=
  let live := prune rule.window now (s.window key)
  if (live.length : Int) < rule.limit then
    (.allowed, { windows := s.windows.set key (live ++ [now]), calls := s.calls + 1 })
  else (.denied, { windows := s.windows.set key live, calls := s.calls + 1 })

/-- The windows without what has left them. -/
def pruned (rules : Scope → Rule τ) (now : τ) (windows : Table Key (List τ)) : Table Key (List τ) :=
  windows.map fun (key, w) => (key, prune (rules key.1).window now w)

/-- The keys whose windows are empty. -/
def stale (windows : Table Key (List τ)) : List Key :=
  (windows.filter fun (_, w) => w.isEmpty).map (·.1)

/-- The windows without what has left them, the empty ones taken out. -/
def swept (rules : Scope → Rule τ) (now : τ) (windows : Table Key (List τ)) :
    Table Key (List τ) :=
  (pruned rules now windows).filter fun (_, w) => !w.isEmpty

/-- Sweeps the shard, and counts the keys taken out. -/
def sweep (s : Shard τ) (rules : Scope → Rule τ) (now : τ) : Nat × Shard τ :=
  ((stale (pruned rules now s.windows)).length, { s with windows := swept rules now s.windows })

end Shard

/-- The one fault of a call: with a sweep every zero calls, the number of calls cannot be divided. -/
inductive CallFault where
  | sweepEveryZero
  deriving DecidableEq, Repr

/-- What the caller is told. -/
def CallFault.message : CallFault → String
  | .sweepEveryZero => "integer modulo by zero"

namespace Limiter

variable {τ : Type} [Sub τ] [LE τ] [DecidableLE τ]

/-- A limiter without any calls yet. -/
def create (rules : Table Scope (Rule τ)) (enabled : Bool) (shards sweepEvery : Int)
    (spread : Key → Nat) : Except ConfigFault (Limiter τ) :=
  match rules.get? .createThread, rules.get? .createReply, rules.get? .uploadFile with
  | some thread, some reply, some upload =>
    if shards < 1 then .error .noShards
    else
      let rule : Scope → Rule τ
        | .createThread => thread
        | .createReply => reply
        | .uploadFile => upload
      .ok { rules := rule, enabled, sweepEvery, spread,
            shards := List.replicate shards.toNat {} }
  | _, _, _ => .error (.missingRules (Scope.all.filter fun s => !rules.has s))

/-- The number of the shard of a key. -/
def shardOf (l : Limiter τ) (key : Key) : Nat := l.spread key % l.shards.length

/-- The shard of a key. -/
def shard (l : Limiter τ) (key : Key) : Shard τ := l.shards.getD (l.shardOf key) {}

/-- A call at `now`. A limiter that is switched off allows everything and keeps nothing. The sweep
that a call may set off comes after its decision. -/
def call (l : Limiter τ) (scope : Scope) (client : String) (now : τ) :
    Except CallFault Decision × Limiter τ :=
  if l.enabled = false then (.ok .allowed, l)
  else
    let key : Key := (scope, client)
    let (decision, shard) := (l.shard key).call (l.rules scope) key now
    let put (s : Shard τ) : Limiter τ := { l with shards := l.shards.set (l.shardOf key) s }
    if l.sweepEvery = 0 then (.error .sweepEveryZero, put shard)
    else if (shard.calls : Int) % l.sweepEvery = 0 then
      (.ok decision, put (shard.sweep l.rules now).2)
    else (.ok decision, put shard)

/-- A call for a scope given by name. A limiter that is switched off does not look at the name. -/
def callNamed (l : Limiter τ) (name client : String) (now : τ) :
    Except UnknownScope (Except CallFault Decision) × Limiter τ :=
  if l.enabled = false then (.ok (.ok .allowed), l)
  else
    match Scope.named name with
    | .error unknown => (.error unknown, l)
    | .ok scope =>
      let (decision, l) := l.call scope client now
      (.ok decision, l)

/-- Sweeps all shards, and counts the keys taken out. -/
def sweep (l : Limiter τ) (now : τ) : Nat × Limiter τ :=
  let swept := l.shards.map fun s => s.sweep l.rules now
  (swept.foldl (fun n r => n + r.1) 0, { l with shards := swept.map (·.2) })

/-- The instants kept for a key, if the key is tracked. -/
def window? (l : Limiter τ) (key : Key) : Option (List τ) := (l.shard key).windows.get? key

/-- All tracked keys with their instants. -/
def tracked (l : Limiter τ) : Table Key (List τ) := l.shards.flatMap (·.windows)

/-- The number of tracked keys. -/
def trackedCount (l : Limiter τ) : Nat := l.tracked.length

end Limiter

/-- Spreads keys by the sum of the code points of the client. -/
def spreadByText (key : Key) : Nat := key.2.foldl (fun n c => n + c.toNat) 0

end UploadDepot.RateLimit

/-
What is limited, and how: the actions of clients that have a limit of their
own, and the rule of each.
-/
import UploadDepot.Text.Quoted

namespace UploadDepot.RateLimit

/-- An action with a limit of its own. -/
inductive Scope where
  | createThread
  | createReply
  | uploadFile
  deriving DecidableEq, Repr

/-- All scopes. -/
def Scope.all : List Scope := [.createThread, .createReply, .uploadFile]

theorem Scope.mem_all (s : Scope) : s ∈ Scope.all := by cases s <;> decide

/-- The name of a scope. -/
def Scope.label : Scope → String
  | .createThread => "create-thread"
  | .createReply => "create-reply"
  | .uploadFile => "upload-file"

/-- The scope of a name. -/
def Scope.ofLabel? (name : String) : Option Scope := Scope.all.find? fun s => s.label = name

theorem Scope.ofLabel?_label (s : Scope) : Scope.ofLabel? s.label = some s := by
  cases s <;> decide

/-- A name that no scope has. -/
structure UnknownScope where
  name : String
  deriving DecidableEq, Repr

/-- What the caller is told. -/
def UnknownScope.message (u : UnknownScope) : String :=
  Text.quote u.name ++ " is not a valid Scope"

/-- The scope of a name, or else that there is none. -/
def Scope.named (name : String) : Except UnknownScope Scope :=
  match Scope.ofLabel? name with
  | some scope => .ok scope
  | none => .error { name }

/-- At most `limit` admissions in any `window`. -/
structure Rule (τ : Type) where
  limit : Int
  window : τ
  deriving Repr

/-- Whether a call may go on. -/
inductive Decision where
  | allowed
  | denied
  deriving DecidableEq, Repr

/-- Why there is no limiter. -/
inductive ConfigFault where
  /-- Some scopes have no rule. -/
  | missingRules (scopes : List Scope)
  /-- There is no shard to keep the windows in. -/
  | noShards
  deriving DecidableEq, Repr

/-- What the operator is told. -/
def ConfigFault.message : ConfigFault → String
  | .missingRules scopes =>
    "missing rate limit rules for: " ++ ", ".intercalate (scopes.map Scope.label)
  | .noShards => "shards must be >= 1"

end UploadDepot.RateLimit

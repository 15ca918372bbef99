/-
What is counted, and how the counters are shown.
-/
import UploadDepot.RateLimit.Rule
import UploadDepot.Table
import UploadDepot.Upload.Outcome

namespace UploadDepot

open RateLimit (Scope Decision)
open Upload (Outcome)

/-- The counters; one that was never counted is not there. -/
structure Metrics where
  decisions : Table (Scope × Decision) Nat := []
  uploads : Table Outcome Nat := []
  deriving DecidableEq, Repr

/-- The name of a decision. -/
def RateLimit.Decision.label : Decision → String
  | .allowed => "allowed"
  | .denied => "denied"

namespace Metrics

/-- Counts a decision. -/
def countDecision (m : Metrics) (scope : Scope) (decision : Decision) : Metrics :=
  { m with decisions := m.decisions.add (scope, decision) 1 }

/-- Counts an upload. -/
def countUpload (m : Metrics) (outcome : Outcome) : Metrics :=
  { m with uploads := m.uploads.add outcome 1 }

/-- The number of decisions of a kind. -/
def decided (m : Metrics) (scope : Scope) (decision : Decision) : Nat :=
  (m.decisions.get? (scope, decision)).getD 0

/-- The number of uploads of an outcome. -/
def ended (m : Metrics) (outcome : Outcome) : Nat := (m.uploads.get? outcome).getD 0

theorem decided_countDecision (m : Metrics) (scope scope' : Scope) (decision decision' : Decision) :
    (m.countDecision scope decision).decided scope' decision' =
      m.decided scope' decision' + if scope' = scope ∧ decision' = decision then 1 else 0 := by
  rw [decided, countDecision, Table.getD_add, decided]
  simp only [Prod.mk.injEq]

theorem ended_countUpload (m : Metrics) (outcome outcome' : Outcome) :
    (m.countUpload outcome).ended outcome' =
      m.ended outcome' + if outcome' = outcome then 1 else 0 := by
  rw [ended, countUpload, Table.getD_add, ended]

@[simp] theorem decided_countUpload (m : Metrics) (outcome : Outcome) (scope : Scope)
    (decision : Decision) : (m.countUpload outcome).decided scope decision = m.decided scope decision :=
  rfl

@[simp] theorem ended_countDecision (m : Metrics) (scope : Scope) (decision : Decision)
    (outcome : Outcome) : (m.countDecision scope decision).ended outcome = m.ended outcome :=
  rfl

/-- A count, as it is shown: with one decimal, or from seven digits on in scientific notation. -/
def countText (n : Nat) : String :=
  match (toString n).toList with
  | d :: ds =>
    if ds.length < 6 then String.ofList (d :: ds) ++ ".0"
    else
      let mantissa := (d :: '.' :: ds).reverse.dropWhile fun c => c = '0' ∨ c = '.'
      String.ofList mantissa.reverse ++ "e+0" ++ toString ds.length
  | [] => ""

/-- The lines that show one counter: what it is, and its count under each label. -/
def family (name description : String) (samples : List (String × Nat)) : List String :=
  ("# HELP " ++ name ++ " " ++ description) :: ("# TYPE " ++ name ++ " counter")
    :: samples.map fun (labels, n) => name ++ "\x7b" ++ labels ++ "\x7d " ++ countText n

/-- The counters as text. -/
def exposition (m : Metrics) : String :=
  let decisions := m.decisions.map fun ((scope, decision), n) =>
    ("decision=\"" ++ decision.label ++ "\",scope=\"" ++ scope.label ++ "\"", n)
  let uploads := m.uploads.map fun (outcome, n) => ("outcome=\"" ++ outcome.label ++ "\"", n)
  let lines :=
    family "rate_limit_decisions_total" "Rate limiter decisions per action" decisions
      ++ family "uploads_total" "Upload outcomes" uploads
  String.join (lines.map fun line => line ++ "\n")

end Metrics

end UploadDepot

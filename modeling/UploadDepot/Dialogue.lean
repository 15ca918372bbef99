/-
Computations that talk to something outside: a file system, an object
service. Such a computation is a question and what to do with each possible
answer, or a result. What is outside is put in when it is run, so the same
computation can be run against one state, against a list of answers, or step
by step among others.
-/

namespace UploadDepot

/-- A computation that asks questions of type `Q`, a question `q` being answered in `A q`. -/
inductive Dialogue (Q : Type) (A : Q → Type) (α : Type) where
  | done (a : α)
  | ask (q : Q) (next : A q → Dialogue Q A α)

namespace Dialogue

variable {Q : Type} {A : Q → Type} {σ α β : Type}

/-- One question, answered. -/
def put (q : Q) : Dialogue Q A (A q) := .ask q .done

/-- Goes on with the result. -/
def andThen : Dialogue Q A α → (α → Dialogue Q A β) → Dialogue Q A β
  | .done a, f => f a
  | .ask q next, f => .ask q fun answer => (next answer).andThen f

instance : Monad (Dialogue Q A) where
  pure := .done
  bind := andThen

/-- One step: a dialogue that still asks gets its answer. -/
def step (answer : (q : Q) → σ → A q × σ) (s : σ) : Dialogue Q A α → Dialogue Q A α × σ
  | .done a => (.done a, s)
  | .ask q next =>
    let (reply, s) := answer q s
    (next reply, s)

/-- The result of a dialogue with a state that answers. -/
def run (answer : (q : Q) → σ → A q × σ) : Dialogue Q A α → σ → α × σ
  | .done a, s => (a, s)
  | .ask q next, s =>
    let (reply, s) := answer q s
    (next reply).run answer s

/-- Answers as a state does, and keeps the questions, latest first. -/
def recording (answer : (q : Q) → σ → A q × σ) (q : Q) (s : σ × List Q) : A q × (σ × List Q) :=
  let (reply, state) := answer q s.1
  (reply, (state, q :: s.2))

/-- The questions of a run, in order. -/
def questions (answer : (q : Q) → σ → A q × σ) : Dialogue Q A α → σ → List Q
  | .done _, _ => []
  | .ask q next, s =>
    let (reply, s) := answer q s
    q :: (next reply).questions answer s

theorem run_andThen (answer : (q : Q) → σ → A q × σ) (d : Dialogue Q A α)
    (f : α → Dialogue Q A β) (s : σ) :
    (d.andThen f).run answer s = (f (d.run answer s).1).run answer (d.run answer s).2 := by
  induction d generalizing s with
  | done a => rfl
  | ask q next ih => exact ih _ _

end Dialogue

end UploadDepot

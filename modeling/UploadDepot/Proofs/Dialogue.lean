/-
Dialogues with a world that has several answers to a question.

A `World` says which answers to a question are possible in a state, and what
state each of them leaves. `Always` is the rule by which something is proved
of every way a dialogue can go: what each step keeps to, and what holds at
the end. `Reaches` are the states in between.
-/
import Mathlib.Logic.Relation
import UploadDepot.Dialogue

namespace UploadDepot

/-- What is outside: the possible answers to a question in a state, each with the state it leaves. -/
abbrev World (Q : Type) (A : Q → Type) (σ : Type) := (q : Q) → σ → A q → σ → Prop

namespace Dialogue

variable {Q : Type} {A : Q → Type} {σ α β : Type} {W : World Q A σ} {G : σ → σ → Prop}

/-- The one answer of a state that answers. -/
def exactly (answer : (q : Q) → σ → A q × σ) : World Q A σ :=
  fun q s reply s' => answer q s = (reply, s')

/-- One question answered. -/
inductive Moves (W : World Q A σ) : Dialogue Q A α × σ → Dialogue Q A α × σ → Prop
  | answered {q : Q} {next : A q → Dialogue Q A α} {s : σ} {reply : A q} {s' : σ} :
      W q s reply s' → Moves W (.ask q next, s) (next reply, s')

/-- Any number of questions answered. -/
def Reaches (W : World Q A σ) : Dialogue Q A α × σ → Dialogue Q A α × σ → Prop :=
  Relation.ReflTransGen (Moves W)

/-- Whatever the answers are, every step keeps to `G`, and `post` holds of the result and the state at
the end. -/
def Always (W : World Q A σ) (G : σ → σ → Prop) (post : α → σ → Prop) : Dialogue Q A α → σ → Prop
  | .done a, s => post a s
  | .ask q next, s => ∀ reply s', W q s reply s' → G s s' ∧ (next reply).Always W G post s'

namespace Always

variable {post post' : α → σ → Prop} {d : Dialogue Q A α} {s : σ}

theorem imp (h : d.Always W G post s) (himp : ∀ a s, post a s → post' a s) :
    d.Always W G post' s := by
  induction d generalizing s with
  | done a => exact himp a s h
  | ask q next ih =>
    intro reply s' hw
    obtain ⟨hg, hn⟩ := h reply s' hw
    exact ⟨hg, ih reply hn⟩

/-- What every step keeps to may be weakened. -/
theorem weaken {G' : σ → σ → Prop} (h : d.Always W G post s) (hg : ∀ s s', G s s' → G' s s') :
    d.Always W G' post s := by
  induction d generalizing s with
  | done a => exact h
  | ask q next ih =>
    intro reply s' hw
    obtain ⟨hstep, hn⟩ := h reply s' hw
    exact ⟨hg s s' hstep, ih reply hn⟩

/-- What holds at the end of the first dialogue is what the second may begin with. -/
theorem andThen {post : β → σ → Prop} {f : α → Dialogue Q A β}
    (h : d.Always W G (fun a s => (f a).Always W G post s) s) :
    (d.andThen f).Always W G post s := by
  induction d generalizing s with
  | done a => exact h
  | ask q next ih =>
    intro reply s' hw
    obtain ⟨hg, hn⟩ := h reply s' hw
    exact ⟨hg, ih reply hn⟩

theorem bind {post : β → σ → Prop} {f : α → Dialogue Q A β}
    (h : d.Always W G (fun a s => (f a).Always W G post s) s) :
    (d >>= f).Always W G post s := andThen h

/-- A world with fewer answers. -/
theorem narrow {W' : World Q A σ} (h : d.Always W G post s)
    (hw : ∀ q s reply s', W' q s reply s' → W q s reply s') : d.Always W' G post s := by
  induction d generalizing s with
  | done a => exact h
  | ask q next ih =>
    intro reply s' hw'
    obtain ⟨hg, hn⟩ := h reply s' (hw q s reply s' hw')
    exact ⟨hg, ih reply hn⟩

/-- In every state that is reached the dialogue goes on keeping to `G`. -/
theorem reaches (hrefl : ∀ s, G s s) (htrans : ∀ {s s' s''}, G s s' → G s' s'' → G s s'')
    {c c' : Dialogue Q A α × σ} (hr : Reaches W c c') (h : c.1.Always W G post c.2) :
    G c.2 c'.2 ∧ c'.1.Always W G post c'.2 := by
  induction hr with
  | refl => exact ⟨hrefl _, h⟩
  | tail _ hm ih =>
    obtain ⟨hg, ha⟩ := ih
    cases hm with
    | answered hw =>
      obtain ⟨hg', ha'⟩ := ha _ _ hw
      exact ⟨htrans hg hg', ha'⟩

/-- Of a state that answers: what holds of the result. -/
theorem run {answer : (q : Q) → σ → A q × σ} (h : d.Always (exactly answer) G post s) :
    post (d.run answer s).1 (d.run answer s).2 := by
  induction d generalizing s with
  | done a => exact h
  | ask q next ih => exact ih _ (h _ _ rfl).2

end Always

/-- A question with its answer. -/
abbrev Exchange {Q : Type} (A : Q → Type) := (q : Q) × A q

/-- The questions of a run with their answers, in order. -/
def exchanges (answer : (q : Q) → σ → A q × σ) : Dialogue Q A α → σ → List (Exchange A)
  | .done _, _ => []
  | .ask q next, s =>
    let (reply, s) := answer q s
    ⟨q, reply⟩ :: (next reply).exchanges answer s

/-- Whatever the answers are, `post` holds of the exchanges there were, the result and the state at
the end. -/
def Tells (W : World Q A σ) :
    (List (Exchange A) → α → σ → Prop) → Dialogue Q A α → σ → Prop
  | post, .done a, s => post [] a s
  | post, .ask q next, s =>
    ∀ reply s', W q s reply s' → Tells W (fun told => post (⟨q, reply⟩ :: told)) (next reply) s'

namespace Tells

variable {post post' : List (Exchange A) → α → σ → Prop} {d : Dialogue Q A α} {s : σ}

theorem imp (h : d.Tells W post s) (himp : ∀ told a s, post told a s → post' told a s) :
    d.Tells W post' s := by
  induction d generalizing s post post' with
  | done a => exact himp [] a s h
  | ask q next ih =>
    exact fun reply s' hw => ih reply (h reply s' hw) fun told => himp (⟨q, reply⟩ :: told)

/-- The exchanges of the first dialogue come before those of the second. -/
theorem bind {post : List (Exchange A) → β → σ → Prop} {f : α → Dialogue Q A β}
    (h : d.Tells W (fun told a s => (f a).Tells W (fun told' => post (told ++ told')) s) s) :
    (d >>= f).Tells W post s := by
  induction d generalizing s post with
  | done a => exact h
  | ask q next ih => exact fun reply s' hw => ih reply (h reply s' hw)

/-- One question. -/
theorem asked (q : Q) {post : List (Exchange A) → A q → σ → Prop}
    (h : (Dialogue.ask q .done).Always W (fun _ _ => True)
      (fun reply s => post [⟨q, reply⟩] reply s) s) : (Dialogue.ask q .done).Tells W post s := fun reply s' hw => (h reply s' hw).2

/-- The exchanges may be left out of account. -/
theorem always {post : α → σ → Prop} (h : d.Tells W (fun _ => post) s) :
    d.Always W (fun _ _ => True) post s := by
  induction d generalizing s with
  | done a => exact h
  | ask q next ih => exact fun reply s' hw => ⟨trivial, ih reply (h reply s' hw)⟩

/-- A world with fewer answers. -/
theorem narrow {W' : World Q A σ} (h : d.Tells W post s)
    (hw : ∀ q s reply s', W' q s reply s' → W q s reply s') : d.Tells W' post s := by
  induction d generalizing s post with
  | done a => exact h
  | ask q next ih => exact fun reply s' hw' => ih reply (h reply s' (hw q s reply s' hw'))

/-- Of a state that answers: what holds of the run. -/
theorem run {answer : (q : Q) → σ → A q × σ} (h : d.Tells (exactly answer) post s) :
    post (d.exchanges answer s) (d.run answer s).1 (d.run answer s).2 := by
  induction d generalizing s post with
  | done a => exact h
  | ask q next ih => exact ih _ (h _ _ rfl)

end Tells

/-- Ends after so many questions at most, whatever the answers are. -/
def Within : Dialogue Q A α → Nat → Prop
  | .done _, _ => True
  | .ask _ _, 0 => False
  | .ask _ next, n + 1 => ∀ reply, (next reply).Within n

namespace Within

variable {n m : Nat} {d : Dialogue Q A α} {f : α → Dialogue Q A β}

theorem mono (h : d.Within n) (hn : n ≤ m) : d.Within m := by
  induction d generalizing n m with
  | done a => trivial
  | ask q next ih =>
    cases n with
    | zero => exact h.elim
    | succ n =>
      cases m with
      | zero => omega
      | succ m => exact fun reply => ih reply (h reply) (Nat.le_of_succ_le_succ hn)

theorem bind (h : d.Within n) (hf : ∀ a, (f a).Within m) : (d >>= f).Within (n + m) := by
  induction d generalizing n with
  | done a => exact (hf a).mono (Nat.le_add_left m n)
  | ask q next ih =>
    cases n with
    | zero => exact h.elim
    | succ n =>
      rw [Nat.succ_add]
      exact fun reply => ih reply (h reply)

end Within

/-- The questions of two dialogues, one after the other. -/
theorem questions_andThen (answer : (q : Q) → σ → A q × σ) (d : Dialogue Q A α)
    (f : α → Dialogue Q A β) (s : σ) :
    (d.andThen f).questions answer s =
      d.questions answer s ++ (f (d.run answer s).1).questions answer (d.run answer s).2 := by
  induction d generalizing s with
  | done a => rfl
  | ask q next ih => exact congrArg (q :: ·) (ih _ _)

/-- The questions of a dialogue that begins with one question. -/
theorem mem_questions_ask {answer : (q : Q) → σ → A q × σ} {q q' : Q} {f : A q → Dialogue Q A β} {s : σ} :
    q' ∈ (Dialogue.ask q .done >>= f).questions answer s ↔
      q' = q ∨ q' ∈ (f (answer q s).1).questions answer (answer q s).2 := List.mem_cons

/-- Dialogues one after the other, and all their results. -/
def inTurn : List (Dialogue Q A α) → Dialogue Q A (List α)
  | [] => .done []
  | d :: ds => d.andThen fun a => (inTurn ds).andThen fun as => .done (a :: as)

/-- What every one of the dialogues makes of the state and of the results so far, all of them make. -/
theorem Always.inTurn {I : List α → σ → Prop} {ds : List (Dialogue Q A α)} {seen : List α} {s : σ}
    (hstep : ∀ d ∈ ds, ∀ seen s, I seen s → d.Always W G (fun a s => I (seen ++ [a]) s) s)
    (hs : I seen s) : (inTurn ds).Always W G (fun as s => I (seen ++ as) s) s := by
  induction ds generalizing seen s with
  | nil => simpa [Dialogue.inTurn, Always] using hs
  | cons d ds ih =>
    refine Always.andThen ((hstep d List.mem_cons_self seen s hs).imp fun a s' ha => ?_)
    refine Always.andThen ((ih (fun d hd => hstep d (List.mem_cons_of_mem _ hd)) ha).imp ?_)
    intro as s'' has
    simpa [Always] using has

end Dialogue

end UploadDepot

/-
Dialogues that share one world and take turns in any order.

In a `Round` every dialogue stands somewhere. A step answers the pending
question of one of them, or is done to the world from outside. An `Accord`
says what all of them keep true, when a question may be asked, and what each
can rely on from one of its turns to the next. What a dialogue comes to under an accord (`Sustains`) is
proved question by question, for this dialogue alone; it then holds among any
number of others that keep to the accord (`Accord.Holds.reaches`).
-/
import Mathlib.Logic.Function.Basic
import UploadDepot.Proofs.Dialogue

namespace UploadDepot

/-! ## Rounds -/

/-- A question that was answered, and who had asked it. -/
structure Turn (ι Q : Type) (A : Q → Type) where
  who : ι
  question : Q
  reply : A question

/-- What all dialogues have before them: the world, and the turns taken until now, in order. -/
structure Scene (ι Q : Type) (A : Q → Type) (σ : Type) where
  world : σ
  turns : List (Turn ι Q A)

/-- Dialogues, each as far as it has come. -/
structure Round (ι Q : Type) (A : Q → Type) (α σ : Type) where
  talks : ι → Dialogue Q A α
  scene : Scene ι Q A σ

variable {ι Q : Type} {A : Q → Type} {α β σ : Type}

/-- One more turn, and the world it leaves. -/
def Scene.turn (s : Scene ι Q A σ) (who : ι) (question : Q) (reply : A question) (world : σ) :
    Scene ι Q A σ :=
  { world, turns := s.turns ++ [{ who, question, reply }] }

theorem Scene.mem_turn {s : Scene ι Q A σ} {who : ι} {question : Q} {reply : A question} {world : σ}
    {t : Turn ι Q A} :
    t ∈ (s.turn who question reply world).turns ↔ t ∈ s.turns ∨ t = { who, question, reply } := by
  rw [turn, List.mem_append, List.mem_singleton]

/-- The world changed by nobody's turn. -/
def Scene.put (s : Scene ι Q A σ) (world : σ) : Scene ι Q A σ := { s with world }

/-- The number of turns that a dialogue has taken. -/
def Scene.taken [DecidableEq ι] (s : Scene ι Q A σ) (i : ι) : Nat := s.turns.countP (·.who = i)

namespace Round

variable [DecidableEq ι] {W : World Q A σ} {outside : σ → σ → Prop}

/-- One step: a pending question is answered, or the world is changed from outside. -/
inductive Steps (W : World Q A σ) (outside : σ → σ → Prop) :
    Round ι Q A α σ → Round ι Q A α σ → Prop
  | turn {r : Round ι Q A α σ} {i : ι} {q : Q} {next : A q → Dialogue Q A α} {reply : A q} {w : σ} :
      r.talks i = .ask q next → W q r.scene.world reply w →
      Steps W outside r
        { talks := Function.update r.talks i (next reply), scene := r.scene.turn i q reply w }
  | outside {r : Round ι Q A α σ} {w : σ} : outside r.scene.world w →
      Steps W outside r { r with scene := r.scene.put w }

/-- Any number of steps. -/
def Reaches (W : World Q A σ) (outside : σ → σ → Prop) :
    Round ι Q A α σ → Round ι Q A α σ → Prop :=
  Relation.ReflTransGen (Steps W outside)

/-- Dialogues that have not begun yet. -/
def start (talks : ι → Dialogue Q A α) (world : σ) : Round ι Q A α σ :=
  { talks, scene := { world, turns := [] } }

/-- The result of a dialogue that has come to its end. -/
def result? (r : Round ι Q A α σ) (i : ι) : Option α :=
  match r.talks i with
  | .done a => some a
  | .ask _ _ => none

/-- No turn is undone. -/
theorem Reaches.turns {r r' : Round ι Q A α σ} (h : Reaches W outside r r') :
    r.scene.turns ⊆ r'.scene.turns := by
  induction h with
  | refl => exact fun _ => id
  | tail _ hstep ih =>
    cases hstep with
    | turn => exact fun t ht => Scene.mem_turn.2 (.inl (ih ht))
    | outside => exact ih

/-- What is left of a dialogue, and the turns it has taken, are within the same bound. -/
theorem Reaches.within {r r' : Round ι Q A α σ} {i : ι} {bound : Nat} (h : Reaches W outside r r')
    (hbound : ∃ left, (r.talks i).Within left ∧ r.scene.taken i + left = bound) :
    ∃ left, (r'.talks i).Within left ∧ r'.scene.taken i + left = bound := by
  induction h with
  | refl => exact hbound
  | tail _ hstep ih =>
    cases hstep with
    | @turn j q next reply w htalk _ =>
      obtain ⟨left, hleft, hsum⟩ := ih
      by_cases hj : i = j
      · subst hj
        rw [htalk] at hleft
        cases left with
        | zero => exact hleft.elim
        | succ left =>
          refine ⟨left, ?_, ?_⟩
          · dsimp only
            rw [Function.update_self]
            exact hleft reply
          · simp only [Scene.taken, Scene.turn, List.countP_append, List.countP_singleton,
              decide_true, if_true] at hsum ⊢
            omega
      · refine ⟨left, ?_, ?_⟩
        · dsimp only
          rw [Function.update_of_ne hj]
          exact hleft
        · simp only [Scene.taken, Scene.turn, List.countP_append, List.countP_singleton,
            decide_eq_true_eq, if_neg (Ne.symm hj), Nat.add_zero] at hsum ⊢
          exact hsum
    | outside => exact ih

/-- Turns taken in a given order, answered by a state, as long as the questions are allowed. -/
def play? (answer : (q : Q) → σ → A q × σ) (allowed : Q → σ → Bool) :
    List ι → Round ι Q A α σ → Option (Round ι Q A α σ)
  | [], r => some r
  | i :: order, r =>
    match r.talks i with
    | .done _ => none
    | .ask q next =>
      if allowed q r.scene.world then
        let answered := answer q r.scene.world
        play? answer allowed order
          { talks := Function.update r.talks i (next answered.1)
            scene := r.scene.turn i q answered.1 answered.2 }
      else none

theorem play?_reaches {answer : (q : Q) → σ → A q × σ} {allowed : Q → σ → Bool}
    (hW : ∀ q s, allowed q s = true → W q s (answer q s).1 (answer q s).2) {order : List ι}
    {r r' : Round ι Q A α σ} (h : play? answer allowed order r = some r') :
    Reaches W outside r r' := by
  induction order generalizing r with
  | nil =>
    cases h
    exact .refl
  | cons i order ih =>
    rw [play?] at h
    split at h
    · cases h
    · rename_i q next htalk
      split at h
      · rename_i hallowed
        exact .head (.turn htalk (hW q _ hallowed)) (ih h)
      · cases h

end Round

/-! ## Accords -/

/-- How dialogues get along in a world. -/
structure Accord (ι Q : Type) (A : Q → Type) (σ : Type) where
  world : World Q A σ
  outside : σ → σ → Prop
  /-- What holds of every scene. -/
  Sound : Scene ι Q A σ → Prop
  /-- What holds whenever a dialogue asks a question. -/
  Asks : ι → Q → Scene ι Q A σ → Prop
  /-- What the others leave to one dialogue, from one scene to a later one. -/
  Spares : ι → Scene ι Q A σ → Scene ι Q A σ → Prop
  refl : ∀ i s, Spares i s s
  trans : ∀ {i s s' s''}, Spares i s s' → Spares i s' s'' → Spares i s s''
  /-- What is done from outside keeps to it. -/
  leaves : ∀ {s w}, Sound s → outside s.world w → Sound (s.put w) ∧ ∀ i, Spares i s (s.put w)

/-- Whenever it is the turn of `i`, it asks as it may; whatever the answer is, all remains sound, the
others are spared, and `post` holds of the result. -/
def Dialogue.Sustains (C : Accord ι Q A σ) (i : ι) (post : α → Scene ι Q A σ → Prop) :
    Dialogue Q A α → Scene ι Q A σ → Prop
  | .done a, s => post a s
  | .ask q next, s => ∀ s', C.Sound s' → C.Spares i s s' → C.Asks i q s' ∧
      ∀ reply w, C.world q s'.world reply w →
        C.Sound (s'.turn i q reply w) ∧ (∀ j, j ≠ i → C.Spares j s' (s'.turn i q reply w)) ∧
          (next reply).Sustains C i post (s'.turn i q reply w)

/-- What is not lost while others take their turns. -/
def Accord.Lasts (C : Accord ι Q A σ) (i : ι) (post : α → Scene ι Q A σ → Prop) : Prop :=
  ∀ a s s', C.Sound s' → C.Spares i s s' → post a s → post a s'

namespace Dialogue.Sustains

variable {C : Accord ι Q A σ} {i : ι} {post post' : α → Scene ι Q A σ → Prop} {d : Dialogue Q A α}
  {s s' : Scene ι Q A σ}

theorem imp (h : d.Sustains C i post s) (himp : ∀ a s, post a s → post' a s) :
    d.Sustains C i post' s := by
  induction d generalizing s with
  | done a => exact himp a s h
  | ask q next ih =>
    intro s' hs' hspares
    obtain ⟨hasks, hturn⟩ := h s' hs' hspares
    refine ⟨hasks, fun reply w hw => ?_⟩
    obtain ⟨hsound, hothers, hn⟩ := hturn reply w hw
    exact ⟨hsound, hothers, ih reply hn⟩

/-- What holds at the end of the first dialogue is what the second may begin with. -/
theorem andThen {post : β → Scene ι Q A σ → Prop} {f : α → Dialogue Q A β}
    (h : d.Sustains C i (fun a s => (f a).Sustains C i post s) s) :
    (d.andThen f).Sustains C i post s := by
  induction d generalizing s with
  | done a => exact h
  | ask q next ih =>
    intro s' hs' hspares
    obtain ⟨hasks, hturn⟩ := h s' hs' hspares
    refine ⟨hasks, fun reply w hw => ?_⟩
    obtain ⟨hsound, hothers, hn⟩ := hturn reply w hw
    exact ⟨hsound, hothers, ih reply hn⟩

theorem bind {post : β → Scene ι Q A σ → Prop} {f : α → Dialogue Q A β}
    (h : d.Sustains C i (fun a s => (f a).Sustains C i post s) s) :
    (d >>= f).Sustains C i post s := andThen h

/-- Others may take their turns in between. -/
theorem later (hpost : C.Lasts i post) (h : d.Sustains C i post s) (hs' : C.Sound s')
    (hspares : C.Spares i s s') : d.Sustains C i post s' := by
  cases d with
  | done a => exact hpost a s s' hs' hspares h
  | ask q next =>
    intro s'' hs'' hspares'
    exact h s'' hs'' (C.trans hspares hspares')

end Dialogue.Sustains

namespace Accord

variable {C : Accord ι Q A σ} {post : ι → α → Scene ι Q A σ → Prop}
  {r r' : Round ι Q A α σ}

/-- All is sound, and every dialogue sustains what it is to come to. -/
structure Holds (C : Accord ι Q A σ) (post : ι → α → Scene ι Q A σ → Prop)
    (r : Round ι Q A α σ) : Prop where
  sound : C.Sound r.scene
  sustains : ∀ i, (r.talks i).Sustains C i (post i) r.scene

/-- What is true of a turn that is about to be taken. -/
theorem Holds.turn (h : C.Holds post r) {i : ι} {q : Q} {next : A q → Dialogue Q A α}
    (htalk : r.talks i = .ask q next) : C.Asks i q r.scene ∧
      ∀ reply w, C.world q r.scene.world reply w →
        C.Sound (r.scene.turn i q reply w) ∧
          (∀ j, j ≠ i → C.Spares j r.scene (r.scene.turn i q reply w)) ∧
          (next reply).Sustains C i (post i) (r.scene.turn i q reply w) := by
  have hturn := h.sustains i
  rw [htalk] at hturn
  exact hturn r.scene h.sound (C.refl i _)

variable [DecidableEq ι]

/-- **One step**, of any of the dialogues or from outside. -/
theorem Holds.steps (hpost : ∀ i, C.Lasts i (post i)) (h : C.Holds post r)
    (hstep : Round.Steps C.world C.outside r r') : C.Holds post r' := by
  cases hstep with
  | @turn i q next reply w htalk hw =>
    obtain ⟨hsound, hothers, hn⟩ := (h.turn htalk).2 reply w hw
    refine ⟨hsound, fun j => ?_⟩
    by_cases hj : j = i
    · subst hj
      dsimp only
      rw [Function.update_self]
      exact hn
    · dsimp only
      rw [Function.update_of_ne hj]
      exact (h.sustains j).later (hpost j) hsound (hothers j hj)
  | outside hout =>
    obtain ⟨hsound, hspares⟩ := C.leaves h.sound hout
    exact ⟨hsound, fun j => (h.sustains j).later (hpost j) hsound (hspares j)⟩

/-- A step is one's own turn, or it spares one. -/
theorem Holds.spares (h : C.Holds post r) (hstep : Round.Steps C.world C.outside r r') (i : ι) :
    (∃ q next reply w, r.talks i = .ask q next ∧ C.world q r.scene.world reply w ∧
      r'.talks i = next reply ∧ r'.scene = r.scene.turn i q reply w) ∨
    (r'.talks i = r.talks i ∧ C.Spares i r.scene r'.scene) := by
  cases hstep with
  | @turn j q next reply w htalk hw =>
    by_cases hj : i = j
    · subst hj
      exact .inl ⟨q, next, reply, w, htalk, hw, Function.update_self .., rfl⟩
    · exact .inr ⟨Function.update_of_ne hj .., ((h.turn htalk).2 reply w hw).2.1 i hj⟩
  | outside hout => exact .inr ⟨rfl, (C.leaves h.sound hout).2 i⟩

/-- **Any number of steps**, in any order. -/
theorem Holds.reaches (hpost : ∀ i, C.Lasts i (post i)) (h : C.Holds post r)
    (hreach : Round.Reaches C.world C.outside r r') : C.Holds post r' := by
  induction hreach with
  | refl => exact h
  | tail _ hstep ih => exact ih.steps hpost hstep

end Accord

end UploadDepot

/-
The limiter refines the plain log.

The plain log keeps every instant at which a key was ever allowed, and counts
those still in the window. It has no shards, prunes nothing and is never
swept. `answers_eq_log`: under exact instants that never go back the limiter
gives the answers of the log, so that nothing but the allowed calls of a key
and the switch has a say in the decisions on it.
-/
import Mathlib.Algebra.Order.Group.Int
import UploadDepot.Proofs.RateLimit.Run
import UploadDepot.Proofs.RateLimit.Window

namespace UploadDepot.RateLimit

variable {τ : Type}

/-- A limiter that keeps, for each key, all the instants at which it was allowed. -/
structure LogLimiter (τ : Type) where
  rules : Scope → Rule τ
  enabled : Bool
  log : Key → List τ := fun _ => []

namespace LogLimiter

/-- Writes an instant at the end of the log of a key. -/
def record (r : LogLimiter τ) (key : Key) (now : τ) : LogLimiter τ :=
  { r with log := fun other => if other = key then r.log key ++ [now] else r.log other }

variable [AddCommGroup τ] [LinearOrder τ]

/-- Allowed, if fewer than the limit of the logged instants are in the window. -/
def decide (r : LogLimiter τ) (key : Key) (now : τ) : Decision :=
  if ((r.log key).countP (live (r.rules key.1).window now) : Int) < (r.rules key.1).limit then .allowed
  else .denied

/-- The log after a call that is not bypassed. -/
def called (r : LogLimiter τ) (key : Key) (now : τ) : LogLimiter τ :=
  match r.decide key now with
  | .allowed => r.record key now
  | .denied => r

/-- One operation: the answer, if it is a call, and the log after it. -/
def perform (r : LogLimiter τ) : Operation τ → Option Decision × LogLimiter τ
  | .call scope client now =>
    if r.enabled = false then (some .allowed, r)
    else (some (r.decide (scope, client) now), r.called (scope, client) now)
  | .sweep _ => (none, r)
  | .enable on => (none, { r with enabled := on })

/-- The answers to a sequence of operations, one for each. -/
def answers (r : LogLimiter τ) : List (Operation τ) → List (Option Decision)
  | [] => []
  | op :: ops => (r.perform op).1 :: (r.perform op).2.answers ops

/-- The log after a sequence of operations. -/
def after (r : LogLimiter τ) (ops : List (Operation τ)) : LogLimiter τ :=
  ops.foldl (fun r op => (r.perform op).2) r

@[simp] theorem called_rules (r : LogLimiter τ) (key : Key) (now : τ) :
    (r.called key now).rules = r.rules := by
  unfold called
  split <;> rfl

@[simp] theorem called_enabled (r : LogLimiter τ) (key : Key) (now : τ) :
    (r.called key now).enabled = r.enabled := by
  unfold called
  split <;> rfl

theorem called_log_other (r : LogLimiter τ) {key other : Key} (now : τ) (h : other ≠ key) :
    (r.called key now).log other = r.log other := by
  unfold called
  split
  · exact if_neg h
  · rfl

theorem called_log_self (r : LogLimiter τ) (key : Key) (now : τ) :
    (r.called key now).log key =
      match r.decide key now with
      | .allowed => r.log key ++ [now]
      | .denied => r.log key := by
  unfold called
  split
  · exact if_pos rfl
  · rfl

end LogLimiter

/-! ## Refinement -/

section Refinement

variable [AddCommGroup τ] [LinearOrder τ] [IsOrderedAddMonoid τ] {l : Limiter τ} {r : LogLimiter τ}

/-- A limiter and a log that will give the same answers at the instants to come. -/
structure Refines (coming : List τ) (l : Limiter τ) (r : LogLimiter τ) : Prop where
  sound : l.Sound
  rules : l.rules = r.rules
  enabled : l.enabled = r.enabled
  windows : ∀ key, StandsFor (r.rules key.1).window coming (l.kept key) (r.log key)

/-- The limiter decides as the log does. -/
theorem Refines.decide_eq {now : τ} {coming : List τ} (h : Refines (now :: coming) l r) (key : Key) :
    (l.rules key.1).decide now (l.kept key) = r.decide key now := by
  rw [Rule.decide, LogLimiter.decide, h.rules, (h.windows key).prune_eq, List.countP_eq_length_filter]

/-- The window that a call leaves stands for the log that it leaves. -/
theorem Refines.admitted {now : τ} {coming : List τ} (h : Refines (now :: coming) l r) (key : Key) :
    StandsFor (r.rules key.1).window (now :: coming) ((l.rules key.1).admitted now (l.kept key))
      ((r.called key now).log key) := by
  rw [Rule.admitted, h.decide_eq, h.rules, LogLimiter.called_log_self]
  cases r.decide key now with
  | allowed => exact (h.windows key).prune.record
  | denied => exact (h.windows key).prune

/-- A call that is not bypassed. -/
theorem Refines.called {now : τ} {coming : List τ} (h : Refines (now :: coming) l r) (key : Key) :
    Refines coming (l.putShard key (l.calledShard key now)) (r.called key now) where
  sound := h.sound.call key now
  rules := by rw [LogLimiter.called_rules]; exact h.rules
  enabled := by rw [LogLimiter.called_enabled]; exact h.enabled
  windows := by
    intro other
    rw [LogLimiter.called_rules]
    have hw : StandsFor (r.rules other.1).window (now :: coming)
        (if other = key then (l.rules key.1).admitted now (l.kept key) else l.kept other)
        ((r.called key now).log other) := by
      split
      · next heq =>
        subst heq
        exact h.admitted other
      · next hne =>
        rw [LogLimiter.called_log_other r now hne]
        exact h.windows other
    -- A sweep set off by the call prunes once more.
    rcases Limiter.kept_call h.sound key now other with hk | hk
    · rw [hk]
      exact hw.tail
    · rw [hk, show (l.rules other.1).window = (r.rules other.1).window by rw [h.rules]]
      exact hw.prune.tail

/-- **One operation.** The answers agree, and the limiter goes on refining the log. -/
theorem Refines.step {op : Operation τ} {ops : List (Operation τ)}
    (h : Refines (instants (op :: ops)) l r) :
    (l.perform op).1 = (r.perform op).1.map .ok ∧
      Refines (instants ops) (l.perform op).2 (r.perform op).2 := by
  cases op with
  | call scope client now =>
    cases he : r.enabled with
    | false =>
      have hl : l.enabled = false := h.enabled.trans he
      simp only [Limiter.perform, Limiter.call, LogLimiter.perform, hl, he, if_true]
      exact ⟨rfl, h.sound, h.rules, h.enabled, fun key => (h.windows key).tail⟩
    | true =>
      have hl : l.enabled = true := h.enabled.trans he
      simp only [Limiter.perform, LogLimiter.perform, Limiter.call_eq h.sound.sweeps hl, he,
        Bool.true_eq_false, if_false]
      refine ⟨?_, h.called _⟩
      rw [Option.map_some, ← h.decide_eq]
  | sweep now =>
    refine ⟨rfl, h.sound.sweep now, h.rules, h.enabled, fun key => ?_⟩
    show StandsFor _ _ ((l.sweep now).2.kept key) (r.log key)
    rw [Limiter.kept_sweep h.sound, h.rules]
    exact (h.windows key).prune.tail
  | enable on => exact ⟨rfl, ⟨h.sound.sweeps, h.sound.shards, h.sound.distinct⟩, h.rules, rfl, h.windows⟩

/-- **A whole run.** -/
theorem Refines.answers {ops : List (Operation τ)} (h : Refines (instants ops) l r) :
    l.answers ops = (r.answers ops).map (Option.map .ok) := by
  induction ops generalizing l r with
  | nil => rfl
  | cons op ops ih =>
    obtain ⟨ha, hr⟩ := h.step
    rw [Limiter.answers, LogLimiter.answers, List.map_cons, ha, ih hr]

theorem Refines.after {ops ops' : List (Operation τ)} (h : Refines (instants (ops ++ ops')) l r) :
    Refines (instants ops') (l.after ops) (r.after ops) := by
  induction ops generalizing l r with
  | nil => exact h
  | cons op ops ih => exact ih h.step.2

end Refinement

/-! ## What has no say in the decisions on a key -/

/-- The answers to the calls of a key. -/
def answersFor {α : Type} (key : Key) (ops : List (Operation τ)) (answers : List (Option α)) : List α :=
  (ops.zip answers).filterMap fun
    | (.call scope client _, answer) => if (scope, client) = key then answer else none
    | _ => none

theorem answersFor_map {α β : Type} (f : α → β) (key : Key) (ops : List (Operation τ))
    (answers : List (Option α)) :
    answersFor key ops (answers.map (Option.map f)) = (answersFor key ops answers).map f := by
  rw [answersFor, answersFor, List.zip_map_right, List.filterMap_map, List.map_filterMap]
  refine congrArg (List.filterMap · (ops.zip answers)) (funext fun p => ?_)
  obtain ⟨op, answer⟩ := p
  cases op with
  | sweep now => rfl
  | enable on => rfl
  | call scope client now =>
    show (if (scope, client) = key then answer.map f else none) =
      (if (scope, client) = key then answer else none).map f
    split <;> rfl

/-- Operations that leave the decisions on a key as they are: sweeps, calls of other keys, and calls
that are bypassed or denied. -/
def Limiter.Idle [Sub τ] [LE τ] [DecidableLE τ] (l : Limiter τ) (key : Key) : Operation τ → Prop
  | .call scope client now =>
    (scope, client) ≠ key ∨ l.enabled = false ∨ (l.call scope client now).1 = .ok .denied
  | .sweep _ => True
  | .enable _ => False

namespace LogLimiter

variable [AddCommGroup τ] [LinearOrder τ]

/-- Two logs that are the same as far as one key is concerned. -/
structure AgreeOn (key : Key) (r r' : LogLimiter τ) : Prop where
  rules : r.rules = r'.rules
  enabled : r.enabled = r'.enabled
  log : r.log key = r'.log key

theorem AgreeOn.step {key : Key} {r r' : LogLimiter τ} (h : AgreeOn key r r') (op : Operation τ) :
    AgreeOn key (r.perform op).2 (r'.perform op).2 ∧
      ∀ scope client now, op = .call scope client now → (scope, client) = key →
        (r.perform op).1 = (r'.perform op).1 := by
  cases op with
  | sweep now => exact ⟨h, fun _ _ _ he => nomatch he⟩
  | enable on => exact ⟨⟨h.rules, rfl, h.log⟩, fun _ _ _ he => nomatch he⟩
  | call scope client now =>
    by_cases hk : (scope, client) = key
    · subst hk
      have hd : r.decide (scope, client) now = r'.decide (scope, client) now := by
        rw [decide, decide, h.rules, h.log]
      simp only [perform, h.enabled]
      split
      · exact ⟨h, fun _ _ _ _ _ => rfl⟩
      · refine ⟨⟨?_, ?_, ?_⟩, fun _ _ _ _ _ => congrArg some hd⟩
        · rw [called_rules, called_rules, h.rules]
        · rw [called_enabled, called_enabled, h.enabled]
        · rw [called_log_self, called_log_self, hd, h.log]
    · -- A call of another key writes elsewhere, if anywhere.
      have hother : ∀ s : LogLimiter τ, AgreeOn key s (s.perform (.call scope client now)).2 := by
        intro s
        simp only [perform]
        split
        · exact ⟨rfl, rfl, rfl⟩
        · exact ⟨(called_rules _ _ _).symm, (called_enabled _ _ _).symm,
            (called_log_other _ _ (Ne.symm hk)).symm⟩
      have hr := hother r
      have hr' := hother r'
      refine ⟨⟨?_, ?_, ?_⟩, ?_⟩
      · rw [← hr.rules, h.rules, hr'.rules]
      · rw [← hr.enabled, h.enabled, hr'.enabled]
      · rw [← hr.log, h.log, hr'.log]
      · rintro _ _ _ he rfl
        cases he
        exact absurd rfl hk

theorem AgreeOn.answersFor {key : Key} {r r' : LogLimiter τ} (h : AgreeOn key r r')
    (ops : List (Operation τ)) :
    answersFor key ops (r.answers ops) = answersFor key ops (r'.answers ops) := by
  induction ops generalizing r r' with
  | nil => rfl
  | cons op ops ih =>
    obtain ⟨hnext, hsame⟩ := h.step op
    have ih := ih hnext
    simp only [RateLimit.answersFor, answers, List.zip_cons_cons, List.filterMap_cons] at ih ⊢
    cases op with
    | sweep now => exact ih
    | enable on => exact ih
    | call scope client now =>
      by_cases hk : (scope, client) = key
      · simp only [if_pos hk, hsame scope client now rfl hk]
        split <;> simp_all
      · simpa only [if_neg hk] using ih

end LogLimiter

/-- An idle operation leaves the log of the key as it is. -/
theorem Refines.agreeOn [AddCommGroup τ] [LinearOrder τ] [IsOrderedAddMonoid τ] {l : Limiter τ}
    {r : LogLimiter τ} {key : Key} {op : Operation τ} {ops : List (Operation τ)}
    (h : Refines (instants (op :: ops)) l r) (hi : l.Idle key op) :
    LogLimiter.AgreeOn key (r.perform op).2 r := by
  cases op with
  | sweep now => exact ⟨rfl, rfl, rfl⟩
  | enable on => exact hi.elim
  | call scope client now =>
    simp only [LogLimiter.perform]
    split
    · exact ⟨rfl, rfl, rfl⟩
    · next he =>
      refine ⟨LogLimiter.called_rules _ _ _, LogLimiter.called_enabled _ _ _, ?_⟩
      rcases hi with hk | hoff | hdenied
      · exact LogLimiter.called_log_other _ _ (Ne.symm hk)
      · exact absurd (h.enabled.symm.trans hoff) he
      · rw [Limiter.call_eq h.sound.sweeps (h.enabled.trans (Bool.not_eq_false _ ▸ he))] at hdenied
        have hd : r.decide (scope, client) now = .denied := by
          rw [← h.decide_eq]
          exact Except.ok.inj hdenied
        rw [LogLimiter.called, hd]

/-- **The limiter gives the answers of the plain log**, whatever the number of shards, the spread of
the keys over them and the rhythm of the sweeps, for operations at instants that never go back. What
has no place in the log of a key has no say in the decisions on it: without an idle operation, they
are the same. -/
theorem answers_eq_log [AddCommGroup τ] [LinearOrder τ] [IsOrderedAddMonoid τ]
    (table : Table Scope (Rule τ)) (rules : Scope → Rule τ)
    (hrules : ∀ scope, table.get? scope = some (rules scope)) (enabled : Bool)
    (shards sweepEvery : Int) (hshards : 1 ≤ shards) (hsweep : sweepEvery ≠ 0) (spread : Key → Nat)
    (ops : List (Operation τ)) (hmono : (instants ops).Pairwise (· ≤ ·)) :
    ∃ l, Limiter.create table enabled shards sweepEvery spread = .ok l ∧
      l.answers ops = (({ rules, enabled } : LogLimiter τ).answers ops).map (Option.map .ok) ∧
      ∀ pre op post key, ops = pre ++ op :: post → (l.after pre).Idle key op →
        answersFor key post ((l.after (pre ++ [op])).answers post) =
          answersFor key post ((l.after pre).answers post) := by
  have hsome : ∀ scope, (table.get? scope).isSome := fun scope => by rw [hrules scope]; rfl
  obtain ⟨l, hl, hsound, henabled, htable, hkept⟩ :=
    Limiter.create_ok hsome enabled hshards hsweep spread
  have hrule : l.rules = rules :=
    funext fun scope => Option.some.inj ((htable scope).symm.trans (hrules scope))
  have href : Refines (instants ops) l { rules, enabled } := by
    refine ⟨hsound, hrule, henabled, fun key => ?_⟩
    rw [hkept key]
    exact StandsFor.nil hmono
  refine ⟨l, hl, href.answers, fun pre op post key hops hidle => ?_⟩
  subst hops
  -- The same rest of the run, from the state before the operation and from the one after it.
  have hbefore := href.after
  have hwithout : Refines (instants post) (l.after pre) (LogLimiter.after { rules, enabled } pre) :=
    ⟨hbefore.sound, hbefore.rules, hbefore.enabled, fun key =>
      (hbefore.windows key).fewer ((List.sublist_cons_self op post).filterMap _)⟩
  have hafter := hbefore.step.2
  have hagree := (hbefore.agreeOn hidle).answersFor post
  rw [Limiter.after_append]
  show answersFor key post ((((l.after pre).perform op).2).answers post) = _
  rw [hafter.answers, hwithout.answers, answersFor_map, answersFor_map, hagree]

/-- One upload in ten seconds: a second one is denied, passes while the limiter is off, and is
allowed at the very end of the window, whatever was denied or swept in between. -/
theorem answers_eq_log_one_in_ten :
    let rules : Scope → Rule Int := fun _ => { limit := 1, window := 10 }
    let table : Table Scope (Rule Int) := Scope.all.map fun scope => (scope, rules scope)
    let ops : List (Operation Int) :=
      [.call .uploadFile "a" 0, .call .uploadFile "b" 3, .call .uploadFile "a" 5, .sweep 7,
       .enable false, .call .uploadFile "a" 8, .enable true, .call .uploadFile "a" 10]
    (∀ scope, table.get? scope = some (rules scope)) ∧ (instants ops).Pairwise (· ≤ ·) ∧
      ∃ l, Limiter.create table true 1 2 spreadByText = .ok l ∧
        l.answers ops =
          [some (.ok .allowed), some (.ok .allowed), some (.ok .denied), none, none,
           some (.ok .allowed), none, some (.ok .allowed)] := by
  intro rules table ops
  have hrules : ∀ scope, table.get? scope = some (rules scope) := by
    intro scope
    cases scope <;> rfl
  have hmono : (instants ops).Pairwise (· ≤ ·) := by decide
  obtain ⟨l, hl, ha, -⟩ :=
    answers_eq_log table rules hrules true 1 2 (by decide) (by decide) spreadByText ops hmono
  exact ⟨hrules, hmono, l, hl, ha.trans (by decide)⟩

end UploadDepot.RateLimit

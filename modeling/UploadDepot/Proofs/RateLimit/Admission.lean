/-
Admission against the limiter, and what a client that is turned away is told.

`Gate.enter` is the call of the limiter with its decision put into words, so
a run of it is a run of the limiter (`Gate.limiter_after`). When a client is
turned away at `now`, every instant kept for it is one of a call before, so by
the end of the seconds that it is told all of them have left the window: unless
another call of the same key was allowed meanwhile, there is room again
(`retry_after_is_honest`).
-/
import Mathlib.Algebra.Order.Ring.Rat
import Mathlib.Data.List.TakeWhile
import UploadDepot.Proofs.RateLimit.Shards
import UploadDepot.RateLimit.Admission

namespace UploadDepot.RateLimit

/-- Exact seconds, which are all whole. -/
instance : WholeSeconds Int where
  wholeSeconds n := .ok n

/-- Exact seconds and parts of them, cut toward zero. -/
instance : WholeSeconds Rat where
  wholeSeconds q := .ok (q.num.tdiv q.den)

/-! ## One client -/

section Reply

variable {τ : Type} [WholeSeconds τ]

/-- What a client is told, under the rule of its scope. -/
def Rule.reply (rule : Rule τ) (scope : Scope) : Except CallFault Decision → Except AdmissionFault Unit
  | .error fault => .error (.call fault)
  | .ok .allowed => .ok ()
  | .ok .denied =>
    match WholeSeconds.wholeSeconds rule.window with
    | .ok retryAfter => .error (.limited { scope, retryAfter })
    | .error notWhole => .error (.window notWhole)

/-- A client is told to come back only when it is denied, and after the whole seconds of the window. -/
theorem Rule.denied_of_limited {rule : Rule τ} {scope : Scope}
    {answer : Except CallFault Decision} {denial : Denial}
    (h : rule.reply scope answer = .error (.limited denial)) :
    answer = .ok .denied ∧ ∃ retryAfter, WholeSeconds.wholeSeconds rule.window = .ok retryAfter ∧
      denial = { scope, retryAfter } := by
  unfold Rule.reply at h
  split at h
  · cases h
  · cases h
  · split at h
    · next hseconds =>
      cases h
      exact ⟨rfl, _, hseconds, rfl⟩
    · cases h

end Reply

section Enter

variable {τ : Type} [Sub τ] [LE τ] [DecidableLE τ]

/-- What a call never changes. -/
structure Limiter.SameRules (l l' : Limiter τ) : Prop where
  rules : l'.rules = l.rules
  sweepEvery : l'.sweepEvery = l.sweepEvery

/-- A call is answered, and the rules stay as they are. -/
theorem Limiter.call_answered {l : Limiter τ} (h : l.sweepEvery ≠ 0) (scope : Scope) (client : String)
    (now : τ) :
    (∃ decision, (l.call scope client now).1 = .ok decision) ∧
      l.SameRules (l.call scope client now).2 := by
  cases he : l.enabled with
  | false =>
    rw [call, if_pos he]
    exact ⟨⟨_, rfl⟩, rfl, rfl⟩
  | true =>
    rw [call_eq h he]
    exact ⟨⟨_, rfl⟩, rfl, rfl⟩

variable [WholeSeconds τ] {g : Gate τ} {scope : Scope} {client : String} {now : τ} {seconds : Int}

theorem Gate.enter_allowed (h : (g.limiter.call scope client now).1 = .ok .allowed) :
    g.enter scope client now =
      (.silent (.ok ()), { limiter := (g.limiter.call scope client now).2
                           metrics := g.metrics.countDecision scope .allowed }) := by
  rw [enter]
  generalize g.limiter.call scope client now = called at h ⊢
  obtain ⟨answer, limiter⟩ := called
  cases h
  rfl

theorem Gate.enter_denied (hsweep : g.limiter.sweepEvery ≠ 0)
    (hseconds : WholeSeconds.wholeSeconds (g.limiter.rules scope).window = .ok seconds)
    (h : (g.limiter.call scope client now).1 = .ok .denied) :
    g.enter scope client now =
      ({ lines := [denialLine scope client]
         value := .error (.limited { scope, retryAfter := seconds }) },
        { limiter := (g.limiter.call scope client now).2
          metrics := g.metrics.countDecision scope .denied }) := by
  obtain ⟨-, hrules, -⟩ := Limiter.call_answered hsweep scope client now
  rw [enter]
  generalize g.limiter.call scope client now = called at h hrules ⊢
  obtain ⟨answer, limiter⟩ := called
  cases h
  dsimp only at hrules ⊢
  rw [hrules, hseconds]

theorem Gate.enter_value (g : Gate τ) (scope : Scope) (client : String) (now : τ) :
    (g.enter scope client now).1.value =
      (g.limiter.rules scope).reply scope (g.limiter.call scope client now).1 := by
  have hrules : (g.limiter.call scope client now).2.rules = g.limiter.rules :=
    (g.limiter.alike_perform (.call scope client now)).rules
  rw [enter, ← hrules]
  generalize g.limiter.call scope client now = called
  obtain ⟨answer, limiter⟩ := called
  cases answer with
  | error fault => rfl
  | ok decision =>
    cases decision with
    | allowed => rfl
    | denied =>
      dsimp only [Rule.reply]
      cases WholeSeconds.wholeSeconds (limiter.rules scope).window <;> rfl

theorem Gate.enter_limiter (g : Gate τ) (scope : Scope) (client : String) (now : τ) :
    (g.enter scope client now).2.limiter = (g.limiter.call scope client now).2 := by
  rw [enter]
  generalize g.limiter.call scope client now = called
  obtain ⟨answer, limiter⟩ := called
  cases answer with
  | error fault => rfl
  | ok decision => cases decision <;> rfl

/-! ## Runs -/

/-- One operation: a client that asks for admission, or something that is done with the limiter. -/
def Gate.perform (g : Gate τ) : Operation τ → Gate τ
  | .call scope client now => (g.enter scope client now).2
  | op => { g with limiter := (g.limiter.perform op).2 }

/-- The gate after a sequence of operations. -/
def Gate.after (g : Gate τ) (ops : List (Operation τ)) : Gate τ := ops.foldl Gate.perform g

theorem Gate.limiter_perform (g : Gate τ) (op : Operation τ) :
    (g.perform op).limiter = (g.limiter.perform op).2 := by
  cases op with
  | call scope client now => exact g.enter_limiter scope client now
  | sweep now => rfl
  | enable on => rfl

/-- A run of admissions is a run of the limiter. -/
theorem Gate.limiter_after (g : Gate τ) (ops : List (Operation τ)) :
    (g.after ops).limiter = g.limiter.after ops := by
  induction ops generalizing g with
  | nil => rfl
  | cons op ops ih =>
    have hrest := ih (g.perform op)
    rwa [limiter_perform] at hrest

end Enter

/-! ## Turned away and back again -/

namespace Limiter

/-- With a sweep every zero calls nobody is turned away. -/
theorem call_ne_denied_of_no_sweeps {τ : Type} [Sub τ] [LE τ] [DecidableLE τ] {l : Limiter τ}
    (h : l.sweepEvery = 0) (scope : Scope) (client : String) (now : τ) :
    (l.call scope client now).1 ≠ .ok .denied := by
  simp only [call, h, if_true]
  split
  · intro hdenied
    cases hdenied
  · intro hdenied
    cases hdenied

variable {τ : Type} [AddCommGroup τ] [LinearOrder τ] {l : Limiter τ} {scope : Scope}
  {client : String} {now later : τ}

theorem Sound.call_eq_allowed (h : l.Sound) (he : l.enabled = true) :
    (l.call scope client now).1 = .ok .allowed ↔
      ((prune (l.rules scope).window now (l.kept (scope, client))).length : Int) <
        (l.rules scope).limit := by
  rw [call_eq h.sweeps he, Except.ok.injEq, Rule.decide_eq_allowed]

/-- What is kept of a key after a run, when no call of the key was allowed since a part of it: instants
of that part. -/
theorem Running.kept_of_none_allowed (h : l.Running) {before between : List (Operation τ)}
    (hon : ∀ on, .enable on ∉ before ++ between) {key : Key} (hempty : l.kept key = [])
    (hnone : (l.after before).allowedAt key between = []) {ts : τ}
    (hts : ts ∈ (l.after (before ++ between)).kept key) : ts ∈ instants before := by
  have hkept := h.kept_after hon key
  rw [hempty, List.nil_append, allowedAt_append, hnone, List.append_nil] at hkept
  exact List.mem_filterMap.2 ⟨_, mem_allowedAt (hkept.subset hts), rfl⟩

variable [IsOrderedAddMonoid τ]

/-- When all that may still be kept of a key is as old as the window is long, there is room. -/
theorem Running.call_allowed_later (h : l.Running) {before between : List (Operation τ)}
    (hon : ∀ on, .enable on ∉ before ++ between) (hempty : l.kept (scope, client) = [])
    (hlimit : 1 ≤ (l.rules scope).limit) (hclock : ∀ ts ∈ instants before, ts ≤ now)
    (hnone : (l.after before).allowedAt (scope, client) between = [])
    (hlater : now + (l.rules scope).window ≤ later) :
    ((l.after (before ++ between)).call scope client later).1 = .ok .allowed := by
  have hafter := h.after hon
  have hexpired : ∀ ts ∈ (l.after (before ++ between)).kept (scope, client),
      expired (l.rules scope).window later ts = true := by
    intro ts hts
    have hle : ts ≤ now := hclock ts (h.kept_of_none_allowed hon hempty hnone hts)
    exact decide_eq_true (le_sub_iff_add_le'.2 ((add_le_add_left hle _).trans hlater))
  rw [hafter.sound.call_eq_allowed hafter.enabled, (l.alike_after (before ++ between)).rules, prune,
    List.dropWhile_eq_nil_iff.2 hexpired]
  exact Int.lt_of_lt_of_le Int.zero_lt_one hlimit

end Limiter

open Limiter in
/-- **Retry-After is honest**, for every limiter that is switched on, with rules that let something
through and windows of whole seconds, any number of shards, any spread of the keys and any rhythm of
the sweeps. A client that is turned away at `now`, after any operations at instants that are not later,
is told the seconds of the window; whatever is done meanwhile, so long as no call of the same key is
allowed, the client is admitted when it comes back after these seconds or later. -/
theorem retry_after_is_honest {τ : Type} [AddCommGroupWithOne τ] [LinearOrder τ]
    [IsOrderedAddMonoid τ] [WholeSeconds τ] (table : Table Scope (Rule τ)) (rules : Scope → Rule τ)
    (hrules : ∀ scope, table.get? scope = some (rules scope))
    (hlimit : ∀ scope, 1 ≤ (rules scope).limit) (seconds : Scope → Int)
    (hwhole : ∀ scope, (rules scope).window = (seconds scope : τ))
    (hseconds : ∀ scope, WholeSeconds.wholeSeconds (rules scope).window = .ok (seconds scope))
    (shards sweepEvery : Int) (hshards : 1 ≤ shards) (spread : Key → Nat) :
    ∃ l, Limiter.create table true shards sweepEvery spread = .ok l ∧
      ∀ (metrics : Metrics) (before between : List (Operation τ)) (scope : Scope) (client : String)
        (now later : τ) (denial : Denial),
        let reached := ({ limiter := l, metrics } : Gate τ).after before
        let refused := reached.enter scope client now
        (∀ on, .enable on ∉ before ++ between) → (∀ ts ∈ instants before, ts ≤ now) →
        refused.1.value = .error (.limited denial) →
        refused.2.limiter.allowedAt (scope, client) between = [] →
        now + (denial.retryAfter : τ) ≤ later →
        denial = { scope, retryAfter := seconds scope } ∧
          ((refused.2.after between).enter scope client later).1.value = .ok () := by
  obtain ⟨l, hl, -, hrhythm⟩ :=
    create_any_sweeps (fun scope => by rw [hrules scope]; rfl) true hshards sweepEvery spread
  refine ⟨l, hl, fun metrics before between scope client now later denial => ?_⟩
  intro reached refused hon hclock hrefused hnone hlater
  have hreached : reached.limiter = l.after before := Gate.limiter_after _ before
  rw [Gate.enter_value, hreached, (l.alike_after before).rules] at hrefused
  obtain ⟨hdenied, told, htold, rfl⟩ := Rule.denied_of_limited hrefused
  have hsweep : sweepEvery ≠ 0 := fun hz => by
    have hnone : (l.after before).sweepEvery = 0 := (l.alike_after before).sweepEvery.trans (hrhythm.trans hz)
    exact call_ne_denied_of_no_sweeps hnone _ _ _ hdenied
  obtain ⟨l', hl', hrun, rfl, -⟩ := exists_running hrules hshards hsweep spread
  obtain rfl : l = l' := Except.ok.inj (hl.symm.trans hl')
  rw [hseconds] at htold
  cases htold
  rw [← hwhole] at hlater
  -- The refused call ends the part of the run in which the instants lie that may still be kept.
  let called := before ++ [Operation.call scope client now]
  have hcalled : refused.2.limiter = l.after called := by
    rw [Gate.enter_limiter, hreached, after_append]
    rfl
  have honce : ∀ on, .enable on ∉ called ++ between := by
    intro on hm
    exact hon on (by simpa [called] using hm)
  have hclocked : ∀ ts ∈ instants called, ts ≤ now := by
    intro ts hts
    rw [instants, List.filterMap_append, List.mem_append] at hts
    rcases hts with hts | hts
    · exact hclock ts hts
    · exact (List.mem_singleton.1 hts).le
  have hallowed := hrun.call_allowed_later honce (kept_of_create hl _) (hlimit scope) hclocked
    (hcalled ▸ hnone) hlater
  refine ⟨rfl, ?_⟩
  rw [Gate.enter_value, Gate.limiter_after, hcalled, ← after_append, hallowed]
  rfl

/-- One in ten seconds. A client that is admitted at a half is turned away at 3 and told to come back
after 10 seconds. It is turned away again at 5, another client is admitted, and a sweep takes out the
first key; at 13 the client is admitted. -/
theorem retry_after_is_honest_ten :
    let rules : Scope → Rule Rat := fun _ => { limit := 1, window := 10 }
    let table : Table Scope (Rule Rat) := Scope.all.map fun scope => (scope, rules scope)
    let before : List (Operation Rat) := [.call .uploadFile "a" (1 / 2)]
    let between : List (Operation Rat) :=
      [.call .uploadFile "a" 5, .call .uploadFile "b" 6, .sweep 11]
    (∀ scope, table.get? scope = some (rules scope)) ∧ (∀ scope, 1 ≤ (rules scope).limit) ∧
      (∀ scope, (rules scope).window = ((10 : Int) : Rat)) ∧
      (∀ scope, WholeSeconds.wholeSeconds (rules scope).window = .ok 10) ∧
      (∀ on, .enable on ∉ before ++ between) ∧ (∀ ts ∈ instants before, ts ≤ 3) ∧
      ∃ l, Limiter.create table true 1 (-2) (fun _ => 0) = .ok l ∧
        let reached := ({ limiter := l } : Gate Rat).after before
        let refused := reached.enter .uploadFile "a" 3
        refused.1.value = .error (.limited { scope := .uploadFile, retryAfter := 10 }) ∧
        refused.2.limiter.allowedAt (.uploadFile, "a") between = [] ∧
        ((refused.2.after between).enter .uploadFile "a" 13).1.value = .ok () := by
  intro rules table before between
  have hrules : ∀ scope, table.get? scope = some (rules scope) := by
    intro scope
    cases scope <;> rfl
  have hlimit : ∀ scope, 1 ≤ (rules scope).limit := fun _ => by decide
  have hwhole : ∀ scope, (rules scope).window = ((10 : Int) : Rat) := fun _ => rfl
  have hseconds : ∀ scope, WholeSeconds.wholeSeconds (rules scope).window = .ok 10 :=
    fun _ => by decide +kernel
  have hon : ∀ on, .enable on ∉ before ++ between := by simp [before, between]
  have hclock : ∀ ts ∈ instants before, ts ≤ 3 := by decide +kernel
  obtain ⟨l, hl, hrun⟩ := retry_after_is_honest table rules hrules hlimit (fun _ => 10) hwhole hseconds
    1 (-2) (by decide) fun _ => 0
  have hrefused : ((({ limiter := l } : Gate Rat).after before).enter .uploadFile "a" 3).1.value =
      .error (.limited { scope := .uploadFile, retryAfter := 10 }) := by
    cases hl
    decide +kernel
  have hnone : ((({ limiter := l } : Gate Rat).after before).enter .uploadFile "a" 3).2.limiter.allowedAt
      (.uploadFile, "a") between = [] := by
    cases hl
    decide +kernel
  have hadmitted := (hrun {} before between .uploadFile "a" 3 13 _ hon hclock hrefused hnone
    (by decide +kernel)).2
  exact ⟨hrules, hlimit, hwhole, hseconds, hon, hclock, l, hl, hrefused, hnone, hadmitted⟩

end UploadDepot.RateLimit

/-
What the limiter holds at the newest instant, whatever the order of the
instants before it.

An instant that is still in the window at the newest one was in the window at
every instant the run has come to, so nothing ever pruned it: seen through
these instants, the window of a key is the list of all its allowed calls. And
a window only ever grows where it has room, so it never outgrows the limit,
in order or not. `newest_window_is_kept` says both of every run.
-/
import Mathlib.Data.Finset.Dedup
import Mathlib.Data.Finset.Order
import UploadDepot.Proofs.RateLimit.Bound

namespace UploadDepot.RateLimit

namespace Limiter

variable {τ : Type} [AddCommGroup τ] [LinearOrder τ] {l : Limiter τ} {key : Key}

/-- A call leaves no window that is longer than the limit, if it found none. -/
theorem admitted_length_le {rule : Rule τ} {now : τ} {xs : List τ}
    (h : xs.length ≤ rule.limit.toNat) : (rule.admitted now xs).length ≤ rule.limit.toNat := by
  have hpruned := (prune_length_le rule.window now xs).trans h
  rw [Rule.admitted]
  cases hd : rule.decide now xs with
  | allowed =>
    have hroom := Rule.decide_eq_allowed.1 hd
    simp only [List.length_append, List.length_singleton]
    omega
  | denied => exact hpruned

/-- No operation makes a window longer than the limit. -/
theorem Sound.kept_length_le (h : l.Sound) (he : l.enabled = true)
    (hle : (l.kept key).length ≤ (l.rules key.1).limit.toNat) (op : Operation τ) :
    ((l.perform op).2.kept key).length ≤ (l.rules key.1).limit.toNat := by
  cases op with
  | enable on => exact hle
  | sweep now =>
    show ((l.sweep now).2.kept key).length ≤ _
    rw [kept_sweep h]
    exact (prune_length_le _ _ _).trans hle
  | call scope client now =>
    simp only [perform, call_eq h.sweeps he]
    have hcalled : (if key = (scope, client) then (l.rules scope).admitted now (l.kept (scope, client))
        else l.kept key).length ≤ (l.rules key.1).limit.toNat := by
      split
      · next hkey =>
        subst hkey
        exact admitted_length_le hle
      · exact hle
    rcases kept_call h (scope, client) now key with hk | hk
    · rw [hk]
      exact hcalled
    · rw [hk]
      exact (prune_length_le _ _ _).trans hcalled

end Limiter

variable {τ : Type} [AddCommGroup τ] [LinearOrder τ]

/-- The window of a key holds every allowed call that is in the window at `newest`, and no more
instants than the limit. -/
structure Covers (key : Key) (rule : Rule τ) (newest : τ) (l : Limiter τ) (log : List τ) : Prop where
  sound : l.Sound
  enabled : l.enabled = true
  ruled : l.rules key.1 = rule
  kept : (l.kept key).filter (live rule.window newest) = log.filter (live rule.window newest)
  length : (l.kept key).length ≤ rule.limit.toNat

variable {key : Key} {rule : Rule τ} {newest : τ} {l : Limiter τ} {log : List τ}

/-- What is held is bounded, and so is what it covers. -/
theorem Covers.count_le (h : Covers key rule newest l log) :
    log.countP (live rule.window newest) ≤ rule.limit.toNat := by
  rw [List.countP_eq_length_filter, ← h.kept]
  exact (List.length_filter_le _ _).trans h.length

/-! ## Up to the newest instant -/

variable [IsOrderedAddMonoid τ]

/-- What has left the window is not in it at a newer instant. -/
theorem not_live_of_expired {window now : τ} (h : now ≤ newest) {x : τ}
    (hx : expired window now x = true) : live window newest x = false := by
  rw [Bool.eq_false_iff]
  intro hlive
  rw [expired_eq_not_live, live_of_later h hlive] at hx
  cases hx

namespace Covers

/-- An operation at no newer instant. -/
theorem step (h : Covers key rule newest l log) {op : Operation τ} (hon : ∀ on, op ≠ .enable on)
    (hle : ∀ now ∈ op.instant?, now ≤ newest) :
    Covers key rule newest (l.perform op).2
      (log ++ (op.allowedAt? key (l.perform op).1).toList) := by
  obtain ⟨hsound, henabled, hrules⟩ := h.sound.step h.enabled hon
  have hrule := h.ruled
  subst hrule
  have hkept := h.sound.filter_kept h.enabled key fun now hnow x =>
    not_live_of_expired (hle now (Operation.instant?_of_prunesAt? hnow))
  refine ⟨hsound, henabled, congrFun hrules key.1, ?_, ?_⟩
  · rw [hkept, h.kept, List.filter_append]
  · exact h.sound.kept_length_le h.enabled h.length op

/-- **A whole run**, of which no instant is newer. -/
theorem run {ops : List (Operation τ)} (h : Covers key rule newest l log)
    (hon : ∀ on, .enable on ∉ ops) (hle : ∀ now ∈ instants ops, now ≤ newest) :
    Covers key rule newest (l.after ops) (log ++ l.allowedAt key ops) := by
  induction ops generalizing l log with
  | nil =>
    rw [Limiter.allowedAt_nil, List.append_nil]
    exact h
  | cons op ops ih =>
    have hstep := h.step (fun on he => hon on (he ▸ List.mem_cons_self))
      fun now hnow => hle now (List.mem_filterMap.2 ⟨op, List.mem_cons_self, hnow⟩)
    have hrest : ∀ now ∈ instants ops, now ≤ newest := fun now hm =>
      hle now (((List.sublist_cons_self op ops).filterMap _).subset hm)
    rw [Limiter.allowedAt_cons, ← List.append_assoc]
    exact ih hstep (fun on hm => hon on (List.mem_cons_of_mem _ hm)) hrest

end Covers

/-- **The newest window is kept, in bounded memory**, for every key of a limiter that is switched on,
any number of shards, any spread of the keys, any rhythm of the sweeps, and calls and sweeps at
instants in any order. Wherever a run stops, the window of a key has no more instants than the limit.
Of the instants at which the key was ever allowed, those still in the window at the newest instant of
the run, or at a newer one, are all held, and are no more than the limit. -/
theorem newest_window_is_kept (table : Table Scope (Rule τ)) (rules : Scope → Rule τ)
    (hrules : ∀ scope, table.get? scope = some (rules scope)) (shards sweepEvery : Int)
    (hshards : 1 ≤ shards) (hsweep : sweepEvery ≠ 0) (spread : Key → Nat) :
    ∃ l, Limiter.create table true shards sweepEvery spread = .ok l ∧
      ∀ ops : List (Operation τ), (∀ on, .enable on ∉ ops) → ∀ key,
        ((l.after ops).kept key).length ≤ (rules key.1).limit.toNat ∧
        ∀ newest, (∀ now ∈ instants ops, now ≤ newest) →
          (l.allowedAt key ops).countP (live (rules key.1).window newest) ≤
            (rules key.1).limit.toNat ∧
          ((l.after ops).kept key).filter (live (rules key.1).window newest) =
            (l.allowedAt key ops).filter (live (rules key.1).window newest) := by
  have hsome : ∀ scope, (table.get? scope).isSome := fun scope => by rw [hrules scope]; rfl
  obtain ⟨l, hl, hsound, henabled, htable, hkept⟩ :=
    Limiter.create_ok hsome true hshards hsweep spread
  have hrule : ∀ scope, l.rules scope = rules scope :=
    fun scope => Option.some.inj ((htable scope).symm.trans (hrules scope))
  refine ⟨l, hl, fun ops hon key => ?_⟩
  have hcovers : ∀ newest, (∀ now ∈ instants ops, now ≤ newest) →
      Covers key (rules key.1) newest (l.after ops) (l.allowedAt key ops) := by
    intro newest hle
    have hbegin : Covers key (rules key.1) newest l [] :=
      ⟨hsound, henabled, hrule key.1, by rw [hkept key], by rw [hkept key]; exact Nat.zero_le _⟩
    exact hbegin.run hon hle
  obtain ⟨newest, hnewest⟩ := (instants ops).toFinset.exists_le
  exact ⟨(hcovers newest fun now hm => hnewest now (List.mem_toFinset.2 hm)).length, fun newest hle =>
    ⟨(hcovers newest hle).count_le, (hcovers newest hle).kept⟩⟩

/-- Two in ten seconds, at instants that go back and forth, with a sweep at another key's instant:
the newest instant is 14, at which 9 is still in the window and 0 is not. -/
theorem newest_window_is_kept_two :
    let rules : Scope → Rule Int := fun _ => { limit := 2, window := 10 }
    let table : Table Scope (Rule Int) := Scope.all.map fun scope => (scope, rules scope)
    let ops : List (Operation Int) :=
      [.call .uploadFile "a" 9, .call .uploadFile "a" 0, .call .uploadFile "b" 14,
       .call .uploadFile "a" 3, .sweep 12]
    (∀ scope, table.get? scope = some (rules scope)) ∧ (∀ on, .enable on ∉ ops) ∧
      (∀ now ∈ instants ops, now ≤ 14) ∧
      ∃ l, Limiter.create table true 2 3 (fun _ => 0) = .ok l ∧
        l.allowedAt (.uploadFile, "a") ops = [9, 0] ∧
        ((l.after ops).kept (.uploadFile, "a")).length ≤ 2 ∧
        ((l.after ops).kept (.uploadFile, "a")).filter (live 10 14) = [9] := by
  intro rules table ops
  have hrules : ∀ scope, table.get? scope = some (rules scope) := by
    intro scope
    cases scope <;> rfl
  have hon : ∀ on, .enable on ∉ ops := by simp [ops]
  have hnewest : ∀ now ∈ instants ops, now ≤ 14 := by decide
  obtain ⟨l, hl, hrun⟩ :=
    newest_window_is_kept table rules hrules 2 3 (by decide) (by decide) (fun _ => 0)
  obtain ⟨hlength, hheld⟩ := hrun ops hon (.uploadFile, "a")
  refine ⟨hrules, hon, hnewest, l, hl, ?_, hlength, (hheld 14 hnewest).2.trans ?_⟩
  · cases hl
    decide
  · cases hl
    decide

end UploadDepot.RateLimit

/-
Runs of a limiter: calls, sweeps and the switch, in any order.

What a run does to the window of one key is said once here: a call prunes
and perhaps extends the window of its own key, and a sweep, set off by a
call or asked for, prunes windows. Shards do not show in it.
-/
import Mathlib.Data.List.Basic
import Mathlib.Data.List.GetD
import UploadDepot.Proofs.Table
import UploadDepot.RateLimit.Limiter

namespace UploadDepot.RateLimit

/-- What is done with a limiter. -/
inductive Operation (τ : Type) where
  | call (scope : Scope) (client : String) (now : τ)
  | sweep (now : τ)
  /-- Switches the limiter on or off. -/
  | enable (on : Bool)

/-- The instant of an operation. -/
def Operation.instant? {τ : Type} : Operation τ → Option τ
  | .call _ _ now => some now
  | .sweep now => some now
  | .enable _ => none

/-- The instants of a sequence of operations, in order. -/
def instants {τ : Type} (ops : List (Operation τ)) : List τ := ops.filterMap Operation.instant?

theorem instants_cons {τ : Type} (op : Operation τ) (ops : List (Operation τ)) :
    instants (op :: ops) = op.instant?.toList ++ instants ops := by
  rw [instants, List.filterMap_cons]
  cases op.instant? <;> rfl

namespace Limiter

variable {τ : Type} [Sub τ] [LE τ] [DecidableLE τ]

/-- One operation: the answer, if it is a call, and the limiter after it. -/
def perform (l : Limiter τ) : Operation τ → Option (Except CallFault Decision) × Limiter τ
  | .call scope client now => ((l.call scope client now).1, (l.call scope client now).2)
  | .sweep now => (none, (l.sweep now).2)
  | .enable on => (none, { l with enabled := on })

/-- The answers to a sequence of operations, one for each. -/
def answers (l : Limiter τ) : List (Operation τ) → List (Option (Except CallFault Decision))
  | [] => []
  | op :: ops => (l.perform op).1 :: (l.perform op).2.answers ops

/-- The limiter after a sequence of operations. -/
def after (l : Limiter τ) (ops : List (Operation τ)) : Limiter τ :=
  ops.foldl (fun l op => (l.perform op).2) l

theorem after_append (l : Limiter τ) (ops ops' : List (Operation τ)) :
    l.after (ops ++ ops') = (l.after ops).after ops' := List.foldl_append

/-- The instants kept for a key; none if it is not tracked. -/
def kept (l : Limiter τ) (key : Key) : List τ := (l.window? key).getD []

/-- There is a shard, no shard tracks a key twice, and the number of calls can be divided. -/
structure Sound (l : Limiter τ) : Prop where
  sweeps : l.sweepEvery ≠ 0
  shards : l.shards ≠ []
  distinct : ∀ s ∈ l.shards, s.windows.Distinct

end Limiter

/-! ## One shard -/

section Shard

variable {τ : Type} [Sub τ] [LE τ] [DecidableLE τ]

/-- The decision of a call on a window: whether there is room left after pruning. -/
def Rule.decide (rule : Rule τ) (now : τ) (w : List τ) : Decision :=
  if ((prune rule.window now w).length : Int) < rule.limit then .allowed else .denied

theorem Rule.decide_eq_allowed {rule : Rule τ} {now : τ} {w : List τ} :
    rule.decide now w = .allowed ↔ ((prune rule.window now w).length : Int) < rule.limit := by
  unfold Rule.decide
  split
  · next hroom => exact ⟨fun _ => hroom, fun _ => rfl⟩
  · next hfull => exact ⟨fun h => (nomatch h), fun h => absurd h hfull⟩

/-- The window that a call leaves of `w`. -/
def Rule.admitted (rule : Rule τ) (now : τ) (w : List τ) : List τ :=
  match rule.decide now w with
  | .allowed => prune rule.window now w ++ [now]
  | .denied => prune rule.window now w

namespace Shard

theorem call_decision (s : Shard τ) (rule : Rule τ) (key : Key) (now : τ) :
    (s.call rule key now).1 = rule.decide now (s.window key) := by
  unfold call Rule.decide
  dsimp only
  split <;> rfl

theorem call_windows (s : Shard τ) (rule : Rule τ) (key : Key) (now : τ) :
    (s.call rule key now).2.windows =
      s.windows.set key (rule.admitted now (s.window key)) := by
  unfold call Rule.admitted Rule.decide
  dsimp only
  split <;> rfl

theorem call_window_self (s : Shard τ) (rule : Rule τ) (key : Key) (now : τ) :
    (s.call rule key now).2.window key = rule.admitted now (s.window key) := by
  rw [window, call_windows, Table.get?_set_self]
  rfl

theorem call_window_other (s : Shard τ) (rule : Rule τ) {key other : Key} (now : τ)
    (h : other ≠ key) : (s.call rule key now).2.window other = s.window other := by
  rw [window, call_windows, Table.get?_set_other _ _ h]
  rfl

theorem distinct_call {s : Shard τ} (h : s.windows.Distinct) (rule : Rule τ) (key : Key) (now : τ) :
    (s.call rule key now).2.windows.Distinct := by
  rw [call_windows]
  exact h.set key _

theorem distinct_sweep {s : Shard τ} (h : s.windows.Distinct) (rules : Scope → Rule τ) (now : τ) :
    (s.sweep rules now).2.windows.Distinct := by
  rw [sweep, swept, pruned]
  refine Table.Distinct.sublist (Table.Distinct.mapValues ?_ h) List.filter_sublist
  exact fun _ => rfl

/-- A sweep prunes every window of the shard; a window that it empties it takes out. -/
theorem sweep_window {s : Shard τ} (h : s.windows.Distinct) (rules : Scope → Rule τ) (now : τ)
    (key : Key) :
    (s.sweep rules now).2.window key = prune (rules key.1).window now (s.window key) := by
  have hget := Table.get?_filter_map h (fun k w => prune (rules k.1).window now w)
    (fun w => !w.isEmpty) key
  rw [window, window]
  show (Table.get? (swept rules now s.windows) key).getD [] = _
  rw [swept, pruned, hget]
  cases s.windows.get? key with
  | none => rfl
  | some w => cases hw : prune (rules key.1).window now w <;> simp [Option.filter, hw]

/-- The keys that a sweep counts as taken out and the windows that it leaves make up what was there. -/
theorem sweep_count (s : Shard τ) (rules : Scope → Rule τ) (now : τ) :
    (s.sweep rules now).1 + (s.sweep rules now).2.windows.length = s.windows.length := by
  rw [sweep, stale, List.length_map, swept]
  exact (List.length_eq_length_filter_add _).symm.trans (List.length_map _)

end Shard

end Shard

/-! ## The limiter -/

namespace Limiter

section Shards

variable {τ : Type} {l : Limiter τ}

theorem kept_eq_window (l : Limiter τ) (key : Key) : l.kept key = (l.shard key).window key := rfl

theorem Sound.shardOf_lt (h : l.Sound) (key : Key) : l.shardOf key < l.shards.length :=
  Nat.mod_lt _ (List.length_pos_iff.2 h.shards)

theorem Sound.shard_mem (h : l.Sound) (key : Key) : l.shard key ∈ l.shards := by
  rw [shard, List.getD_eq_getElem _ _ (h.shardOf_lt key)]
  exact List.getElem_mem _

/-- Puts a shard in the place of the shard of a key. -/
def putShard (l : Limiter τ) (key : Key) (s : Shard τ) : Limiter τ :=
  { l with shards := l.shards.set (l.shardOf key) s }

theorem Sound.putShard (h : l.Sound) (key : Key) {s : Shard τ} (hs : s.windows.Distinct) :
    (l.putShard key s).Sound where
  sweeps := h.sweeps
  shards := fun he => h.shards ((List.set_eq_nil_iff _ _).1 he)
  distinct := fun _ hm => (List.mem_or_eq_of_mem_set hm).elim (h.distinct _) fun he => he ▸ hs

theorem shardOf_putShard (l : Limiter τ) (key : Key) (s : Shard τ) (other : Key) :
    (l.putShard key s).shardOf other = l.shardOf other := by
  rw [shardOf, shardOf, Limiter.putShard, List.length_set]

theorem shard_putShard_same (h : l.Sound) {key other : Key} (s : Shard τ)
    (he : l.shardOf other = l.shardOf key) : (l.putShard key s).shard other = s := by
  have hlt : l.shardOf key < (l.shards.set (l.shardOf key) s).length := by
    rw [List.length_set]
    exact h.shardOf_lt key
  rw [shard, shardOf_putShard, he, Limiter.putShard, List.getD_eq_getElem _ _ hlt,
    List.getElem_set_self]

theorem shard_putShard_other {key other : Key} (s : Shard τ) (hne : l.shardOf other ≠ l.shardOf key) :
    (l.putShard key s).shard other = l.shard other := by
  rw [shard, shard, shardOf_putShard, Limiter.putShard, List.getD_eq_getElem?_getD,
    List.getElem?_set_ne hne.symm, List.getD_eq_getElem?_getD]

theorem kept_putShard_other {key other : Key} (s : Shard τ)
    (hne : l.shardOf other ≠ l.shardOf key) : (l.putShard key s).kept other = l.kept other := by
  rw [kept_eq_window, shard_putShard_other s hne, kept_eq_window]

/-- With a rule for every scope and a shard there is a limiter, and it begins without instants. -/
theorem create_ok {rules : Table Scope (Rule τ)} (hrules : ∀ scope, (rules.get? scope).isSome)
    (enabled : Bool) {shards sweepEvery : Int} (hshards : 1 ≤ shards) (hsweep : sweepEvery ≠ 0)
    (spread : Key → Nat) :
    ∃ l, create rules enabled shards sweepEvery spread = .ok l ∧ l.Sound ∧ l.enabled = enabled ∧
      (∀ scope, rules.get? scope = some (l.rules scope)) ∧ ∀ key, l.kept key = [] := by
  obtain ⟨thread, ht⟩ := Option.isSome_iff_exists.1 (hrules .createThread)
  obtain ⟨reply, hr⟩ := Option.isSome_iff_exists.1 (hrules .createReply)
  obtain ⟨upload, hu⟩ := Option.isSome_iff_exists.1 (hrules .uploadFile)
  have hlt : ¬ shards < 1 := by omega
  simp only [create, ht, hr, hu, if_neg hlt]
  refine ⟨_, rfl, ⟨hsweep, ?_, ?_⟩, rfl, ?_, ?_⟩
  · intro he
    have hz := (List.replicate_eq_nil_iff _).1 he
    omega
  · intro s hs
    rw [List.eq_of_mem_replicate hs]
    exact Table.Distinct.nil
  · intro scope
    cases scope <;> assumption
  · intro key
    rw [kept_eq_window, shard, List.getD_eq_getElem?_getD, List.getElem?_replicate]
    split <;> rfl

end Shards

section Calls

variable {τ : Type} [Sub τ] [LE τ] [DecidableLE τ] {l : Limiter τ}

/-- What a call makes of the shard of its key: the window of the key changed, and all windows
pruned if a sweep was due. -/
def calledShard (l : Limiter τ) (key : Key) (now : τ) : Shard τ :=
  let s := ((l.shard key).call (l.rules key.1) key now).2
  if (s.calls : Int) % l.sweepEvery = 0 then (s.sweep l.rules now).2 else s

/-- A call that is not bypassed answers by the window of its key, and changes one shard. -/
theorem call_eq (hs : l.sweepEvery ≠ 0) (he : l.enabled = true) (scope : Scope) (client : String)
    (now : τ) :
    l.call scope client now =
      (.ok ((l.rules scope).decide now (l.kept (scope, client))),
        l.putShard (scope, client) (l.calledShard (scope, client) now)) := by
  rw [kept_eq_window, ← Shard.call_decision]
  simp only [call, he, Bool.true_eq_false, if_false, hs, calledShard, putShard]
  split <;> rfl

theorem distinct_calledShard (h : l.Sound) (key : Key) (now : τ) :
    (l.calledShard key now).windows.Distinct := by
  have hc := Shard.distinct_call (h.distinct _ (h.shard_mem key)) (l.rules key.1) key now
  rw [calledShard]
  split
  · exact Shard.distinct_sweep hc _ _
  · exact hc

/-- The windows in the shard of a call: as the call leaves them, or those pruned. -/
theorem calledShard_window (h : l.Sound) (key : Key) (now : τ) (other : Key) :
    let w := if other = key then (l.rules key.1).admitted now ((l.shard key).window key)
      else (l.shard key).window other
    (l.calledShard key now).window other = w ∨
      (l.calledShard key now).window other = prune (l.rules other.1).window now w := by
  have hw : ((l.shard key).call (l.rules key.1) key now).2.window other =
      if other = key then (l.rules key.1).admitted now ((l.shard key).window key)
      else (l.shard key).window other := by
    split
    · next he => rw [he, Shard.call_window_self]
    · next hne => rw [Shard.call_window_other _ _ _ hne]
  have hc := Shard.distinct_call (h.distinct _ (h.shard_mem key)) (l.rules key.1) key now
  dsimp only
  rw [← hw, calledShard]
  split
  · exact .inr (Shard.sweep_window hc _ _ _)
  · exact .inl rfl

/-- **What a call does to the windows**, wherever the keys live: the one of its key is pruned and
perhaps extended; any window may be pruned besides. -/
theorem kept_call (h : l.Sound) (key : Key) (now : τ) (other : Key) :
    let w := if other = key then (l.rules key.1).admitted now (l.kept key) else l.kept other
    (l.putShard key (l.calledShard key now)).kept other = w ∨
      (l.putShard key (l.calledShard key now)).kept other =
        prune (l.rules other.1).window now w := by
  by_cases he : l.shardOf other = l.shardOf key
  · have hsame : l.shard other = l.shard key := by rw [shard, shard, he]
    rw [kept_eq_window, kept_eq_window, kept_eq_window, shard_putShard_same h _ he, hsame]
    exact calledShard_window h key now other
  · have hne : other ≠ key := fun e => he (e ▸ rfl)
    rw [kept_putShard_other _ he, if_neg hne]
    exact .inl rfl

theorem Sound.call (h : l.Sound) (key : Key) (now : τ) :
    (l.putShard key (l.calledShard key now)).Sound :=
  h.putShard key (distinct_calledShard h key now)

theorem Sound.sweep (h : l.Sound) (now : τ) : (l.sweep now).2.Sound where
  sweeps := h.sweeps
  shards := by
    intro he
    unfold Limiter.sweep at he
    exact h.shards (List.map_eq_nil_iff.1 (List.map_eq_nil_iff.1 he))
  distinct := by
    intro s hs
    simp only [Limiter.sweep, List.map_map, List.mem_map] at hs
    obtain ⟨s, hm, rfl⟩ := hs
    exact Shard.distinct_sweep (h.distinct s hm) _ _

/-- A sweep prunes every window. -/
theorem kept_sweep (h : l.Sound) (now : τ) (key : Key) :
    (l.sweep now).2.kept key = prune (l.rules key.1).window now (l.kept key) := by
  have hlen : (l.sweep now).2.shards.length = l.shards.length := by simp [Limiter.sweep]
  have hlt := h.shardOf_lt key
  have hof : (l.sweep now).2.shardOf key = l.shardOf key := by rw [shardOf, hlen]; rfl
  have hshard : (l.sweep now).2.shard key = ((l.shard key).sweep l.rules now).2 := by
    rw [shard, shard, hof, List.getD_eq_getElem _ _ (hlen ▸ hlt), List.getD_eq_getElem _ _ hlt]
    simp [Limiter.sweep]
  rw [kept_eq_window, kept_eq_window, hshard]
  exact Shard.sweep_window (h.distinct _ (h.shard_mem key)) _ _ _

/-! ## What no operation changes -/

/-- The same keys are spread in the same way, under the same rules. -/
structure Alike {τ : Type} (l l' : Limiter τ) : Prop where
  rules : l'.rules = l.rules
  sweepEvery : l'.sweepEvery = l.sweepEvery
  shardOf : ∀ key, l'.shardOf key = l.shardOf key

theorem alike_perform (l : Limiter τ) (op : Operation τ) : l.Alike (l.perform op).2 := by
  have hput : ∀ key s, l.Alike (l.putShard key s) := fun key s => ⟨rfl, rfl, shardOf_putShard l key s⟩
  cases op with
  | enable on => exact ⟨rfl, rfl, fun _ => rfl⟩
  | sweep now => exact ⟨rfl, rfl, fun key => by simp [perform, sweep, shardOf]⟩
  | call scope client now =>
    simp only [perform, call]
    split
    · exact ⟨rfl, rfl, fun _ => rfl⟩
    · split
      · exact hput _ _
      · split
        · exact hput _ _
        · exact hput _ _

theorem alike_after (l : Limiter τ) (ops : List (Operation τ)) : l.Alike (l.after ops) := by
  induction ops generalizing l with
  | nil => exact ⟨rfl, rfl, fun _ => rfl⟩
  | cons op ops ih =>
    have hop := l.alike_perform op
    have hops := ih (l.perform op).2
    exact ⟨hops.rules.trans hop.rules, hops.sweepEvery.trans hop.sweepEvery,
      fun key => (hops.shardOf key).trans (hop.shardOf key)⟩

end Calls

end Limiter

end UploadDepot.RateLimit

/-
What stands in the shards.

A shard is looked at by its number here, and its windows one by one. Every
key stands in the shard that is its own (`Placed`), so that what holds of the
window of a key holds of what is tracked. An operation adds no key but the one
it calls, and what it leaves of a window is the end of the list of all the
instants the key was allowed at (`kept_after`).
-/
import Mathlib.Data.List.Nodup
import UploadDepot.Proofs.RateLimit.Bound

namespace UploadDepot.RateLimit

/-- The key of a call. -/
def Operation.key? {τ : Type} : Operation τ → Option Key
  | .call scope client _ => some (scope, client)
  | .sweep _ => none
  | .enable _ => none

/-- The keys that a shard tracks. -/
def Shard.keys {τ : Type} (s : Shard τ) : List Key := s.windows.map Prod.fst

namespace Limiter

/-- The shard of a number; past the last one there is nothing. -/
def shardAt {τ : Type} (l : Limiter τ) (i : Nat) : Shard τ := l.shards.getD i {}

/-- Every key is tracked in the shard that is its own. -/
def Placed {τ : Type} (l : Limiter τ) : Prop := ∀ i, ∀ key ∈ (l.shardAt i).keys, l.shardOf key = i

/-- The keys called in a shard, in order. -/
def calledIn {τ : Type} (l : Limiter τ) (i : Nat) (ops : List (Operation τ)) : List Key :=
  (ops.filterMap Operation.key?).filter fun key => l.shardOf key = i

section Numbers

variable {τ : Type} {l : Limiter τ}

theorem calledIn_append (l : Limiter τ) (i : Nat) (ops ops' : List (Operation τ)) :
    l.calledIn i (ops ++ ops') = l.calledIn i ops ++ l.calledIn i ops' := by
  rw [calledIn, List.filterMap_append, List.filter_append]
  rfl

theorem shard_eq_shardAt (l : Limiter τ) (key : Key) : l.shard key = l.shardAt (l.shardOf key) := rfl

theorem shardAt_putShard (h : l.Sound) (key : Key) (s : Shard τ) (i : Nat) :
    (l.putShard key s).shardAt i = if l.shardOf key = i then s else l.shardAt i := by
  rw [shardAt, putShard, List.getD_eq_getElem?_getD, List.getElem?_set]
  split
  · rw [if_pos (h.shardOf_lt key)]
    rfl
  · rw [shardAt, List.getD_eq_getElem?_getD]

theorem shardAt_distinct (h : l.Sound) (i : Nat) : (l.shardAt i).windows.Distinct := by
  rw [shardAt, List.getD_eq_getElem?_getD]
  cases hi : l.shards[i]? with
  | none => exact Table.Distinct.nil
  | some s => exact h.distinct s (List.mem_of_getElem? hi)

theorem mem_tracked {entry : Key × List τ} :
    entry ∈ l.tracked ↔ ∃ i, entry ∈ (l.shardAt i).windows := by
  rw [tracked, List.mem_flatMap]
  constructor
  · rintro ⟨s, hs, hm⟩
    obtain ⟨i, hi⟩ := List.mem_iff_getElem?.1 hs
    refine ⟨i, ?_⟩
    rw [shardAt, List.getD_eq_getElem?_getD, hi]
    exact hm
  · rintro ⟨i, hm⟩
    rw [shardAt, List.getD_eq_getElem?_getD] at hm
    cases hi : l.shards[i]? with
    | none =>
      rw [hi] at hm
      cases hm
    | some s =>
      rw [hi] at hm
      exact ⟨s, List.mem_of_getElem? hi, hm⟩

/-- What is tracked of a key stands in one place, so it is the window of the key. -/
theorem Placed.window?_eq (hp : l.Placed) (h : l.Sound) {i : Nat} {key : Key} {w : List τ}
    (hm : (key, w) ∈ (l.shardAt i).windows) : l.window? key = some w := by
  have hi : l.shardOf key = i := hp i key (List.mem_map.2 ⟨(key, w), hm, rfl⟩)
  rw [window?, shard_eq_shardAt, hi]
  exact (shardAt_distinct h i).get?_of_mem hm

theorem Placed.kept_eq (hp : l.Placed) (h : l.Sound) {i : Nat} {key : Key} {w : List τ}
    (hm : (key, w) ∈ (l.shardAt i).windows) : l.kept key = w := by
  rw [kept, hp.window?_eq h hm]
  rfl

/-- No key is tracked twice. -/
theorem Placed.distinct (hp : l.Placed) (h : l.Sound) : l.tracked.Distinct := by
  have hkeys : l.tracked.map Prod.fst = l.shards.flatMap Shard.keys := List.map_flatMap
  rw [Table.Distinct, hkeys, List.nodup_flatMap]
  refine ⟨fun s hs => h.distinct s hs, List.pairwise_iff_getElem.2 fun i j hi hj hlt => ?_⟩
  have hplace : ∀ i (hi : i < l.shards.length), ∀ key ∈ l.shards[i].keys, l.shardOf key = i := by
    intro i hi key hm
    refine hp i key ?_
    rw [shardAt, List.getD_eq_getElem _ _ hi]
    exact hm
  intro key hki hkj
  exact absurd ((hplace i hi key hki).symm.trans (hplace j hj key hkj)) (Nat.ne_of_lt hlt)

/-- A limiter begins with nothing in its shards. -/
theorem shardAt_of_create {rules : Table Scope (Rule τ)} {enabled : Bool} {shards sweepEvery : Int}
    {spread : Key → Nat} (h : create rules enabled shards sweepEvery spread = .ok l) (i : Nat) :
    l.shardAt i = {} := by
  unfold create at h
  split at h
  · split at h
    · cases h
    · cases h
      rw [shardAt, List.getD_eq_getElem?_getD, List.getElem?_replicate]
      split <;> rfl
  · cases h

theorem kept_of_create {rules : Table Scope (Rule τ)} {enabled : Bool} {shards sweepEvery : Int}
    {spread : Key → Nat} (h : create rules enabled shards sweepEvery spread = .ok l) (key : Key) :
    l.kept key = [] := by
  rw [kept_eq_window, shard_eq_shardAt, shardAt_of_create h]
  rfl

/-- A limiter has the rules of its table. -/
theorem rules_of_create {rules : Table Scope (Rule τ)} {enabled : Bool} {shards sweepEvery : Int}
    {spread : Key → Nat} (h : create rules enabled shards sweepEvery spread = .ok l) (scope : Scope) :
    rules.get? scope = some (l.rules scope) := by
  unfold create at h
  split at h
  · split at h
    · cases h
    · cases h
      cases scope <;> assumption
  · cases h

end Numbers

/-! ## Operations, shard by shard -/

theorem Alike.calledIn {τ : Type} {l l' : Limiter τ} (h : l.Alike l') (i : Nat)
    (ops : List (Operation τ)) : l'.calledIn i ops = l.calledIn i ops := by
  simp only [Limiter.calledIn, h.shardOf]

section Operations

variable {τ : Type} [Sub τ] [LE τ] [DecidableLE τ] {l : Limiter τ}

/-- A call changes the shard of its key only. -/
theorem Sound.shardAt_call (h : l.Sound) (he : l.enabled = true) (scope : Scope) (client : String)
    (now : τ) (i : Nat) :
    (l.perform (.call scope client now)).2.shardAt i =
      if l.shardOf (scope, client) = i then l.calledShard (scope, client) now else l.shardAt i := by
  rw [perform, call_eq h.sweeps he]
  exact shardAt_putShard h _ _ i

/-- A sweep is one of every shard. -/
theorem shardAt_sweep (l : Limiter τ) (now : τ) (i : Nat) :
    (l.perform (.sweep now)).2.shardAt i = ((l.shardAt i).sweep l.rules now).2 := by
  rw [shardAt, perform, sweep, List.map_map]
  exact List.getD_map l.shards {} fun s => (s.sweep l.rules now).2

end Operations

end Limiter

/-! ## Keys and windows of one shard -/

namespace Shard

variable {τ : Type} [Sub τ] [LE τ] [DecidableLE τ] {s : Shard τ} {entry : Key × List τ}

/-- A call puts one window there. -/
theorem mem_call {rule : Rule τ} {key : Key} {now : τ}
    (hm : entry ∈ (s.call rule key now).2.windows) :
    entry = (key, rule.admitted now (s.window key)) ∨ entry ∈ s.windows := by
  rw [call_windows] at hm
  exact Table.mem_set hm

/-- A sweep leaves the windows that hold something when they are pruned. -/
theorem mem_sweep {rules : Scope → Rule τ} {now : τ} (hm : entry ∈ (s.sweep rules now).2.windows) :
    entry.2 ≠ [] ∧ ∃ w, (entry.1, w) ∈ s.windows ∧ entry.2 = prune (rules entry.1.1).window now w := by
  obtain ⟨hin, hkeep⟩ := List.mem_filter.1 hm
  obtain ⟨⟨key, w⟩, hw, rfl⟩ := List.mem_map.1 hin
  exact ⟨by simpa using hkeep, w, hw, rfl⟩

theorem keys_call {rule : Rule τ} {key other : Key} {now : τ}
    (hm : other ∈ (s.call rule key now).2.keys) : other = key ∨ other ∈ s.keys := by
  obtain ⟨entry, he, rfl⟩ := List.mem_map.1 hm
  exact (mem_call he).imp (congrArg Prod.fst) fun hs => List.mem_map.2 ⟨entry, hs, rfl⟩

theorem keys_sweep {rules : Scope → Rule τ} {now : τ} {key : Key}
    (hm : key ∈ (s.sweep rules now).2.keys) : key ∈ s.keys := by
  obtain ⟨entry, he, rfl⟩ := List.mem_map.1 hm
  obtain ⟨-, w, hw, -⟩ := mem_sweep he
  exact List.mem_map.2 ⟨_, hw, rfl⟩

end Shard

namespace Limiter

section Keys

variable {τ : Type} [Sub τ] [LE τ] [DecidableLE τ] {l : Limiter τ} {key : Key} {i : Nat}

theorem keys_calledShard {now : τ} {called : Key} (hm : key ∈ (l.calledShard called now).keys) :
    key = called ∨ key ∈ (l.shard called).keys := by
  rw [calledShard] at hm
  split at hm
  · exact Shard.keys_call (Shard.keys_sweep hm)
  · exact Shard.keys_call hm

/-- An operation adds no key to a shard but the one that it calls there. -/
theorem Sound.keys_perform (h : l.Sound) (he : l.enabled = true) {op : Operation τ}
    (hm : key ∈ ((l.perform op).2.shardAt i).keys) :
    key ∈ l.calledIn i [op] ∨ key ∈ (l.shardAt i).keys := by
  cases op with
  | enable on => exact .inr hm
  | sweep now =>
    rw [shardAt_sweep] at hm
    exact .inr (Shard.keys_sweep hm)
  | call scope client now =>
    rw [h.shardAt_call he] at hm
    split at hm
    · next hi =>
      rcases keys_calledShard hm with rfl | hm
      · exact .inl (List.mem_filter.2 ⟨List.mem_singleton_self _, decide_eq_true hi⟩)
      · exact .inr (hi ▸ hm)
    · exact .inr hm

end Keys

/-! ## A run -/

/-- A limiter that is switched on, with every key in its own shard. -/
structure Running {τ : Type} (l : Limiter τ) : Prop where
  sound : l.Sound
  enabled : l.enabled = true
  placed : l.Placed

/-- With a rule for every scope, a shard, and calls that can be divided, there is a limiter to begin
with. -/
theorem exists_running {τ : Type} {table : Table Scope (Rule τ)} {rules : Scope → Rule τ}
    (hrules : ∀ scope, table.get? scope = some (rules scope)) {shards sweepEvery : Int}
    (hshards : 1 ≤ shards) (hsweep : sweepEvery ≠ 0) (spread : Key → Nat) :
    ∃ l, create table true shards sweepEvery spread = .ok l ∧ l.Running ∧ l.rules = rules ∧
      l.sweepEvery = sweepEvery := by
  have hsome : ∀ scope, (table.get? scope).isSome := fun scope => by rw [hrules scope]; rfl
  obtain ⟨l, hl, hsound, henabled, -⟩ := create_ok hsome true hshards hsweep spread
  obtain ⟨l', hl', -, hrhythm⟩ := create_any_sweeps hsome true hshards sweepEvery spread
  obtain rfl : l = l' := Except.ok.inj (hl.symm.trans hl')
  refine ⟨l, hl, ⟨hsound, henabled, fun i key hm => ?_⟩, funext fun scope => ?_, hrhythm⟩
  · rw [shardAt_of_create hl] at hm
    cases hm
  · exact Option.some.inj ((rules_of_create hl scope).symm.trans (hrules scope))

section Run

variable {τ : Type} [AddCommGroup τ] [LinearOrder τ] {l : Limiter τ} {ops : List (Operation τ)}

theorem Running.perform (h : l.Running) {op : Operation τ} (hon : ∀ on, op ≠ .enable on) :
    (l.perform op).2.Running := by
  obtain ⟨hsound, henabled, -⟩ := h.sound.step h.enabled hon
  refine ⟨hsound, henabled, fun i key hm => ?_⟩
  rw [(l.alike_perform op).shardOf]
  rcases h.sound.keys_perform h.enabled hm with hc | hm
  · exact of_decide_eq_true (List.mem_filter.1 hc).2
  · exact h.placed i key hm

/-- What every operation keeps, a run keeps. -/
theorem Running.invariant {P : Limiter τ → Prop} (h : l.Running) (hon : ∀ on, .enable on ∉ ops)
    (hbegin : P l)
    (hstep : ∀ l' : Limiter τ, l'.Running → l'.rules = l.rules → P l' → ∀ op : Operation τ,
      (∀ on, op ≠ .enable on) → P (l'.perform op).2) :
    P (l.after ops) := by
  induction ops generalizing l with
  | nil => exact hbegin
  | cons op ops ih =>
    have hop : ∀ on, op ≠ .enable on := fun on he => hon on (he ▸ List.mem_cons_self)
    refine ih (h.perform hop) (fun on hm => hon on (List.mem_cons_of_mem _ hm))
      (hstep l h rfl hbegin op hop) fun l' h' hrules => ?_
    exact hstep l' h' (hrules.trans (l.alike_perform op).rules)

theorem Running.after (h : l.Running) (hon : ∀ on, .enable on ∉ ops) : (l.after ops).Running :=
  h.invariant hon h fun _ h' _ _ _ hop => h'.perform hop

/-- A key that a shard tracks was there before, or was called since. -/
theorem Running.keys_after (h : l.Running) (hon : ∀ on, .enable on ∉ ops) {i : Nat} {key : Key}
    (hm : key ∈ ((l.after ops).shardAt i).keys) :
    key ∈ (l.shardAt i).keys ∨ key ∈ l.calledIn i ops := by
  induction ops generalizing l with
  | nil => exact .inl hm
  | cons op ops ih =>
    have hstep := h.perform fun on he => hon on (he ▸ List.mem_cons_self)
    rw [← List.singleton_append, calledIn_append, List.mem_append]
    rcases ih hstep (fun on hm => hon on (List.mem_cons_of_mem _ hm)) hm with hm | hm
    · rcases h.sound.keys_perform h.enabled hm with hc | hm
      · exact .inr (.inl hc)
      · exact .inl hm
    · rw [(l.alike_perform op).calledIn] at hm
      exact .inr (.inr hm)

/-- What an operation leaves of a window is the end of what was there, with the instant at which the
key was allowed. -/
theorem Sound.kept_perform (h : l.Sound) (he : l.enabled = true) (op : Operation τ) (key : Key) :
    (l.perform op).2.kept key <:+ l.kept key ++ (op.allowedAt? key (l.perform op).1).toList := by
  cases op with
  | enable on =>
    show l.kept key <:+ l.kept key ++ []
    simp only [List.append_nil, List.suffix_rfl]
  | sweep now =>
    show (l.sweep now).2.kept key <:+ l.kept key ++ []
    rw [kept_sweep h, List.append_nil]
    exact List.dropWhile_suffix _
  | call scope client now =>
    simp only [perform, call_eq h.sweeps he]
    have hcalled : (if key = (scope, client) then (l.rules scope).admitted now (l.kept (scope, client))
        else l.kept key) <:+
          l.kept key ++ ((Operation.call scope client now).allowedAt? key
            (some (.ok ((l.rules scope).decide now (l.kept (scope, client)))))).toList := by
      split
      · next hkey =>
        subst hkey
        rw [Rule.admitted]
        cases (l.rules scope).decide now (l.kept (scope, client)) with
        | allowed =>
          simp only [Operation.allowedAt?, if_true, Option.toList_some]
          exact List.suffix_append_self_iff.2 (List.dropWhile_suffix _)
        | denied =>
          simp only [Operation.allowedAt?, Option.toList_none, List.append_nil]
          exact List.dropWhile_suffix _
      · next hkey =>
        rw [Operation.allowedAt?_call_other hkey]
        simp only [Option.toList_none, List.append_nil, List.suffix_rfl]
    rcases kept_call h (scope, client) now key with hk | hk
    · rw [hk]
      exact hcalled
    · rw [hk]
      exact (List.dropWhile_suffix _).trans hcalled

/-- After a run a window is the end of the list of all instants its key was allowed at. -/
theorem Running.kept_after (h : l.Running) (hon : ∀ on, .enable on ∉ ops) (key : Key) :
    (l.after ops).kept key <:+ l.kept key ++ l.allowedAt key ops := by
  induction ops generalizing l with
  | nil =>
    rw [allowedAt_nil, List.append_nil]
    exact List.suffix_rfl
  | cons op ops ih =>
    have hstep := h.perform fun on he => hon on (he ▸ List.mem_cons_self)
    have hrest := ih hstep fun on hm => hon on (List.mem_cons_of_mem _ hm)
    rw [allowedAt_cons, ← List.append_assoc]
    exact hrest.trans (List.suffix_append_self_iff.2 (h.sound.kept_perform h.enabled op key))

end Run

end Limiter

end UploadDepot.RateLimit

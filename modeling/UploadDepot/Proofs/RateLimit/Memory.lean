/-
How many keys a shard tracks.

Every so many calls to a shard set off a sweep of it. Right after it every
tracked key has an instant in the window, and from then on only calls add
keys. So wherever a run has come to, what a shard tracks was alive at its last
sweep or has been called since, and the calls since are what is left over when
the calls to the shard are divided by the rhythm (`tracked_keys_are_bounded`).
The number of clients there ever were does not come into it, nor does the
order of the instants.
-/
import Mathlib.Data.Finset.Card
import UploadDepot.Proofs.RateLimit.Shards

namespace UploadDepot.RateLimit

theorem succ_mod {n k : Nat} (h : (n + 1) % k ≠ 0) : (n + 1) % k = n % k + 1 := by
  rcases Nat.eq_zero_or_pos k with rfl | hk
  · simp
  · rw [← Nat.mod_add_mod] at h ⊢
    have hlt := Nat.mod_lt n hk
    have hne : n % k + 1 ≠ k := fun he => h (by rw [he, Nat.mod_self])
    exact Nat.mod_eq_of_lt (by omega)

namespace Limiter

/-- An operation is a call in a shard that sets off its sweep. -/
def SetsOff {τ : Type} (l : Limiter τ) (i : Nat) : Operation τ → Prop
  | .call scope client _ =>
    l.shardOf (scope, client) = i ∧ (((l.shardAt i).calls + 1 : Nat) : Int) % l.sweepEvery = 0
  | .sweep _ => False
  | .enable _ => False

/-- No call of a run sets off the sweep of a shard. -/
def Unswept {τ : Type} [Sub τ] [LE τ] [DecidableLE τ] (l : Limiter τ) (i : Nat) :
    List (Operation τ) → Prop
  | [] => True
  | op :: ops => ¬ l.SetsOff i op ∧ (l.perform op).2.Unswept i ops

/-! ## Calls to a shard -/

section Calls

variable {τ : Type} {l : Limiter τ} {i : Nat}

theorem length_calledIn_one (l : Limiter τ) (i : Nat) (op : Operation τ) :
    (l.calledIn i [op]).length ≤ 1 :=
  (List.length_filter_le _ _).trans (List.length_filterMap_le _ _)

theorem calledIn_call (key : Key) (h : l.shardOf key = i) (now : τ) :
    l.calledIn i [.call key.1 key.2 now] = [key] :=
  List.filter_cons_of_pos (decide_eq_true h)

theorem calledIn_call_other (key : Key) (h : l.shardOf key ≠ i) (now : τ) :
    l.calledIn i [.call key.1 key.2 now] = [] :=
  List.filter_cons_of_neg (by simpa using h)

variable [Sub τ] [LE τ] [DecidableLE τ]

theorem unswept_snoc (l : Limiter τ) (i : Nat) (ops : List (Operation τ)) (op : Operation τ) :
    l.Unswept i (ops ++ [op]) ↔ l.Unswept i ops ∧ ¬ (l.after ops).SetsOff i op := by
  induction ops generalizing l with
  | nil => exact and_comm
  | cons first ops ih =>
    rw [List.cons_append, Unswept, Unswept, ih, and_assoc]
    rfl

theorem calls_call (s : Shard τ) (rule : Rule τ) (key : Key) (now : τ) :
    (s.call rule key now).2.calls = s.calls + 1 := by
  rw [Shard.call]
  split <;> rfl

theorem calls_calledShard (l : Limiter τ) (key : Key) (now : τ) :
    (l.calledShard key now).calls = (l.shard key).calls + 1 := by
  rw [calledShard]
  split <;> exact calls_call ..

/-- A shard counts its calls. -/
theorem Sound.calls_perform (h : l.Sound) (he : l.enabled = true) (op : Operation τ) :
    ((l.perform op).2.shardAt i).calls = (l.shardAt i).calls + (l.calledIn i [op]).length := by
  cases op with
  | enable on => rfl
  | sweep now => rw [shardAt_sweep]; rfl
  | call scope client now =>
    rw [h.shardAt_call he]
    split
    · next hi =>
      rw [calledIn_call (scope, client) hi, calls_calledShard, shard_eq_shardAt, hi]
      rfl
    · next hi => rw [calledIn_call_other (scope, client) hi]; rfl

omit [Sub τ] [LE τ] [DecidableLE τ] in
/-- A sweep is due at every multiple of the rhythm, whatever its sign. -/
theorem setsOff_iff (l : Limiter τ) (i : Nat) (op : Operation τ) :
    l.SetsOff i op ↔
      (l.calledIn i [op]).length = 1 ∧ ((l.shardAt i).calls + 1) % l.sweepEvery.natAbs = 0 := by
  cases op with
  | enable on => exact ⟨False.elim, fun h => nomatch h.1⟩
  | sweep now => exact ⟨False.elim, fun h => nomatch h.1⟩
  | call scope client now =>
    rw [SetsOff, ← Int.dvd_iff_emod_eq_zero, Int.ofNat_dvd_right, Nat.dvd_iff_mod_eq_zero]
    refine and_congr_left fun _ => ⟨fun hi => ?_, fun hone => ?_⟩
    · rw [calledIn_call (scope, client) hi]
      rfl
    · by_contra hi
      rw [calledIn_call_other (scope, client) hi] at hone
      cases hone

end Calls

/-! ## The last sweep -/

section LastSweep

variable {τ : Type} [AddCommGroup τ] [LinearOrder τ] {l : Limiter τ} {ops : List (Operation τ)}
  {i : Nat}

theorem Running.calls_after (h : l.Running) (hon : ∀ on, .enable on ∉ ops) (i : Nat) :
    ((l.after ops).shardAt i).calls = (l.shardAt i).calls + (l.calledIn i ops).length := by
  induction ops generalizing l with
  | nil => rfl
  | cons op ops ih =>
    have hstep := h.perform fun on he => hon on (he ▸ List.mem_cons_self)
    have hrest := ih hstep fun on hm => hon on (List.mem_cons_of_mem _ hm)
    rw [h.sound.calls_perform h.enabled, (l.alike_perform op).calledIn] at hrest
    rw [← List.singleton_append, calledIn_append, List.length_append, ← Nat.add_assoc]
    exact hrest

/-- **The last sweep of a shard**, if there was one, and as many calls to the shard since as the rhythm
leaves over. -/
theorem Running.lastSweep (h : l.Running) (hbegin : (l.shardAt i).calls = 0)
    (hon : ∀ on, .enable on ∉ ops) :
    (l.Unswept i ops ∧ (l.calledIn i ops).length = (l.calledIn i ops).length % l.sweepEvery.natAbs) ∨
      ∃ before op later, ops = before ++ op :: later ∧ (l.after before).SetsOff i op ∧
        (l.after (before ++ [op])).Unswept i later ∧
        (l.calledIn i later).length = (l.calledIn i ops).length % l.sweepEvery.natAbs := by
  induction ops using List.reverseRecOn with
  | nil => exact .inl ⟨trivial, (Nat.zero_mod _).symm⟩
  | append_singleton ops op ih =>
    have hops : ∀ on, .enable on ∉ ops := fun on hm => hon on (List.mem_append_left _ hm)
    have halike := l.alike_after ops
    have hcalls : ((l.after ops).shardAt i).calls = (l.calledIn i ops).length := by
      rw [h.calls_after hops, hbegin, Nat.zero_add]
    have hset := (l.after ops).setsOff_iff i op
    rw [halike.calledIn, halike.sweepEvery, hcalls] at hset
    by_cases hs : (l.after ops).SetsOff i op
    · obtain ⟨hone, hdue⟩ := hset.1 hs
      refine .inr ⟨ops, op, [], rfl, hs, trivial, ?_⟩
      rw [calledIn_append, List.length_append, hone, hdue]
      rfl
    · -- What is left over grows by this call, if it is one to the shard.
      have hmod : (l.calledIn i (ops ++ [op])).length % l.sweepEvery.natAbs =
          (l.calledIn i ops).length % l.sweepEvery.natAbs + (l.calledIn i [op]).length := by
        rw [calledIn_append, List.length_append]
        rcases Nat.le_one_iff_eq_zero_or_eq_one.1 (l.length_calledIn_one i op) with hnone | hone
        · rw [hnone, Nat.add_zero]
          rfl
        · rw [hone]
          exact succ_mod fun hdue => hs (hset.2 ⟨hone, hdue⟩)
      rw [hmod]
      rcases ih hops with ⟨hunswept, hlen⟩ | ⟨before, first, later, rfl, hfirst, hunswept, hlen⟩
      · refine .inl ⟨(unswept_snoc ..).2 ⟨hunswept, hs⟩, ?_⟩
        rw [calledIn_append, List.length_append, ← hlen]
      · refine .inr ⟨before, first, later ++ [op], ?_, hfirst, (unswept_snoc ..).2 ⟨hunswept, ?_⟩, ?_⟩
        · rw [List.append_assoc, List.cons_append]
        · rwa [← after_append, List.append_assoc, List.singleton_append]
        · rw [calledIn_append, List.length_append, hlen]

/-- The first instant that pruning leaves has not left the window. -/
theorem exists_live_of_prune {window now : τ} {xs : List τ} (h : prune window now xs ≠ []) :
    ∃ ts ∈ prune window now xs, live window now ts = true := by
  have hhead : expired window now ((prune window now xs).head h) = false :=
    List.head_dropWhile_not (expired window now) h
  rw [expired_eq_not_live] at hhead
  exact ⟨_, List.head_mem h, by simpa using hhead⟩

/-- After the call that set off a sweep, every window in the shard has an instant that is in it. -/
theorem Running.live_of_setsOff (h : l.Running) {op : Operation τ} (hset : l.SetsOff i op)
    {entry : Key × List τ} (hm : entry ∈ ((l.perform op).2.shardAt i).windows) :
    ∃ now ∈ op.instant?, ∃ ts ∈ entry.2, live (l.rules entry.1.1).window now ts = true := by
  cases op with
  | enable on => cases hset
  | sweep now => cases hset
  | call scope client now =>
    obtain ⟨hi, hdue⟩ := hset
    rw [h.sound.shardAt_call h.enabled, if_pos hi, calledShard, calls_call, shard_eq_shardAt, hi,
      if_pos hdue] at hm
    obtain ⟨hne, w, -, hpruned⟩ := Shard.mem_sweep hm
    rw [hpruned] at hne ⊢
    exact ⟨now, rfl, exists_live_of_prune hne⟩

/-! ## Keys -/

/-- Keys of a shard that are all among those of two kinds, counted. -/
theorem Sound.length_keys_le {τ : Type} {l : Limiter τ} {i : Nat} (h : l.Sound)
    {live : Finset Key} {called : List Key}
    (hkeys : ∀ key ∈ (l.shardAt i).keys, key ∈ live ∨ key ∈ called) :
    (l.shardAt i).keys.length ≤ live.card + called.length := by
  have hsub : (l.shardAt i).keys.toFinset ⊆ live ∪ called.toFinset := by
    intro key hkey
    simpa using hkeys key (List.mem_toFinset.1 hkey)
  calc (l.shardAt i).keys.length = (l.shardAt i).keys.toFinset.card :=
        (List.toFinset_card_of_nodup (shardAt_distinct h i)).symm
    _ ≤ (live ∪ called.toFinset).card := Finset.card_le_card hsub
    _ ≤ live.card + called.toFinset.card := Finset.card_union_le _ _
    _ ≤ live.card + called.length := Nat.add_le_add_left (List.toFinset_card_le called) _

/-- The keys of a shard that have been allowed in the window at `now`. -/
def liveKeys (l : Limiter τ) (i : Nat) (now : τ) (ops : List (Operation τ)) : Finset Key :=
  (l.calledIn i ops).toFinset.filter fun key =>
    ∃ ts ∈ l.allowedAt key ops, live (l.rules key.1).window now ts = true

theorem mem_liveKeys {now : τ} {key : Key} :
    key ∈ l.liveKeys i now ops ↔
      l.shardOf key = i ∧ ∃ ts ∈ l.allowedAt key ops, now - ts < (l.rules key.1).window := by
  have hlive : ∀ ts, live (l.rules key.1).window now ts = true ↔ now - ts < (l.rules key.1).window :=
    fun ts => decide_eq_true_iff
  simp only [liveKeys, Finset.mem_filter, List.mem_toFinset, hlive]
  refine and_congr_left fun ⟨ts, hts, _⟩ => ?_
  have hcalled : key ∈ ops.filterMap Operation.key? :=
    List.mem_filterMap.2 ⟨_, mem_allowedAt hts, rfl⟩
  rw [calledIn, List.mem_filter]
  simp [hcalled]

/-- **What a shard tracks after its sweep**: keys that were alive then, and keys called since. -/
theorem Running.keys_since (h : l.Running) (hempty : ∀ key, l.kept key = [])
    {before later : List (Operation τ)} {op : Operation τ} {now : τ}
    (hon : ∀ on, .enable on ∉ before ++ [op] ++ later)
    (hset : (l.after before).SetsOff i op) (hop : op.instant? = some now) (key : Key)
    (hm : key ∈ ((l.after (before ++ [op] ++ later)).shardAt i).keys) :
    key ∈ l.liveKeys i now (before ++ [op]) ∨ key ∈ l.calledIn i later := by
  have hswept : ∀ on, .enable on ∉ before ++ [op] := fun on hm => hon on (List.mem_append_left _ hm)
  have hbefore : ∀ on, .enable on ∉ before := fun on hm => hswept on (List.mem_append_left _ hm)
  have hrun := h.after hswept
  have hperform : l.after (before ++ [op]) = ((l.after before).perform op).2 := after_append l before [op]
  rw [after_append] at hm
  rcases hrun.keys_after (fun on hm => hon on (List.mem_append_right _ hm)) hm with hm | hm
  · refine .inl (mem_liveKeys.2 ⟨?_, ?_⟩)
    · rw [← (l.alike_after (before ++ [op])).shardOf]
      exact hrun.placed i key hm
    · obtain ⟨⟨alive, w⟩, hentry, rfl⟩ := List.mem_map.1 hm
      obtain ⟨_, hnow, ts, hts, hlive⟩ := (h.after hbefore).live_of_setsOff hset (hperform ▸ hentry)
      rw [hop] at hnow
      cases hnow
      rw [(l.alike_after before).rules] at hlive
      have hsuffix := h.kept_after hswept alive
      rw [hempty, hrun.placed.kept_eq hrun.sound hentry] at hsuffix
      exact ⟨ts, hsuffix.subset hts, of_decide_eq_true hlive⟩
  · rw [(l.alike_after (before ++ [op])).calledIn] at hm
    exact .inr hm

end LastSweep

end Limiter

open Limiter in
/-- **Memory is bounded by the sweeps that calls set off**, for every limiter that is switched on, any
rules, any number of shards, any spread of the keys, any rhythm of the sweeps, and any run, whatever
the order of its instants. Wherever it stops, and for every shard: if no call has set off a sweep yet,
the shard tracks no more keys than it has had calls. Else every key it tracks had been allowed, by the
last sweep, at an instant that was in the window then, or has been called since, and there are no more
keys than those of the first kind and the calls that are left over. -/
theorem tracked_keys_are_bounded {τ : Type} [AddCommGroup τ] [LinearOrder τ]
    (table : Table Scope (Rule τ)) (rules : Scope → Rule τ)
    (hrules : ∀ scope, table.get? scope = some (rules scope)) (shards sweepEvery : Int)
    (hshards : 1 ≤ shards) (hsweep : sweepEvery ≠ 0) (spread : Key → Nat) :
    ∃ l, Limiter.create table true shards sweepEvery spread = .ok l ∧ l.rules = rules ∧
      ∀ ops : List (Operation τ), (∀ on, .enable on ∉ ops) → ∀ i,
        let keys := ((l.after ops).shardAt i).keys
        let leftOver := (l.calledIn i ops).length % sweepEvery.natAbs
        (l.Unswept i ops ∧ (∀ key ∈ keys, key ∈ l.calledIn i ops) ∧ keys.length ≤ leftOver) ∨
          ∃ before scope client now later,
            let swept := before ++ [.call scope client now]
            ops = swept ++ later ∧ (l.after before).SetsOff i (.call scope client now) ∧
            (l.after swept).Unswept i later ∧
            (∀ key ∈ keys, (∃ ts ∈ l.allowedAt key swept, now - ts < (rules key.1).window) ∨
              key ∈ l.calledIn i later) ∧
            keys.length ≤ (l.liveKeys i now swept).card + leftOver := by
  obtain ⟨l, hl, hrun, rfl, hrhythm⟩ := exists_running hrules hshards hsweep spread
  refine ⟨l, hl, rfl, fun ops hon i => ?_⟩
  have hbegin := shardAt_of_create hl i
  have hlast := hrun.lastSweep (i := i) (by rw [hbegin]) hon
  rw [hrhythm] at hlast
  rcases hlast with ⟨hunswept, hlen⟩ | ⟨before, op, later, rfl, hset, hunswept, hlen⟩
  · have hkeys : ∀ key ∈ ((l.after ops).shardAt i).keys, key ∈ l.calledIn i ops := by
      intro key hm
      refine (hrun.keys_after hon hm).resolve_left fun hnone => ?_
      rw [hbegin] at hnone
      cases hnone
    have hnone : ∀ key ∈ ((l.after ops).shardAt i).keys, key ∈ (∅ : Finset Key) ∨ key ∈ l.calledIn i ops :=
      fun key hm => .inr (hkeys key hm)
    have hcount := (hrun.after hon).sound.length_keys_le hnone
    rw [Finset.card_empty, Nat.zero_add, hlen] at hcount
    exact .inl ⟨hunswept, hkeys, hcount⟩
  · rw [List.append_cons] at hon hlen ⊢
    cases op with
    | enable on => cases hset
    | sweep now => cases hset
    | call scope client now =>
      have hkeys := hrun.keys_since (kept_of_create hl) hon hset rfl
      have hcount := (hrun.after hon).sound.length_keys_le hkeys
      rw [hlen] at hcount
      exact .inr ⟨before, scope, client, now, later, rfl, hset, hunswept,
        fun key hm => (hkeys key hm).imp_left fun hlive => (mem_liveKeys.1 hlive).2, hcount⟩

/-- Two in ten seconds, and a sweep at every third call. The third call comes at 20 and takes the first
client out. Then one more client calls, and two keys are tracked: a call that was left over, and a
client that was alive. -/
theorem tracked_keys_are_bounded_three :
    let rules : Scope → Rule Int := fun _ => { limit := 2, window := 10 }
    let table : Table Scope (Rule Int) := Scope.all.map fun scope => (scope, rules scope)
    let ops : List (Operation Int) :=
      [.call .uploadFile "a" 0, .call .uploadFile "b" 12, .call .uploadFile "b" 20,
       .call .uploadFile "c" 21]
    (∀ scope, table.get? scope = some (rules scope)) ∧ (∀ on, .enable on ∉ ops) ∧
      ∃ l, Limiter.create table true 1 (-3) (fun _ => 0) = .ok l ∧
        ((l.after ops).shardAt 0).keys = [(.uploadFile, "b"), (.uploadFile, "c")] ∧
        ∃ before scope client now later,
          let swept := before ++ [.call scope client now]
          ops = swept ++ later ∧ (l.after before).SetsOff 0 (.call scope client now) ∧
          2 ≤ (l.liveKeys 0 now swept).card + 1 := by
  intro rules table ops
  have hrules : ∀ scope, table.get? scope = some (rules scope) := by
    intro scope
    cases scope <;> rfl
  have hon : ∀ on, .enable on ∉ ops := by simp [ops]
  obtain ⟨l, hl, -, hrun⟩ := tracked_keys_are_bounded table rules hrules 1 (-3) (by decide) (by decide)
    fun _ => 0
  have hkeys : ((l.after ops).shardAt 0).keys = [(.uploadFile, "b"), (.uploadFile, "c")] ∧
      (l.calledIn 0 ops).length = 4 := by
    cases hl
    decide
  refine ⟨hrules, hon, l, hl, hkeys.1, ?_⟩
  have hbounded := hrun ops hon 0
  rw [hkeys.1, hkeys.2] at hbounded
  rcases hbounded with ⟨-, -, htwo⟩ | ⟨before, scope, client, now, later, hops, hset, -, -, hcount⟩
  · exact absurd htwo (by decide)
  · exact ⟨before, scope, client, now, later, hops, hset, hcount⟩

end UploadDepot.RateLimit

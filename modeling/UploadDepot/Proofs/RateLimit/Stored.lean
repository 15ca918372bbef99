/-
What the limiter stores, exactly.

Under exact instants that never go back, with rules that let something
through, every tracked window is a piece of the list of all the instants its
key was allowed at: the end of it, not empty, in order and within the limit.
Between two calls it may hold instants that have left the window. Right after a
call of the key, and after a sweep, it holds those in the window and no other
(`windows_are_exact`).
-/
import UploadDepot.Proofs.RateLimit.Newest
import UploadDepot.Proofs.RateLimit.Shards

namespace UploadDepot.RateLimit

namespace Limiter

/-! ## No window is empty -/

/-- No tracked window is empty. -/
def Filled {τ : Type} (l : Limiter τ) : Prop := ∀ i, ∀ entry ∈ (l.shardAt i).windows, entry.2 ≠ []

section Filled

variable {τ : Type} [Sub τ] [LE τ] [DecidableLE τ] {l : Limiter τ}

/-- A call leaves something in the window: its own instant, or else the instants that it was denied
for. -/
theorem admitted_ne_nil {rule : Rule τ} (hlimit : 1 ≤ rule.limit) (now : τ) (w : List τ) :
    rule.admitted now w ≠ [] := by
  rw [Rule.admitted]
  cases hd : rule.decide now w with
  | allowed => exact List.append_ne_nil_of_right_ne_nil _ (List.cons_ne_nil _ _)
  | denied =>
    intro (hnil : prune rule.window now w = [])
    have hroom : rule.decide now w = .allowed := by
      rw [Rule.decide_eq_allowed, hnil]
      exact Int.lt_of_lt_of_le Int.zero_lt_one hlimit
    rw [hroom] at hd
    cases hd

theorem Filled.perform (hf : l.Filled) (h : l.Sound) (he : l.enabled = true)
    (hlimit : ∀ scope, 1 ≤ (l.rules scope).limit) (op : Operation τ) : (l.perform op).2.Filled := by
  intro i entry hm
  cases op with
  | enable on => exact hf i entry hm
  | sweep now =>
    rw [shardAt_sweep] at hm
    exact (Shard.mem_sweep hm).1
  | call scope client now =>
    rw [h.shardAt_call he] at hm
    split at hm
    · rw [calledShard] at hm
      split at hm
      · exact (Shard.mem_sweep hm).1
      · rcases Shard.mem_call hm with rfl | hm
        · exact admitted_ne_nil (hlimit scope) now _
        · exact hf _ entry hm
    · exact hf i entry hm

end Filled

/-! ## The number of tracked keys -/

section Count

variable {τ : Type} [Sub τ] [LE τ] [DecidableLE τ]

/-- Over any shards, what is counted as taken out and what is left make up what was there. -/
theorem sweep_counts (rules : Scope → Rule τ) (now : τ) (shards : List (Shard τ)) (counted : Nat) :
    ((shards.map fun s => s.sweep rules now).foldl (fun n r => n + r.1) counted) +
        (((shards.map fun s => s.sweep rules now).map (·.2)).flatMap (·.windows)).length =
      counted + (shards.flatMap (·.windows)).length := by
  induction shards generalizing counted with
  | nil => rfl
  | cons s shards ih =>
    have hone := s.sweep_count rules now
    simp only [List.map_cons, List.foldl_cons, List.flatMap_cons, List.length_append] at ih ⊢
    have hrest := ih (counted + (s.sweep rules now).1)
    omega

theorem trackedCount_sweep (l : Limiter τ) (now : τ) :
    (l.sweep now).1 + (l.sweep now).2.trackedCount = l.trackedCount := by
  have hcount := sweep_counts l.rules now l.shards 0
  rw [Nat.zero_add] at hcount
  exact hcount

end Count

/-- Where no window is empty, a key is tracked just if something is kept for it. -/
theorem Filled.isSome_window? {τ : Type} {l : Limiter τ} (hf : l.Filled) (key : Key) :
    (l.window? key).isSome = true ↔ l.kept key ≠ [] := by
  rw [Limiter.kept]
  cases hw : l.window? key with
  | none => simp
  | some w =>
    have hne : w ≠ [] := hf (l.shardOf key) (key, w) (Table.mem_of_get? hw)
    simpa using hne

/-! ## From the beginning of a run -/

/-- A new limiter that is switched on, with rules that let something through. -/
structure Fresh {τ : Type} (l : Limiter τ) : Prop where
  running : l.Running
  empty : ∀ i, (l.shardAt i).windows = []
  limit : ∀ scope, 1 ≤ (l.rules scope).limit

theorem Fresh.kept {τ : Type} {l : Limiter τ} (h : l.Fresh) (key : Key) : l.kept key = [] := by
  rw [kept_eq_window, shard_eq_shardAt, Shard.window, h.empty]
  rfl

section Fresh

variable {τ : Type} [AddCommGroup τ] [LinearOrder τ] {l : Limiter τ} {ops : List (Operation τ)}

theorem Fresh.filled (h : l.Fresh) (hon : ∀ on, .enable on ∉ ops) : (l.after ops).Filled := by
  refine h.running.invariant hon ?_ fun l' h' hrules hf op _ =>
    hf.perform h'.sound h'.enabled (hrules ▸ h.limit) op
  intro i entry hm
  rw [h.empty] at hm
  cases hm

theorem Fresh.bounded (h : l.Fresh) (hon : ∀ on, .enable on ∉ ops) (key : Key) :
    ((l.after ops).kept key).length ≤ (l.rules key.1).limit.toNat := by
  refine h.running.invariant (P := fun l' => (l'.kept key).length ≤ (l.rules key.1).limit.toNat) hon ?_ ?_
  · rw [h.kept]
    exact Nat.zero_le _
  · intro l' h' hrules hle op _
    rw [← hrules] at hle ⊢
    exact h'.sound.kept_length_le h'.enabled hle op

theorem Fresh.suffix (h : l.Fresh) (hon : ∀ on, .enable on ∉ ops) (key : Key) :
    (l.after ops).kept key <:+ l.allowedAt key ops := by
  have hkept := h.running.kept_after hon key
  rwa [h.kept key] at hkept

end Fresh

/-! ## Windows against the log -/

section Log

variable {τ : Type} [AddCommGroup τ] [LinearOrder τ] {l : Limiter τ} {key : Key} {log : List τ}
  {ops : List (Operation τ)}

/-- What is stored of a key is exact at `now`: it is tracked just if one of the instants it was
allowed at is in the window then, and these are what is kept. -/
structure ExactAt (l : Limiter τ) (window now : τ) (key : Key) (log : List τ) : Prop where
  tracked : (l.window? key).isSome = true ↔ ∃ ts ∈ log, now - ts < window
  kept : l.kept key = log.filter (live window now)

theorem Filled.exactAt (hf : l.Filled) {window now : τ}
    (hkept : l.kept key = log.filter (live window now)) : l.ExactAt window now key log := by
  refine ⟨?_, hkept⟩
  rw [hf.isSome_window?, hkept, Ne, List.filter_eq_nil_iff]
  simp [live]

variable [IsOrderedAddMonoid τ]

/-- **One operation.** The window goes on standing for the instants its key was allowed at. -/
theorem Running.standsFor (h : l.Running) {op : Operation τ}
    (hstands : StandsFor (l.rules key.1).window (instants (op :: ops)) (l.kept key) log) :
    StandsFor (l.rules key.1).window (instants ops) ((l.perform op).2.kept key)
      (log ++ (op.allowedAt? key (l.perform op).1).toList) where
  sorted := by
    have hinstants : ((op.allowedAt? key (l.perform op).1).toList ++ instants ops).Sublist
        (instants (op :: ops)) := by
      rw [instants_cons]
      cases hallowed : op.allowedAt? key (l.perform op).1 with
      | none => exact List.sublist_append_right _ _
      | some t =>
        have hprunes : op.prunesAt? l.shardOf key = some t :=
          Operation.prunesAt?_of_allowedAt? hallowed
        rw [Operation.instant?_of_prunesAt? hprunes]
    have hkept := (h.sound.kept_perform h.enabled op key).sublist.append_right (instants ops)
    rw [List.append_assoc] at hkept
    exact hstands.sorted.sublist (hkept.trans ((List.Sublist.refl _).append hinstants))
  live := by
    intro later hm
    have hnow : ∀ now ∈ op.instant?, now ≤ later := by
      intro now hnow
      have hsorted := (List.pairwise_append.1 hstands.sorted).2.1
      rw [instants_cons, hnow] at hsorted
      exact (List.pairwise_cons.1 hsorted).1 later hm
    have hin : later ∈ instants (op :: ops) := ((List.sublist_cons_self op ops).filterMap _).subset hm
    have hpast : ∀ now ∈ op.prunesAt? l.shardOf key, now ≤ later :=
      fun now hn => hnow now (Operation.instant?_of_prunesAt? hn)
    rw [h.sound.filter_kept h.enabled key fun now hn x => not_live_of_expired (hpast now hn),
      hstands.live later hin, List.filter_append]

/-- **A whole run.** -/
theorem Running.standsFor_after (h : l.Running) {later : List (Operation τ)}
    (hon : ∀ on, .enable on ∉ ops)
    (hstands : StandsFor (l.rules key.1).window (instants (ops ++ later)) (l.kept key) log) :
    StandsFor (l.rules key.1).window (instants later) ((l.after ops).kept key)
      (log ++ l.allowedAt key ops) := by
  induction ops generalizing l log with
  | nil =>
    rw [allowedAt_nil, List.append_nil]
    exact hstands
  | cons op ops ih =>
    have hstep := h.perform fun on he => hon on (he ▸ List.mem_cons_self)
    have hrules := (l.alike_perform op).rules
    have hrest := ih hstep (fun on hm => hon on (List.mem_cons_of_mem _ hm))
      (by rw [hrules]; exact h.standsFor hstands)
    rw [hrules, List.append_assoc, ← allowedAt_cons] at hrest
    exact hrest

/-! ## Right after a call or a sweep -/

theorem live_of_mem_prune {window now x : τ} {xs : List τ} (hs : xs.Pairwise (· ≤ ·))
    (hx : x ∈ prune window now xs) : live window now x = true := by
  rw [prune_eq_filter hs] at hx
  exact (List.mem_filter.1 hx).2

/-- Right after a call its window holds only instants that are in the window. -/
theorem Sound.live_called (h : l.Sound) (he : l.enabled = true) {scope : Scope} {client : String}
    (now : τ) (hwindow : 0 < (l.rules scope).window)
    (hs : (l.kept (scope, client)).Pairwise (· ≤ ·)) :
    ∀ x ∈ (l.perform (.call scope client now)).2.kept (scope, client),
      live (l.rules scope).window now x = true := by
  have hadmitted : ∀ x ∈ (l.rules scope).admitted now (l.kept (scope, client)),
      live (l.rules scope).window now x = true := by
    intro x hx
    rw [Rule.admitted] at hx
    split at hx
    · rcases List.mem_append.1 hx with hx | hx
      · exact live_of_mem_prune hs hx
      · rw [List.mem_singleton.1 hx, live, sub_self]
        exact decide_eq_true hwindow
    · exact live_of_mem_prune hs hx
  have hkept := kept_call h (scope, client) now (scope, client)
  simp only [if_true] at hkept
  intro x hx
  simp only [perform, call_eq h.sweeps he] at hx
  rcases hkept with hk | hk
  · exact hadmitted x (hk ▸ hx)
  · exact hadmitted x ((prune_sublist _ _ _).subset (hk ▸ hx))

/-- An operation that leaves only what is in the window at its instant leaves all of that. -/
theorem Running.kept_eq_live (h : l.Running) {op : Operation τ} {now : τ} (hop : op.instant? = some now)
    (hstands : StandsFor (l.rules key.1).window (instants [op]) (l.kept key) log)
    (hlive : ∀ x ∈ (l.perform op).2.kept key, live (l.rules key.1).window now x = true) :
    (l.perform op).2.kept key =
      (log ++ (op.allowedAt? key (l.perform op).1).toList).filter (live (l.rules key.1).window now) := by
  have hpast : ∀ now' ∈ op.prunesAt? l.shardOf key, ∀ x,
      expired (l.rules key.1).window now' x = true → live (l.rules key.1).window now x = false := by
    intro now' hnow' x
    have hsame := hop.symm.trans (Operation.instant?_of_prunesAt? hnow')
    cases hsame
    exact not_live_of_expired le_rfl
  have hin : now ∈ instants [op] := by
    rw [instants_cons, hop]
    exact List.mem_cons_self
  rw [List.filter_append, ← hstands.live now hin, ← h.sound.filter_kept h.enabled key hpast,
    List.filter_eq_self.2 hlive]

/-! ## What is stored -/

/-- What is tracked, where, and against the instants that the keys were allowed at. -/
structure Stored (l : Limiter τ) (rules : Scope → Rule τ) (log : Key → List τ) : Prop where
  /-- A key is tracked in the shard that is its own, and in no other. -/
  placed : l.Placed
  /-- A key is tracked once. -/
  distinct : l.tracked.Distinct
  nonempty : ∀ entry ∈ l.tracked, entry.2 ≠ []
  sorted : ∀ entry ∈ l.tracked, entry.2.Pairwise (· ≤ ·)
  bounded : ∀ entry ∈ l.tracked, (entry.2.length : Int) ≤ (rules entry.1.1).limit
  suffix : ∀ entry ∈ l.tracked, entry.2 <:+ log entry.1

theorem Fresh.standsFor (h : l.Fresh) {later : List (Operation τ)} (hon : ∀ on, .enable on ∉ ops)
    (hmono : (instants (ops ++ later)).Pairwise (· ≤ ·)) (key : Key) :
    StandsFor (l.rules key.1).window (instants later) ((l.after ops).kept key) (l.allowedAt key ops) := by
  have hnone : StandsFor (l.rules key.1).window (instants (ops ++ later)) (l.kept key) [] := by
    rw [h.kept]
    exact StandsFor.nil hmono
  exact h.running.standsFor_after hon hnone

theorem Fresh.stored (h : l.Fresh) (hon : ∀ on, .enable on ∉ ops)
    (hmono : (instants ops).Pairwise (· ≤ ·)) :
    (l.after ops).Stored l.rules fun key => l.allowedAt key ops := by
  have hrun := h.running.after hon
  have hsorted : ∀ key, ((l.after ops).kept key).Pairwise (· ≤ ·) := by
    rw [← List.append_nil ops] at hmono
    exact fun key => (h.standsFor hon hmono key).kept_sorted
  -- What is tracked of a key is the window of the key.
  have hkept : ∀ entry ∈ (l.after ops).tracked, (l.after ops).kept entry.1 = entry.2 := by
    intro entry hm
    obtain ⟨i, hi⟩ := mem_tracked.1 hm
    exact hrun.placed.kept_eq hrun.sound hi
  refine ⟨hrun.placed, hrun.placed.distinct hrun.sound, ?_, ?_, ?_, ?_⟩
  · intro entry hm
    obtain ⟨i, hi⟩ := mem_tracked.1 hm
    exact h.filled hon i entry hi
  · intro entry hm
    exact hkept entry hm ▸ hsorted entry.1
  · intro entry hm
    have hle := h.bounded hon entry.1
    have hpos := h.limit entry.1.1
    rw [← hkept entry hm]
    omega
  · intro entry hm
    exact hkept entry hm ▸ h.suffix hon entry.1

/-- Where an operation leaves only what is in the window at its instant, what is stored is exact. -/
theorem Fresh.exactAt (h : l.Fresh) (key : Key) {op : Operation τ} {now : τ}
    (hon : ∀ on, .enable on ∉ ops ++ [op])
    (hmono : (instants (ops ++ [op])).Pairwise (· ≤ ·)) (hop : op.instant? = some now)
    (hlive : ∀ x ∈ ((l.after ops).perform op).2.kept key, live (l.rules key.1).window now x = true) :
    (l.after (ops ++ [op])).ExactAt (l.rules key.1).window now key (l.allowedAt key (ops ++ [op])) := by
  have hops : ∀ on, .enable on ∉ ops := fun on hm => hon on (List.mem_append_left _ hm)
  have hrules := (l.alike_after ops).rules
  have hstands := h.standsFor hops hmono key
  rw [← hrules] at hlive hstands
  have hexact := (h.running.after hops).kept_eq_live hop hstands hlive
  refine (h.filled hon).exactAt ?_
  rw [after_append, allowedAt_append, allowedAt_cons, allowedAt_nil, List.append_nil, ← hrules]
  exact hexact

end Log

end Limiter

variable {τ : Type} [AddCommGroup τ] [LinearOrder τ] [IsOrderedAddMonoid τ]

open Limiter in
/-- **What is stored is exact**, for every limiter that is switched on, with rules that let something
through, any number of shards, any spread of the keys, any rhythm of the sweeps, and operations at
instants that never go back. Wherever a run stops, every tracked window is a piece of what its key was
allowed at. Where it stops at a call, the window of the key is exact; where it stops at a sweep, all
are, and the sweep has told how many keys it took out. -/
theorem windows_are_exact (table : Table Scope (Rule τ)) (rules : Scope → Rule τ)
    (hrules : ∀ scope, table.get? scope = some (rules scope))
    (hlimit : ∀ scope, 1 ≤ (rules scope).limit) (hwindow : ∀ scope, 0 < (rules scope).window)
    (shards sweepEvery : Int) (hshards : 1 ≤ shards) (hsweep : sweepEvery ≠ 0) (spread : Key → Nat) :
    ∃ l, Limiter.create table true shards sweepEvery spread = .ok l ∧
      ∀ ops : List (Operation τ), (∀ on, .enable on ∉ ops) → (instants ops).Pairwise (· ≤ ·) →
        (l.after ops).Stored rules (fun key => l.allowedAt key ops) ∧
        (∀ before scope client now, ops = before ++ [.call scope client now] →
          (l.after ops).ExactAt (rules scope).window now (scope, client)
            (l.allowedAt (scope, client) ops)) ∧
        ∀ before now, ops = before ++ [.sweep now] →
          ((l.after before).sweep now).2 = l.after ops ∧
          ((l.after before).sweep now).1 + (l.after ops).trackedCount = (l.after before).trackedCount ∧
          ∀ key, (l.after ops).ExactAt (rules key.1).window now key (l.allowedAt key ops) := by
  obtain ⟨l, hl, hrun, rfl, -⟩ := exists_running hrules hshards hsweep spread
  have hfresh : l.Fresh := ⟨hrun, fun i => by rw [shardAt_of_create hl], hlimit⟩
  refine ⟨l, hl, fun ops hon hmono => ⟨hfresh.stored hon hmono, ?_, ?_⟩⟩
  · rintro before scope client now rfl
    have hbefore : ∀ on, .enable on ∉ before := fun on hm => hon on (List.mem_append_left _ hm)
    have hrun := hfresh.running.after hbefore
    have hrules' := (l.alike_after before).rules
    have hsorted := (hfresh.standsFor hbefore hmono (scope, client)).kept_sorted
    have hlive := hrun.sound.live_called hrun.enabled now (hrules' ▸ hwindow scope) hsorted
    rw [hrules'] at hlive
    exact hfresh.exactAt (scope, client) hon hmono rfl hlive
  · rintro before now rfl
    have hbefore : ∀ on, .enable on ∉ before := fun on hm => hon on (List.mem_append_left _ hm)
    have hrun := hfresh.running.after hbefore
    have hafter : ((l.after before).sweep now).2 = l.after (before ++ [.sweep now]) := by
      rw [after_append]
      rfl
    refine ⟨hafter, hafter ▸ trackedCount_sweep _ now, fun key => ?_⟩
    refine hfresh.exactAt key hon hmono rfl fun x hx => ?_
    have hswept : x ∈ prune ((l.after before).rules key.1).window now ((l.after before).kept key) := by
      rw [← kept_sweep hrun.sound]
      exact hx
    rw [← (l.alike_after before).rules]
    exact live_of_mem_prune (hfresh.standsFor hbefore hmono key).kept_sorted hswept

/-- Two in ten seconds. The third call of the one client is denied and the fourth pushes the first
instant out; a sweep at 16 finds nothing of the other client in the window, and takes its key out. -/
theorem windows_are_exact_two :
    let rules : Scope → Rule Int := fun _ => { limit := 2, window := 10 }
    let table : Table Scope (Rule Int) := Scope.all.map fun scope => (scope, rules scope)
    let before : List (Operation Int) :=
      [.call .uploadFile "a" 0, .call .uploadFile "a" 4, .call .uploadFile "b" 5,
       .call .uploadFile "a" 9, .call .uploadFile "a" 11]
    let ops := before ++ [.sweep 16]
    (∀ scope, table.get? scope = some (rules scope)) ∧ (∀ scope, 1 ≤ (rules scope).limit) ∧
      (∀ scope, 0 < (rules scope).window) ∧ (∀ on, .enable on ∉ ops) ∧
      (instants ops).Pairwise (· ≤ ·) ∧
      ∃ l, Limiter.create table true 2 3 (fun key => if key.2 = "a" then 0 else 1) = .ok l ∧
        (l.after ops).Stored rules (fun key => l.allowedAt key ops) ∧
        (l.after before).kept (.uploadFile, "a") = [4, 11] ∧
        ((l.after before).sweep 16).1 = 1 ∧ (l.after ops).window? (.uploadFile, "b") = none ∧
        (l.after ops).kept (.uploadFile, "a") = [11] := by
  intro rules table before ops
  have hrules : ∀ scope, table.get? scope = some (rules scope) := by
    intro scope
    cases scope <;> rfl
  have hlimit : ∀ scope, 1 ≤ (rules scope).limit := fun _ => by decide
  have hwindow : ∀ scope, 0 < (rules scope).window := fun _ => by decide
  have hbefore : ∀ on, .enable on ∉ before := by simp [before]
  have hon : ∀ on, .enable on ∉ ops := by simp [ops, before]
  have hmono : (instants ops).Pairwise (· ≤ ·) := by decide
  obtain ⟨l, hl, hrun⟩ := windows_are_exact table rules hrules hlimit hwindow 2 3 (by decide)
    (by decide) (fun key => if key.2 = "a" then 0 else 1)
  obtain ⟨hstored, -, hsweep⟩ := hrun ops hon hmono
  obtain ⟨-, hcall, -⟩ := hrun before hbefore (by decide)
  obtain ⟨-, -, hswept⟩ := hsweep before 16 rfl
  have hlog : l.allowedAt (.uploadFile, "a") ops = [0, 4, 11] ∧
      l.allowedAt (.uploadFile, "b") ops = [5] := by
    cases hl
    decide
  refine ⟨hrules, hlimit, hwindow, hon, hmono, l, hl, hstored, ?_, ?_, ?_, ?_⟩
  · rw [(hcall (before.take 4) .uploadFile "a" 11 rfl).kept]
    cases hl
    decide
  · cases hl
    decide
  · refine Option.not_isSome_iff_eq_none.1 (mt (hswept (.uploadFile, "b")).tracked.1 ?_)
    rw [hlog.2]
    decide
  · rw [(hswept (.uploadFile, "a")).kept, hlog.1]
    decide

end UploadDepot.RateLimit

/-
How many calls of a key are allowed in one window of time.

The instants of a run need not come in order: a caller reads the clock first
and waits for its shard afterwards. A call at an early instant that comes
after one at a late instant is a straggler: what the late one pruned is no
longer there to be counted. Only what can prune the window of the key counts
as a late one: a sweep, or a call to the shard of the key.
`at_most_limit_in_window`: in every interval as long as the window, without
stragglers there are no more allowed calls than the limit, and there are none
if the instants never go back.
`straggler_over_admitted` has one straggler and one allowed call too many.
-/
import Mathlib.Algebra.Order.Group.Int
import UploadDepot.Proofs.RateLimit.Run
import UploadDepot.Proofs.RateLimit.Window

namespace UploadDepot.RateLimit

variable {τ : Type} [AddCommGroup τ] [LinearOrder τ]

/-- The half-open interval from `start` that is as long as the window. -/
def within (window start ts : τ) : Bool := decide (start ≤ ts) && decide (ts < start + window)

theorem within_iff {window start ts : τ} :
    within window start ts = true ↔ start ≤ ts ∧ ts < start + window := by
  simp [within]

/-- The instant of an operation, if it is a call of the key that was allowed. -/
def Operation.allowedAt? (key : Key) :
    Operation τ → Option (Except CallFault Decision) → Option τ
  | .call scope client now, some (.ok .allowed) => if (scope, client) = key then some now else none
  | _, _ => none

section Allowed

omit [AddCommGroup τ] [LinearOrder τ]

variable {key : Key} {answer : Option (Except CallFault Decision)}

/-- Only a call of the key is an allowed call of the key. -/
theorem Operation.eq_call_of_allowedAt? {op : Operation τ} {t : τ}
    (h : op.allowedAt? key answer = some t) : op = .call key.1 key.2 t := by
  unfold Operation.allowedAt? at h
  split at h
  · split at h
    · next hkey =>
      cases hkey
      cases h
      rfl
    · cases h
  · cases h

theorem Operation.allowedAt?_call_other {scope : Scope} {client : String} (h : key ≠ (scope, client))
    (now : τ) : (Operation.call scope client now).allowedAt? key answer = none := by
  refine Option.eq_none_iff_forall_ne_some.2 fun t ht => h ?_
  cases Operation.eq_call_of_allowedAt? ht
  rfl

end Allowed

/-- The instant at which an operation may take something out of the window of a key: that of a sweep, or
of a call to the shard of the key, which prunes the window of its own key and may set off a sweep. -/
def Operation.prunesAt? (shardOf : Key → Nat) (key : Key) : Operation τ → Option τ
  | .call scope client now => if shardOf (scope, client) = shardOf key then some now else none
  | .sweep now => some now
  | .enable _ => none

section Prunes

omit [AddCommGroup τ] [LinearOrder τ]

variable {shardOf : Key → Nat} {key : Key} {op : Operation τ} {t : τ}

theorem Operation.instant?_of_prunesAt? (h : op.prunesAt? shardOf key = some t) :
    op.instant? = some t := by
  cases op with
  | call scope client now =>
    simp only [Operation.prunesAt?, Option.ite_none_right_eq_some] at h
    exact h.2
  | sweep now => exact h
  | enable on => cases h

/-- A call of the key is one to its shard. -/
theorem Operation.prunesAt?_of_allowedAt? {answer : Option (Except CallFault Decision)}
    (h : op.allowedAt? key answer = some t) : op.prunesAt? shardOf key = some t := by
  rw [Operation.eq_call_of_allowedAt? h, Operation.prunesAt?, if_pos rfl]

end Prunes

/-- An operation at or after the end of the interval that may prune the window of the key, and then a call
of the key inside the interval. -/
def Straggler (shardOf : Key → Nat) (key : Key) (window start : τ) (op later : Operation τ) : Prop :=
  (∃ t ∈ op.prunesAt? shardOf key, start + window ≤ t) ∧
    ∃ now, later = .call key.1 key.2 now ∧ within window start now = true

namespace Limiter

/-- The instants at which the calls of a key were allowed in a run. -/
def allowedAt (l : Limiter τ) (key : Key) (ops : List (Operation τ)) : List τ :=
  (ops.zip (l.answers ops)).filterMap fun p => p.1.allowedAt? key p.2

@[simp] theorem allowedAt_nil (l : Limiter τ) (key : Key) : l.allowedAt key [] = [] := rfl

theorem allowedAt_cons (l : Limiter τ) (key : Key) (op : Operation τ) (ops : List (Operation τ)) :
    l.allowedAt key (op :: ops) =
      (op.allowedAt? key (l.perform op).1).toList ++ (l.perform op).2.allowedAt key ops := by
  rw [allowedAt, answers, List.zip_cons_cons, List.filterMap_cons]
  cases op.allowedAt? key (l.perform op).1 <;> rfl

theorem allowedAt_append (l : Limiter τ) (key : Key) (ops ops' : List (Operation τ)) :
    l.allowedAt key (ops ++ ops') = l.allowedAt key ops ++ (l.after ops).allowedAt key ops' := by
  induction ops generalizing l with
  | nil => rfl
  | cons op ops ih =>
    rw [List.cons_append, allowedAt_cons, allowedAt_cons, ih, List.append_assoc]
    rfl

theorem mem_allowedAt {l : Limiter τ} {key : Key} {ops : List (Operation τ)} {t : τ}
    (h : t ∈ l.allowedAt key ops) : .call key.1 key.2 t ∈ ops := by
  obtain ⟨⟨op, answer⟩, hp, ht⟩ := List.mem_filterMap.1 h
  rw [← Operation.eq_call_of_allowedAt? ht]
  exact (List.of_mem_zip hp).1

omit [AddCommGroup τ] [LinearOrder τ] in
/-- Whether there is a limiter does not depend on the rhythm of its sweeps. -/
theorem create_any_sweeps {rules : Table Scope (Rule τ)}
    (hrules : ∀ scope, (rules.get? scope).isSome) (enabled : Bool) {shards : Int}
    (hshards : 1 ≤ shards) (sweepEvery : Int) (spread : Key → Nat) :
    ∃ l, create rules enabled shards sweepEvery spread = .ok l ∧ l.enabled = enabled ∧
      l.sweepEvery = sweepEvery := by
  obtain ⟨thread, ht⟩ := Option.isSome_iff_exists.1 (hrules .createThread)
  obtain ⟨reply, hr⟩ := Option.isSome_iff_exists.1 (hrules .createReply)
  obtain ⟨upload, hu⟩ := Option.isSome_iff_exists.1 (hrules .uploadFile)
  simp only [create, ht, hr, hu, if_neg (not_lt.2 hshards)]
  exact ⟨_, rfl, rfl, rfl⟩

/-- With a sweep every zero calls no call is answered. -/
theorem allowedAt_of_no_sweeps {l : Limiter τ} (hs : l.sweepEvery = 0) (he : l.enabled = true)
    (key : Key) {ops : List (Operation τ)} (hon : ∀ on, .enable on ∉ ops) :
    l.allowedAt key ops = [] := by
  induction ops generalizing l with
  | nil => rfl
  | cons op ops ih =>
    have hrest : ∀ on, .enable on ∉ ops := fun on hm => hon on (List.mem_cons_of_mem _ hm)
    rw [allowedAt_cons]
    cases op with
    | call scope client now =>
      simp only [perform, call, he, hs, Bool.true_eq_false, if_false, if_true]
      rw [ih rfl rfl hrest]
      rfl
    | sweep now => exact ih hs he hrest
    | enable on => exact absurd List.mem_cons_self (hon on)

/-- What an operation leaves as it is, unless it is the switch. -/
theorem Sound.step {l : Limiter τ} (h : l.Sound) (he : l.enabled = true) {op : Operation τ}
    (hon : ∀ on, op ≠ .enable on) :
    (l.perform op).2.Sound ∧ (l.perform op).2.enabled = true ∧ (l.perform op).2.rules = l.rules := by
  cases op with
  | call scope client now =>
    simp only [perform, call_eq h.sweeps he]
    exact ⟨h.call _ now, he, rfl⟩
  | sweep now => exact ⟨h.sweep now, he, rfl⟩
  | enable on => exact absurd rfl (hon on)

/-- A call that was allowed found room in the window of its key. -/
theorem Sound.room {l : Limiter τ} (h : l.Sound) (he : l.enabled = true) {key : Key}
    {op : Operation τ} {now : τ} (hallowed : op.allowedAt? key (l.perform op).1 = some now) :
    ((prune (l.rules key.1).window now (l.kept key)).length : Int) < (l.rules key.1).limit := by
  cases op with
  | call scope client at_ =>
    simp only [perform, call_eq h.sweeps he] at hallowed
    cases hd : (l.rules scope).decide at_ (l.kept (scope, client)) with
    | denied =>
      rw [hd] at hallowed
      cases hallowed
    | allowed =>
      simp only [hd, Operation.allowedAt?] at hallowed
      split at hallowed
      · next hkey =>
        cases hallowed
        subst hkey
        exact Rule.decide_eq_allowed.1 hd
      · cases hallowed
  | sweep at_ => cases hallowed
  | enable on => cases hallowed

/-- **One operation**, as a class of instants shows it of which none has left the window then: the
window of a key gets the instant at which the key was allowed, and loses none. -/
theorem Sound.filter_kept {l : Limiter τ} (h : l.Sound) (he : l.enabled = true) (key : Key)
    {op : Operation τ} {p : τ → Bool}
    (hp : ∀ now ∈ op.prunesAt? l.shardOf key, ∀ x,
      expired (l.rules key.1).window now x = true → p x = false) :
    ((l.perform op).2.kept key).filter p =
      (l.kept key).filter p ++ (op.allowedAt? key (l.perform op).1).toList.filter p := by
  cases op with
  | enable on => exact (List.append_nil _).symm
  | sweep now =>
    show ((l.sweep now).2.kept key).filter p = (l.kept key).filter p ++ []
    rw [kept_sweep h, filter_prune (hp now rfl), List.append_nil]
  | call scope client now =>
    simp only [perform, call_eq h.sweeps he]
    by_cases hshard : l.shardOf (scope, client) = l.shardOf key
    case neg =>
      have hkey : key ≠ (scope, client) := fun hk => hshard (hk ▸ rfl)
      rw [kept_putShard_other _ (Ne.symm hshard), Operation.allowedAt?_call_other hkey]
      exact (List.append_nil _).symm
    have hprune := filter_prune (hp now (if_pos hshard))
    -- A sweep set off by the call takes out nothing of the class either.
    have hkept : ((l.putShard (scope, client) (l.calledShard (scope, client) now)).kept key).filter p =
        (if key = (scope, client) then (l.rules scope).admitted now (l.kept (scope, client))
          else l.kept key).filter p := by
      rcases kept_call h (scope, client) now key with hk | hk
      · rw [hk]
      · rw [hk, hprune]
    rw [hkept]
    by_cases hkey : key = (scope, client)
    · subst hkey
      rw [if_pos rfl, Rule.admitted]
      cases hd : (l.rules scope).decide now (l.kept (scope, client)) with
      | allowed =>
        simp only [Operation.allowedAt?, if_true, List.filter_append, hprune, Option.toList_some]
      | denied => simp only [Operation.allowedAt?, hprune, Option.toList_none, List.filter_nil, List.append_nil]
    · rw [if_neg hkey, Operation.allowedAt?_call_other hkey]
      exact (List.append_nil _).symm

end Limiter

/-! ## Until the end of the interval -/

variable [IsOrderedAddMonoid τ] {window start now : τ}

/-- What has left the window before the end of the interval lies before the interval. -/
theorem not_within_of_expired (h : now < start + window) {x : τ} (hx : expired window now x = true) :
    within window start x = false := by
  rw [Bool.eq_false_iff, ne_eq, within_iff]
  rintro ⟨hle, -⟩
  have hgone : window ≤ now - x := of_decide_eq_true hx
  have hback : start + window ≤ now :=
    (add_le_add_left hle window).trans (le_sub_iff_add_le'.1 hgone)
  exact not_lt.2 hback h

/-- Of the interval, the window of a key still holds every allowed call there was in it, and these
are not too many. -/
structure Tracks (key : Key) (start : τ) (l : Limiter τ) (log : List τ) : Prop where
  sound : l.Sound
  enabled : l.enabled = true
  kept : (l.kept key).filter (within (l.rules key.1).window start) =
    log.filter (within (l.rules key.1).window start)
  bound : log.countP (within (l.rules key.1).window start) ≤ (l.rules key.1).limit.toNat

namespace Tracks

variable {key : Key} {l : Limiter τ} {log : List τ}

/-- Room in the pruned window is room in the interval. -/
theorem record (h : Tracks key start l log) (hlt : now < start + (l.rules key.1).window)
    (hroom : ((prune (l.rules key.1).window now (l.kept key)).length : Int) < (l.rules key.1).limit) :
    (log ++ [now]).countP (within (l.rules key.1).window start) ≤ (l.rules key.1).limit.toNat := by
  have hcount : log.countP (within (l.rules key.1).window start) ≤
      (prune (l.rules key.1).window now (l.kept key)).length := by
    rw [List.countP_eq_length_filter, ← h.kept,
      ← filter_prune (fun _ => not_within_of_expired hlt) (l.kept key)]
    exact List.length_filter_le _ _
  have hone : [now].countP (within (l.rules key.1).window start) ≤ 1 := List.countP_le_length
  rw [List.countP_append]
  omega

/-- An operation that prunes nothing of the window of the key after the end of the interval. -/
theorem step (h : Tracks key start l log) {op : Operation τ} (hon : ∀ on, op ≠ .enable on)
    (hlt : ∀ now ∈ op.prunesAt? l.shardOf key, now < start + (l.rules key.1).window) :
    Tracks key start (l.perform op).2 (log ++ (op.allowedAt? key (l.perform op).1).toList) := by
  obtain ⟨hsound, henabled, hrules⟩ := h.sound.step h.enabled hon
  have hkept := h.sound.filter_kept h.enabled key fun now hnow x => not_within_of_expired (hlt now hnow)
  refine ⟨hsound, henabled, ?_, ?_⟩
  · rw [hrules, hkept, h.kept, List.filter_append]
  · rw [hrules]
    cases hallowed : op.allowedAt? key (l.perform op).1 with
    | none =>
      rw [Option.toList_none, List.append_nil]
      exact h.bound
    | some now =>
      have hroom := h.sound.room h.enabled hallowed
      exact h.record (hlt now (Operation.prunesAt?_of_allowedAt? hallowed)) hroom

/-- **A whole run.** What comes after the end of the interval is not in it, so that the bound stands
from then on. -/
theorem run {ops : List (Operation τ)} (h : Tracks key start l log)
    (hon : ∀ on, .enable on ∉ ops)
    (hno : ops.Pairwise fun op later =>
      ¬ Straggler l.shardOf key (l.rules key.1).window start op later) :
    (log ++ l.allowedAt key ops).countP (within (l.rules key.1).window start) ≤
      (l.rules key.1).limit.toNat := by
  induction ops generalizing l log with
  | nil =>
    rw [Limiter.allowedAt_nil, List.append_nil]
    exact h.bound
  | cons op ops ih =>
    obtain ⟨hlater, hrest⟩ := List.pairwise_cons.1 hno
    have hon' : ∀ on, .enable on ∉ ops := fun on hm => hon on (List.mem_cons_of_mem _ hm)
    by_cases hend : ∃ t ∈ op.prunesAt? l.shardOf key, start + (l.rules key.1).window ≤ t
    · -- No call of the key in the interval is to come, and this operation is not one.
      have hnone : (l.allowedAt key (op :: ops)).countP (within (l.rules key.1).window start) = 0 := by
        refine List.countP_eq_zero.2 fun t ht hin => ?_
        rcases List.mem_cons.1 (Limiter.mem_allowedAt ht) with hop | hm
        · obtain ⟨_, hprunes, hle⟩ := hend
          rw [← hop] at hprunes
          cases Operation.instant?_of_prunesAt? hprunes
          exact not_lt.2 hle (within_iff.1 hin).2
        · exact hlater _ hm ⟨hend, t, rfl, hin⟩
      rw [List.countP_append, hnone, Nat.add_zero]
      exact h.bound
    · have hswitch : ∀ on, op ≠ .enable on := fun on he => hon on (he ▸ List.mem_cons_self)
      have hlt : ∀ now ∈ op.prunesAt? l.shardOf key, now < start + (l.rules key.1).window :=
        fun now hnow => not_le.1 fun hle => hend ⟨now, hnow, hle⟩
      have halike := l.alike_perform op
      have hstep := h.step hswitch hlt
      rw [Limiter.allowedAt_cons, ← List.append_assoc]
      rw [← funext halike.shardOf, ← halike.rules] at hrest
      rw [← halike.rules]
      exact ih hstep hon' hrest

end Tracks

omit [IsOrderedAddMonoid τ] in
/-- If the instants never go back, there are no stragglers. -/
theorem no_straggler_of_sorted {ops : List (Operation τ)} (hmono : (instants ops).Pairwise (· ≤ ·))
    (shardOf : Key → Nat) (key : Key) (window start : τ) :
    ops.Pairwise fun op later => ¬ Straggler shardOf key window start op later := by
  refine (List.pairwise_filterMap.1 hmono).imp fun hle => ?_
  rintro ⟨⟨t, ht, hend⟩, now, rfl, hin⟩
  have hinstant := Operation.instant?_of_prunesAt? ht
  exact not_lt.2 (hend.trans (hle t hinstant now rfl)) (within_iff.1 hin).2

/-- **No more than the limit in a window**, for every key of a limiter that is switched on, any
number of shards, any spread of the keys and any rhythm of the sweeps. In an interval as long as the
window there are no more allowed calls of the key than the limit, if no call of the key in it comes
after a sweep past its end, or after a call past its end to the same shard; and so in every interval, if
the instants never go back. -/
theorem at_most_limit_in_window (table : Table Scope (Rule τ)) (rules : Scope → Rule τ)
    (hrules : ∀ scope, table.get? scope = some (rules scope)) (shards sweepEvery : Int)
    (hshards : 1 ≤ shards) (spread : Key → Nat) (ops : List (Operation τ))
    (hon : ∀ on, .enable on ∉ ops) (key : Key) :
    ∃ l, Limiter.create table true shards sweepEvery spread = .ok l ∧
      (∀ start,
        (ops.Pairwise fun op later =>
          ¬ Straggler l.shardOf key (rules key.1).window start op later) →
        (l.allowedAt key ops).countP (within (rules key.1).window start) ≤
          (rules key.1).limit.toNat) ∧
      ((instants ops).Pairwise (· ≤ ·) → ∀ start,
        (l.allowedAt key ops).countP (within (rules key.1).window start) ≤
          (rules key.1).limit.toNat) := by
  have hsome : ∀ scope, (table.get? scope).isSome := fun scope => by rw [hrules scope]; rfl
  have hbound : ∃ l, Limiter.create table true shards sweepEvery spread = .ok l ∧
      ∀ start,
        (ops.Pairwise fun op later =>
          ¬ Straggler l.shardOf key (rules key.1).window start op later) →
        (l.allowedAt key ops).countP (within (rules key.1).window start) ≤
          (rules key.1).limit.toNat := by
    by_cases hsweep : sweepEvery = 0
    · obtain ⟨l, hl, henabled, hnever⟩ := Limiter.create_any_sweeps hsome true hshards sweepEvery spread
      refine ⟨l, hl, fun start _ => ?_⟩
      rw [Limiter.allowedAt_of_no_sweeps (hnever.trans hsweep) henabled key hon]
      exact Nat.zero_le _
    · obtain ⟨l, hl, hsound, henabled, htable, hkept⟩ :=
        Limiter.create_ok hsome true hshards hsweep spread
      have hrule : l.rules = rules :=
        funext fun scope => Option.some.inj ((htable scope).symm.trans (hrules scope))
      refine ⟨l, hl, fun start hno => ?_⟩
      subst hrule
      have htracks : Tracks key start l [] :=
        ⟨hsound, henabled, by rw [hkept key], Nat.zero_le _⟩
      exact htracks.run hon hno
  obtain ⟨l, hl, hl'⟩ := hbound
  exact ⟨l, hl, hl', fun hmono start => hl' start (no_straggler_of_sorted hmono _ key _ start)⟩

/-- Two in ten seconds, at instants that go back and forth: the third one in the first ten seconds
is denied. The late one at twelve changes nothing for them, and neither does that of another shard at
eleven, which comes in between. -/
theorem at_most_limit_in_window_two :
    let rules : Scope → Rule Int := fun _ => { limit := 2, window := 10 }
    let table : Table Scope (Rule Int) := Scope.all.map fun scope => (scope, rules scope)
    let ops : List (Operation Int) :=
      [.call .uploadFile "a" 4, .call .uploadFile "b" 11, .call .uploadFile "a" 0, .sweep 3,
       .call .uploadFile "a" 9, .call .uploadFile "a" 12]
    (∀ scope, table.get? scope = some (rules scope)) ∧ (∀ on, .enable on ∉ ops) ∧
      ∃ l, Limiter.create table true 2 3 (fun key => if key.2 = "a" then 0 else 1) = .ok l ∧
        (ops.Pairwise fun op later => ¬ Straggler l.shardOf (.uploadFile, "a") 10 0 op later) ∧
        l.allowedAt (.uploadFile, "a") ops = [4, 0] ∧
        (l.allowedAt (.uploadFile, "a") ops).countP (within 10 0) ≤ 2 := by
  intro rules table ops
  have hrules : ∀ scope, table.get? scope = some (rules scope) := by
    intro scope
    cases scope <;> rfl
  have hon : ∀ on, .enable on ∉ ops := by simp [ops]
  obtain ⟨l, hl, hbound, -⟩ :=
    at_most_limit_in_window table rules hrules 2 3 (by decide) _ ops hon (.uploadFile, "a")
  have hshard : l.shardOf = fun key => (if key.2 = "a" then 0 else 1) % 2 := by
    cases hl
    rfl
  have hno : ops.Pairwise fun op later => ¬ Straggler l.shardOf (.uploadFile, "a") 10 0 op later := by
    simp [ops, Straggler, Operation.prunesAt?, hshard, within]
  refine ⟨hrules, hon, l, hl, hno, ?_, hbound 0 hno⟩
  cases hl
  decide

/-- The clock is read before the shard is waited for. Of two calls in ten seconds, both are spent at
zero; the call at ten prunes them; the call at nine then finds one instant only, and is the third to
be allowed between zero and ten. -/
theorem straggler_over_admitted :
    let rule : Rule Int := { limit := 2, window := 10 }
    let table : Table Scope (Rule Int) := Scope.all.map fun scope => (scope, rule)
    let ops : List (Operation Int) := [0, 0, 10, 9].map fun now => .call .uploadFile "a" now
    ∃ l, Limiter.create table true 1 1024 (fun _ => 0) = .ok l ∧ l.enabled = true ∧
      l.rules .uploadFile = rule ∧
      l.allowedAt (.uploadFile, "a") ops = [0, 0, 10, 9] ∧
      ¬ ((l.allowedAt (.uploadFile, "a") ops).countP (within rule.window 0) : Int) ≤ rule.limit := by
  intro rule table ops
  exact ⟨_, rfl, rfl, rfl, by decide, by decide⟩

end UploadDepot.RateLimit

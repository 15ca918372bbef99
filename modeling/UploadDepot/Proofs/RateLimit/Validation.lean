/-
What the check of the rules at the start makes sure of, and what it lets
through.

A rule that has passed has a limit of at least one, and a window that is not
at most zero. That is a finite double above zero, or else one that is not a
number or is endless; whole numbers of seconds are never of the second kind
(`Seconds.passed`). From then on an admission fails only where a client is
denied under such a window, which has no whole seconds that the client could
be told (`validated_rules_answer`).
-/
import UploadDepot.Proofs.Number.Binary64
import UploadDepot.Proofs.RateLimit.Admission
import UploadDepot.Settings

namespace UploadDepot

open Binary64 (parts NotWhole)
open RateLimit (Scope Rule Key Gate Limiter Operation Decision AdmissionFault CallFault WholeSeconds)

/-! ## Steps that may fail -/

section Steps

variable {ε α β : Type}

theorem bind_eq_ok {x : Except ε α} {f : α → Except ε β} {b : β} :
    (x >>= f) = .ok b ↔ ∃ a, x = .ok a ∧ f a = .ok b := by
  cases x with
  | error e => exact ⟨fun h => (nomatch h), fun ⟨_, h, _⟩ => (nomatch h)⟩
  | ok a => exact ⟨fun h => ⟨a, rfl, h⟩, fun ⟨_, ha, h⟩ => Except.ok.inj ha ▸ h⟩

/-- The first failure ends a loop, so one that gets through has met none. -/
theorem forM_eq_ok {step : α → Except ε Unit} {xs : List α} :
    xs.forM step = .ok () ↔ ∀ x ∈ xs, step x = .ok () := by
  induction xs with
  | nil => exact ⟨fun _ _ hm => (nomatch hm), fun _ => rfl⟩
  | cons x xs ih =>
    rw [List.forall_mem_cons, ← ih]
    exact bind_eq_ok.trans ⟨fun ⟨_, hx, hxs⟩ => ⟨hx, hxs⟩, fun ⟨hx, hxs⟩ => ⟨(), hx, hxs⟩⟩

end Steps

/-! ## The check of the rules -/

namespace Settings

/-- The limit that the settings give a scope. -/
def limitFor (s : Settings) : Scope → Int
  | .createThread => s.threadLimit
  | .createReply => s.replyLimit
  | .uploadFile => s.uploadLimit

/-- The window that the settings give a scope. -/
def windowFor (s : Settings) : Scope → Seconds
  | .createThread => s.threadWindow
  | .createReply => s.replyWindow
  | .uploadFile => s.uploadWindow

end Settings

theorem checkRule_eq_ok {scope : Scope} {rule : Rule Float} :
    checkRule scope rule = .ok () ↔ 1 ≤ rule.limit ∧ ¬ rule.window ≤ 0 := by
  rw [checkRule]
  split
  · next hlimit => exact ⟨nofun, fun h => absurd h.1 (Int.not_le.2 hlimit)⟩
  · next hlimit =>
    split
    · next hwindow => exact ⟨nofun, fun h => absurd hwindow h.2⟩
    · next hwindow => exact ⟨fun _ => ⟨Int.not_lt.1 hlimit, hwindow⟩, fun _ => rfl⟩

variable {s : Settings} {table : Table Scope (Rule Float)}

/-- A table that the settings give has a rule for every scope, and every rule has passed. -/
theorem Settings.rules_get? (h : s.rules = .ok table) (scope : Scope) :
    ∃ x, (s.windowFor scope).toDouble = .ok x ∧
      table.get? scope = some { limit := s.limitFor scope, window := x } ∧
      1 ≤ s.limitFor scope ∧ ¬ x ≤ 0 := by
  obtain ⟨thread, hthread, h⟩ := bind_eq_ok.1 h
  obtain ⟨reply, hreply, h⟩ := bind_eq_ok.1 h
  obtain ⟨upload, hupload, h⟩ := bind_eq_ok.1 h
  obtain ⟨_, hcheck, htable⟩ := bind_eq_ok.1 h
  cases htable
  have hpassed := forM_eq_ok.1 hcheck
  simp only [List.forall_mem_cons, checkRule_eq_ok] at hpassed
  obtain ⟨hthread', hreply', hupload', -⟩ := hpassed
  cases scope with
  | createThread => exact ⟨thread, hthread, rfl, hthread'⟩
  | createReply => exact ⟨reply, hreply, rfl, hreply'⟩
  | uploadFile => exact ⟨upload, hupload, rfl, hupload'⟩

/-- A window that has passed is finite, unless the setting itself is a double that is not. -/
theorem Seconds.passed {window : Seconds} {x : Float} (h : window.toDouble = .ok x) (hpos : ¬ x ≤ 0) :
    (∃ magnitude exponent, parts x = .finite false magnitude exponent) ∨
      window = .double x ∧ (parts x = .nan ∨ parts x = .infinite false) := by
  have hdouble : (∀ negative magnitude exponent, parts x ≠ .finite negative magnitude exponent) →
      window = .double x := by
    intro hnot
    cases window with
    | double y =>
      cases h
      rfl
    | whole n =>
      rw [Seconds.toDouble] at h
      split at h
      · next hnearest =>
        cases h
        obtain ⟨negative, magnitude, exponent, hparts⟩ := Binary64.parts_of_ofInt? hnearest
        exact absurd hparts (hnot negative magnitude exponent)
      · cases h
  rcases (Binary64.not_le_zero_iff x).1 hpos with hnan | hinfinite | ⟨magnitude, exponent, -, hfinite⟩
  · exact .inr ⟨hdouble fun _ _ _ => hnan ▸ nofun, .inl hnan⟩
  · exact .inr ⟨hdouble fun _ _ _ => hinfinite ▸ nofun, .inr hinfinite⟩
  · exact .inl ⟨magnitude, exponent, hfinite⟩

/-! ## Admissions -/

/-- What a client is told, by what the limiter has answered. -/
inductive Settings.Told (s : Settings) (sweepEvery : Int) (scope : Scope) :
    Except CallFault Decision → Except AdmissionFault Unit → Prop
  | admitted : s.Told sweepEvery scope (.ok .allowed) (.ok ())
  | limited {x : Float} {retryAfter : Int} : (s.windowFor scope).toDouble = .ok x →
      Binary64.truncate x = .ok retryAfter → 0 ≤ retryAfter →
      s.Told sweepEvery scope (.ok .denied) (.error (.limited { scope, retryAfter }))
  /-- Denied under a window that is not a number. -/
  | notNumber {x : Float} : s.windowFor scope = .double x → parts x = .nan →
      s.Told sweepEvery scope (.ok .denied) (.error (.window .nan))
  /-- Denied under a window without an end. -/
  | endless {x : Float} : s.windowFor scope = .double x → parts x = .infinite false →
      s.Told sweepEvery scope (.ok .denied) (.error (.window .infinite))
  | noSweeps : sweepEvery = 0 →
      s.Told sweepEvery scope (.error .sweepEveryZero) (.error (.call .sweepEveryZero))

/-- A denial under a rule that has passed. -/
theorem Settings.told_denied {scope : Scope} {x : Float} (sweepEvery limit : Int)
    (h : (s.windowFor scope).toDouble = .ok x) (hpos : ¬ x ≤ 0) :
    s.Told sweepEvery scope (.ok .denied)
      (({ limit, window := x } : Rule Float).reply scope (.ok .denied)) := by
  have hseconds : WholeSeconds.wholeSeconds x = Binary64.truncate x := rfl
  rw [Rule.reply, hseconds]
  rcases Seconds.passed h hpos with ⟨magnitude, exponent, hfinite⟩ | ⟨hdouble, hnan | hinfinite⟩
  · obtain ⟨whole, hwhole, hnonneg⟩ := Binary64.truncate_of_finite hfinite
    rw [hwhole]
    exact .limited h hwhole hnonneg
  · rw [Binary64.truncate_of_nan hnan]
    exact .notNumber hdouble hnan
  · rw [Binary64.truncate_of_infinite hinfinite]
    exact .endless hdouble hinfinite

/-- **Admissions under rules that have passed the check**, for all settings that give a table of rules,
any number of shards, any rhythm of the sweeps, and any run, whatever the instants. A client is
admitted, or it is told a number of seconds that is not below zero, and that is the whole part of the
window. Else it was denied under a window that the settings give as a double, which is not a number or
without an end; or no sweeps were asked for, so that the calls cannot be divided. -/
theorem validated_rules_answer (s : Settings) (table : Table Scope (Rule Float))
    (hrules : s.rules = .ok table) (enabled : Bool) (shards sweepEvery : Int) (hshards : 1 ≤ shards)
    (spread : Key → Nat) :
    ∃ l, Limiter.create table enabled shards sweepEvery spread = .ok l ∧
      ∀ (metrics : Metrics) (ops : List (Operation Float)) (scope : Scope) (client : String) (now : Float),
        let reached := ({ limiter := l, metrics } : Gate Float).after ops
        s.Told sweepEvery scope (reached.limiter.call scope client now).1
          (reached.enter scope client now).1.value := by
  have hpassed := Settings.rules_get? hrules
  have hsome : ∀ scope, (table.get? scope).isSome := fun scope => by
    obtain ⟨x, -, hget, -⟩ := hpassed scope
    rw [hget]
    rfl
  obtain ⟨l, hl, -, hrhythm⟩ := Limiter.create_any_sweeps hsome enabled hshards sweepEvery spread
  refine ⟨l, hl, fun metrics ops scope client now => ?_⟩
  intro reached
  have hreached : reached.limiter = l.after ops := Gate.limiter_after _ ops
  have halike := l.alike_after ops
  obtain ⟨x, hdouble, hget, -, hpos⟩ := hpassed scope
  have hrule : l.rules scope = { limit := s.limitFor scope, window := x } :=
    Option.some.inj ((Limiter.rules_of_create hl scope).symm.trans hget)
  rw [Gate.enter_value, hreached, halike.rules, hrule]
  cases hcall : ((l.after ops).call scope client now).1 with
  | ok decision =>
    cases decision with
    | allowed => exact .admitted
    | denied => exact s.told_denied sweepEvery _ hdouble hpos
  | error fault =>
    cases fault
    refine .noSweeps (Decidable.byContradiction fun hsweep => ?_)
    have hanswered := (Limiter.call_answered (l := l.after ops)
      (by rw [halike.sweepEvery, hrhythm]; exact hsweep) scope client now).1
    rw [hcall] at hanswered
    obtain ⟨_, hnone⟩ := hanswered
    cases hnone

/-- Settings under which a client uploads once in a window. -/
def oneUploadIn (window : Float) : Settings := { uploadLimit := 1, uploadWindow := .double window }

/-- Who comes back after one of two and a half seconds is told to wait for two. -/
theorem validated_rules_answer_half :
    ∃ table, (oneUploadIn 2.5).rules = .ok table ∧
      ∃ l, Limiter.create table true 16 1024 (fun _ => 0) = .ok l ∧
        let reached := ({ limiter := l } : Gate Float).after [.call .uploadFile "a" 0]
        (oneUploadIn 2.5).Told 1024 .uploadFile (reached.limiter.call .uploadFile "a" 1).1
          (reached.enter .uploadFile "a" 1).1.value ∧
        (reached.enter .uploadFile "a" 1).1.value =
          .error (.limited { scope := .uploadFile, retryAfter := 2 }) := by
  obtain ⟨table, hrules, htwo⟩ : ∃ table, (oneUploadIn 2.5).rules = .ok table ∧
      ∀ l, Limiter.create table true 16 1024 (fun _ => 0) = .ok l →
        ((({ limiter := l } : Gate Float).after [.call .uploadFile "a" 0]).enter .uploadFile "a"
          1).1.value = .error (.limited { scope := .uploadFile, retryAfter := 2 }) := by
    refine ⟨_, rfl, fun l hl => ?_⟩
    cases hl
    decide +kernel
  obtain ⟨l, hl, htold⟩ := validated_rules_answer _ table hrules true 16 1024 (by decide) fun _ => 0
  exact ⟨table, hrules, l, hl, htold {} [.call .uploadFile "a" 0] .uploadFile "a" 1, htwo l hl⟩

/-- The rules of the settings pass the check, and the second of two uploads fails. -/
def Settings.SecondFails (s : Settings) (sweepEvery : Int) (fault : AdmissionFault) : Prop :=
  ∃ table, s.rules = .ok table ∧
    ∃ l, Limiter.create table true 16 sweepEvery (fun _ => 0) = .ok l ∧
      ((({ limiter := l } : Gate Float).after [.call .uploadFile "a" 0]).enter .uploadFile "a" 1).1.value =
        .error fault

/-- A window that is not a number, one without an end, and a limiter that is asked for no sweeps. -/
theorem validated_rules_fail :
    (oneUploadIn Float.nan).SecondFails 1024 (.window .nan) ∧
      (oneUploadIn Float.inf).SecondFails 1024 (.window .infinite) ∧
      (oneUploadIn 2.5).SecondFails 0 (.call .sweepEveryZero) := by
  refine ⟨?_, ?_, ?_⟩
  · exact ⟨_, rfl, _, rfl, by decide +kernel⟩
  · exact ⟨_, rfl, _, rfl, by decide +kernel⟩
  · exact ⟨_, rfl, _, rfl, by decide +kernel⟩

end UploadDepot

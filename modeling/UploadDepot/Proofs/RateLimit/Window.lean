/-
Windows under exact instants that never go back.

A window keeps what is left of the list of all instants a key was ever
allowed at. `StandsFor` says what is left of it: at every instant to come
the two hold the same live instants. Pruning keeps that, whenever it is
done, because a window is in order and an instant that has left it never
comes back.
-/
import Mathlib.Algebra.Order.Group.Unbundled.Basic
import Mathlib.Algebra.Order.Monoid.Defs
import UploadDepot.RateLimit.Limiter

namespace UploadDepot.RateLimit

variable {τ : Type} [AddCommGroup τ] [LinearOrder τ] {window now later ts ts' : τ} {xs : List τ}

/-- An instant is still in the window at `now`. -/
def live (window now ts : τ) : Bool := decide (now - ts < window)

theorem expired_eq_not_live (window now ts : τ) : expired window now ts = !live window now ts := by
  by_cases h : now - ts < window
  · simp [expired, live, h]
  · simp [expired, live, h, not_lt.1 h]

theorem prune_sublist (window now : τ) (xs : List τ) : (prune window now xs).Sublist xs :=
  List.dropWhile_sublist _

theorem prune_length_le (window now : τ) (xs : List τ) : (prune window now xs).length ≤ xs.length :=
  (prune_sublist window now xs).length_le

/-- Pruning takes out nothing of a class in which nothing has left the window. -/
theorem filter_prune {p : τ → Bool} (h : ∀ x, expired window now x = true → p x = false)
    (xs : List τ) : (prune window now xs).filter p = xs.filter p := by
  induction xs with
  | nil => rfl
  | cons x xs ih =>
    rw [prune, List.dropWhile_cons]
    split
    · next hx =>
      rw [List.filter_cons_of_neg (Bool.not_eq_true _ ▸ h x hx)]
      exact ih
    · rfl

/-- The kept instants stand for the whole log at all the instants to come. -/
structure StandsFor (window : τ) (coming kept log : List τ) : Prop where
  sorted : (kept ++ coming).Pairwise (· ≤ ·)
  live : ∀ now ∈ coming, kept.filter (live window now) = log.filter (live window now)

namespace StandsFor

variable {coming kept log : List τ}

theorem nil (h : coming.Pairwise (· ≤ ·)) : StandsFor window coming [] [] := ⟨h, fun _ _ => rfl⟩

theorem fewer {coming' : List τ} (h : StandsFor window coming kept log)
    (hs : coming'.Sublist coming) : StandsFor window coming' kept log where
  sorted := h.sorted.sublist ((List.Sublist.refl kept).append hs)
  live := fun later hm => h.live later (hs.subset hm)

/-- Time goes on. -/
theorem tail (h : StandsFor window (now :: coming) kept log) : StandsFor window coming kept log :=
  h.fewer (List.sublist_cons_self now coming)

theorem kept_sorted (h : StandsFor window coming kept log) : kept.Pairwise (· ≤ ·) :=
  (List.pairwise_append.1 h.sorted).1

theorem now_le (h : StandsFor window (now :: coming) kept log) (hm : later ∈ now :: coming) :
    now ≤ later := by
  rcases List.mem_cons.1 hm with rfl | hm
  · exact le_refl _
  · exact (List.pairwise_cons.1 (List.pairwise_append.1 h.sorted).2.1).1 later hm

/-- An instant that is allowed goes to the end of both. -/
theorem record (h : StandsFor window (now :: coming) kept log) :
    StandsFor window (now :: coming) (kept ++ [now]) (log ++ [now]) where
  sorted := by
    obtain ⟨hk, hc, hkc⟩ := List.pairwise_append.1 h.sorted
    refine List.pairwise_append.2 ⟨List.pairwise_append.2 ⟨hk, List.pairwise_singleton _ _, ?_⟩, hc, ?_⟩
    · intro a ha b hb
      rw [List.mem_singleton.1 hb]
      exact hkc a ha now List.mem_cons_self
    · intro a ha b hb
      rcases List.mem_append.1 ha with ha | ha
      · exact hkc a ha b hb
      · rw [List.mem_singleton.1 ha]
        exact h.now_le hb
  live := fun later hm => by rw [List.filter_append, List.filter_append, h.live later hm]

end StandsFor

/-! ## Pruning -/

variable [IsOrderedAddMonoid τ]

theorem live_of_le (h : ts ≤ ts') (hl : live window now ts = true) :
    live window now ts' = true := by
  simp only [live, decide_eq_true_eq] at hl ⊢
  exact lt_of_le_of_lt (sub_le_sub_left h now) hl

theorem live_of_later (h : now ≤ later) (hl : live window later ts = true) :
    live window now ts = true := by
  simp only [live, decide_eq_true_eq] at hl ⊢
  exact lt_of_le_of_lt (sub_le_sub_right h ts) hl

/-- In an ordered window the instants that have left it stand in front, so dropping from the front
drops them all. -/
theorem prune_eq_filter (hs : xs.Pairwise (· ≤ ·)) :
    prune window now xs = xs.filter (live window now) := by
  induction xs with
  | nil => rfl
  | cons x xs ih =>
    obtain ⟨hx, hs⟩ := List.pairwise_cons.1 hs
    rw [prune, List.dropWhile_cons, expired_eq_not_live]
    cases hl : live window now x with
    | false =>
      rw [List.filter_cons_of_neg (by simp [hl])]
      exact ih hs
    | true =>
      have hall : ∀ y ∈ x :: xs, live window now y = true := by
        intro y hy
        rcases List.mem_cons.1 hy with rfl | hy
        · exact hl
        · exact live_of_le (hx y hy) hl
      rw [List.filter_eq_self.2 hall]
      rfl

/-- What is live later is live now. -/
theorem filter_live_filter (h : now ≤ later) (xs : List τ) :
    (xs.filter (live window now)).filter (live window later) = xs.filter (live window later) := by
  rw [List.filter_filter]
  refine List.filter_congr fun x _ => ?_
  cases hl : live window later x with
  | false => rfl
  | true => simp [live_of_later h hl]

namespace StandsFor

variable {coming kept log : List τ}

/-- Pruning at `now` leaves the live instants of the log. -/
theorem prune_eq (h : StandsFor window (now :: coming) kept log) :
    prune window now kept = log.filter (RateLimit.live window now) := by
  rw [prune_eq_filter h.kept_sorted]
  exact h.live now List.mem_cons_self

theorem prune (h : StandsFor window (now :: coming) kept log) :
    StandsFor window (now :: coming) (prune window now kept) log where
  sorted := h.sorted.sublist ((prune_sublist window now kept).append (List.Sublist.refl _))
  live := by
    intro later hm
    rw [prune_eq_filter h.kept_sorted, filter_live_filter (h.now_le hm)]
    exact h.live later hm

end StandsFor

end UploadDepot.RateLimit

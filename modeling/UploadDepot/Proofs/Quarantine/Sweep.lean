/-
What a sweep asks for: whatever the answers are, it removes nothing but what
it found right under the quarantine (`sweep_removes`).
-/
import UploadDepot.Proofs.Dialogue
import UploadDepot.Quarantine.Sweep

namespace UploadDepot.Quarantine

open Files (Path)

variable {τ σ : Type} [Sub τ] [LT τ] [DecidableLT τ] {maxAge now : τ}
  {answer : (q : Request) → σ → q.Reply τ × σ} {path : Path}

theorem visit_removes {entry : Path} {s : σ}
    (h : Request.remove path ∈ (visit maxAge now entry).questions answer s) : path = entry := by
  rcases Dialogue.mem_questions_ask.1 h with h | h
  · cases h
  split at h
  · cases h
  · cases h
  · rcases Dialogue.mem_questions_ask.1 h with h | h
    · cases h
    split at h
    · cases h
    split at h
    · rcases Dialogue.mem_questions_ask.1 h with h | h
      · cases h
        rfl
      split at h <;> cases h
    · cases h

theorem visitAll_removes {directory : Path} {names : List String} {deleted : List (Deletion τ)} {s : σ}
    (h : Request.remove path ∈ (visitAll maxAge now directory names deleted).questions answer s) :
    ∃ name ∈ names, path = directory.join name := by
  induction names generalizing deleted s with
  | nil => cases h
  | cons name names ih =>
    rw [visitAll] at h
    rcases List.mem_append.1 ((Dialogue.questions_andThen answer _ _ s) ▸ h) with h | h
    · exact ⟨name, List.mem_cons_self, visit_removes h⟩
    · split at h
      · cases h
      all_goals
        obtain ⟨name', hname, hpath⟩ := ih h
        exact ⟨name', List.mem_cons_of_mem name hname, hpath⟩

/-- **A sweep** removes only what stands right under the quarantine. -/
theorem sweep_removes {root : Path} {s : σ}
    (h : Request.remove path ∈ (sweep root maxAge now).questions answer s) :
    ∃ name, path = (root.join Store.quarantineName).join name := by
  rcases Dialogue.mem_questions_ask.1 h with h | h
  · cases h
  split at h
  · cases h
  · cases h
  · rcases Dialogue.mem_questions_ask.1 h with h | h
    · cases h
    split at h
    · cases h
    · obtain ⟨name, _, hpath⟩ := visitAll_removes h
      exact ⟨name, hpath⟩

end UploadDepot.Quarantine

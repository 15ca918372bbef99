/-
What the pipeline hands to its store.

Whatever way a file comes, it comes to an attempt that failed without a
question to the store, or to one commit: of data of an admitted type, under
their digest (`publish_always`). Which of the two it is does not hang on the
store (`conclude_settled`).
-/
import UploadDepot.Proofs.Dialogue
import UploadDepot.Proofs.Upload.Candidate

namespace UploadDepot.Upload

open Sha256 (hexOf)

variable {Q : Type} {A : Q → Type} {σ : Type} {W : World Q A σ} {G : σ → σ → Prop}
  {post : Attempt → σ → Prop} {s : σ}

/-- A type that may be reported for data: it is admitted, and told from their first bytes. -/
structure Typed (t : Terms) (data : Bytes) (mime : String) : Prop where
  allowed : Media.isAllowed mime t.allowed = true
  told : 0 ≤ t.sniffBytes → mime = t.typeOf data

theorem Typed.admits {t : Terms} {data : Bytes} {mime : String} (h : Typed t data mime)
    (hn : 0 ≤ t.sniffBytes) : t.admits data = true := by
  rw [Terms.admits, ← h.told hn, h.allowed]

/-- What an attempt reports after a commit. -/
def reported (data : Bytes) (mime : String) : Except Store.Fault Bool → Except Failure Ref
  | .error fault => .error (Failure.ofStore fault)
  | .ok created => .ok { hash := hexOf data, mime, size := data.length, duplicate := !created }

/-- What becomes of an upload on certain terms, over every store alike: it fails, or its data are
committed under their digest, and what the commit came to is reported. -/
def Settled (terms : Terms)
    (upload : (Q : Type) → (A : Q → Type) → Pipeline Q A → Dialogue Q A Attempt) : Prop :=
  (∃ a e, a.result = .error e ∧
    ∀ {Q : Type} {A : Q → Type} (p : Pipeline Q A), p.terms = terms → upload Q A p = .done a) ∨
  ∃ (data : Bytes) (mime : String) (report : Log.Logged (Except Store.Fault Bool) → Attempt),
    Typed terms data mime ∧
    (∀ committed, (report committed).result = reported data mime committed.value) ∧
    ∀ {Q : Type} {A : Q → Type} (p : Pipeline Q A), p.terms = terms → upload Q A p =
      (p.store.commit (hexOf data) mime { content := data, position := data.length }
        data.length).andThen fun committed => .done (report committed)

theorem Settled.congr {terms : Terms}
    {upload upload' : (Q : Type) → (A : Q → Type) → Pipeline Q A → Dialogue Q A Attempt}
    (h : Settled terms upload)
    (hsame : ∀ {Q : Type} {A : Q → Type} (p : Pipeline Q A), p.terms = terms →
      upload' Q A p = upload Q A p) :
    Settled terms upload' := by
  rcases h with ⟨a, e, hresult, hdone⟩ | ⟨data, mime, report, htyped, hreport, hcommit⟩
  · exact .inl ⟨a, e, hresult, fun p hp => (hsame p hp).trans (hdone p hp)⟩
  · exact .inr ⟨data, mime, report, htyped, hreport, fun p hp => (hsame p hp).trans (hcommit p hp)⟩

theorem Settled.always {p : Pipeline Q A}
    {upload : (Q : Type) → (A : Q → Type) → Pipeline Q A → Dialogue Q A Attempt}
    (h : Settled p.terms upload) (hfailed : ∀ a e, a.result = .error e → post a s)
    (hcommit : ∀ data mime, Typed p.terms data mime →
      (p.store.commit (hexOf data) mime { content := data, position := data.length }
          data.length).Always W G
        (fun committed s' => ∀ a, a.result = reported data mime committed.value → post a s') s) :
    (upload Q A p).Always W G post s := by
  rcases h with ⟨a, e, hresult, hdone⟩ | ⟨data, mime, report, htyped, hreport, hupload⟩
  · rw [hdone p rfl]
    exact hfailed a e hresult
  · rw [hupload p rfl]
    refine Dialogue.Always.andThen ((hcommit data mime htyped).imp fun committed s' hpost => ?_)
    exact hpost _ (hreport committed)

namespace Pipeline

variable {p : Pipeline Q A}

theorem candidate_of_le {declared : Option Int} (h : ∀ n ∈ declared, n ≤ p.terms.maxSize) :
    p.candidate declared = .ok { terms := p.terms } := by
  cases declared with
  | none => rfl
  | some n => exact if_neg (Int.not_lt.2 (h n rfl))

theorem candidate_of_not_le {declared : Option Int} (h : ¬ ∀ n ∈ declared, n ≤ p.terms.maxSize) :
    p.candidate declared = .error (.tooLarge p.terms.maxSize) := by
  cases declared with
  | none => exact absurd nofun h
  | some n => exact if_pos (by simpa using h)

theorem candidate_cases (declared : Option Int) (terms : Terms) :
    (∃ e, ∀ {Q : Type} {A : Q → Type} (p : Pipeline Q A), p.terms = terms →
      p.candidate declared = .error e) ∨
    ∀ {Q : Type} {A : Q → Type} (p : Pipeline Q A), p.terms = terms →
      p.candidate declared = .ok { terms } := by
  cases declared with
  | none => exact .inr fun p hp => by rw [candidate, hp]
  | some n =>
    by_cases hn : n > terms.maxSize
    · exact .inl ⟨.tooLarge terms.maxSize, fun p hp => by rw [candidate, hp, if_pos hn]⟩
    · exact .inr fun p hp => by rw [candidate, hp, if_neg hn]

/-- What becomes of the end of an upload, over every store alike: it is refused, or its data are
committed under their digest, and what the commit came to is reported. -/
theorem publish_cases {c : Candidate} (hc : c.Sound) (taken : Nat) :
    (∃ a mime, a.result = .error (.told (.unsupportedType mime)) ∧ a.taken = taken ∧
      Media.isAllowed mime c.terms.allowed = false ∧
      (0 ≤ c.terms.sniffBytes → mime = c.terms.typeOf c.content) ∧
      ∀ {Q : Type} {A : Q → Type} (p : Pipeline Q A), p.publish c taken = .done a) ∨
    ∃ (mime : String) (report : Log.Logged (Except Store.Fault Bool) → Attempt),
      Typed c.terms c.content mime ∧
      (∀ committed, (report committed).result = reported c.content mime committed.value ∧
        (report committed).taken = taken) ∧
      ∀ {Q : Type} {A : Q → Type} (p : Pipeline Q A), p.publish c taken =
        (p.store.commit (hexOf c.content) mime
          { content := c.content, position := c.content.length } c.content.length).andThen
          fun committed => .done (report committed) := by
  rcases hc.finish with ⟨c', mime, hend, hmime, hcontent, hsize, hallowed, htold⟩ |
    ⟨c', mime, hend, hallowed, htold⟩
  · right
    let report : Log.Logged (Except Store.Fault Bool) → Attempt := fun committed =>
      match committed.value with
      | .error fault =>
        { result := .error (Failure.ofStore fault), lines := committed.lines,
          sniffed := c'.sniffed.reverse, taken }
      | .ok created =>
        let ref : Ref :=
          { hash := hexOf c.content, mime, size := c.content.length, duplicate := !created }
        { result := .ok ref, lines := committed.lines ++ [ref.line], sniffed := c'.sniffed.reverse,
          taken }
    refine ⟨mime, report, ⟨hallowed, htold⟩, fun ⟨lines, value⟩ => ?_, fun p => ?_⟩
    · cases value <;> exact ⟨rfl, rfl⟩
    · rw [publish, hend]
      simp only [hmime, hcontent, hsize, Option.getD_some]
      refine congrArg (Dialogue.andThen _) (funext fun ⟨lines, value⟩ => ?_)
      cases value <;> rfl
  · left
    refine ⟨{ result := .error (.told (.unsupportedType mime)), sniffed := c'.sniffed.reverse, taken },
      mime, rfl, rfl, hallowed, htold, fun p => ?_⟩
    rw [publish, hend]

/-- **The end of an upload**: it is refused, or its data are committed under their digest. -/
theorem publish_always {c : Candidate} (hc : c.Sound) (taken : Nat)
    (hrefused : ∀ a mime, a.result = .error (.told (.unsupportedType mime)) →
      Media.isAllowed mime c.terms.allowed = false →
      (0 ≤ c.terms.sniffBytes → mime = c.terms.typeOf c.content) → post a s)
    (hcommit : ∀ mime, Typed c.terms c.content mime →
      (p.store.commit (hexOf c.content) mime
          { content := c.content, position := c.content.length } c.content.length).Always W G
        (fun committed s' => ∀ a, a.result = reported c.content mime committed.value → post a s') s) :
    (p.publish c taken).Always W G post s := by
  rcases publish_cases hc taken with ⟨a, mime, hresult, -, hallowed, htold, hpublish⟩ |
    ⟨mime, report, htyped, hreport, hpublish⟩
  · rw [hpublish]
    exact hrefused a mime hresult hallowed htold
  · rw [hpublish]
    refine Dialogue.Always.andThen ((hcommit mime htyped).imp fun committed s' hpost => ?_)
    exact hpost _ (hreport committed).1

theorem conclude_settled {terms : Terms} {c : Candidate} {taken : Nat} {ended : Except Failure Unit}
    (hended : ended = .ok () → c.Sound ∧ c.terms = terms) :
    Settled terms fun _ _ p => p.conclude (c, taken, ended) := by
  cases ended with
  | error e => exact .inl ⟨_, e, rfl, fun p _ => rfl⟩
  | ok =>
    obtain ⟨hsound, rfl⟩ := hended rfl
    rcases publish_cases hsound taken with ⟨a, mime, hresult, -, -, -, hpublish⟩ |
      ⟨mime, report, htyped, hreport, hpublish⟩
    · exact .inl ⟨a, _, hresult, fun p _ => hpublish p⟩
    · exact .inr ⟨c.content, mime, report, htyped, fun committed => (hreport committed).1,
        fun p _ => hpublish p⟩

end Pipeline

end UploadDepot.Upload

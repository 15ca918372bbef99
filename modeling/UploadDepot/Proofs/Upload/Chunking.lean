/-
A file in chunks, from the first to the end.

How a file was cut does not show: a candidate that is fed the chunks and then
ended, up to the first failure, takes a file or refuses it for what the file is
(`completed`). The type is told once at most, and from the first bytes of the
file, also of a file that is refused in the middle.
-/
import UploadDepot.Proofs.Upload.Candidate

namespace UploadDepot.Upload

open Sha256 (hexOf)

/-- The first bytes of a file, from which its type is told. -/
def Terms.headOf (t : Terms) (data : Bytes) : Bytes := data.take t.sniffBytes.toNat

/-- The first bytes of a file of which enough has come do not change any more. -/
theorem Terms.headOf_append {t : Terms} {data : Bytes} (h : t.sniffBytes ≤ data.length) (more : Bytes) :
    t.headOf (data ++ more) = t.headOf data := by
  rw [headOf, headOf, List.take_append_of_le_length (by omega)]

namespace Candidate

variable {c : Candidate} {chunk : Bytes} {chunks : List Bytes}

/-! ## Telling the type -/

/-- What one chunk adds to the heads from which the type was told. -/
theorem feed_sniffed (c : Candidate) (chunk : Bytes) :
    (c.feed chunk).1.sniffed = c.sniffed ∨
      c.mime = none ∧ c.terms.sniffBytes ≤ (c.headWith chunk).length ∧
        (c.feed chunk).1.sniffed = c.headWith chunk :: c.sniffed := by
  obtain ⟨terms, size, mime, head, hasher, spooled, closed, sniffed⟩ := c
  have hkeep : ∀ (c : Candidate) chunk, (c.keep chunk).1.sniffed = c.sniffed := by
    intro c chunk
    unfold keep
    dsimp only
    split <;> rfl
  unfold feed headWith
  dsimp only
  by_cases hsize : ((size + chunk.length : Nat) : Int) > terms.maxSize
  · rw [if_pos hsize]
    exact .inl rfl
  rw [if_neg hsize]
  cases mime with
  | some m => exact .inl (hkeep _ chunk)
  | none =>
    by_cases hfull : terms.sniffBytes ≤ (head ++ chunk.upTo (terms.sniffBytes - head.length)).length
    · refine .inr ⟨rfl, hfull, ?_⟩
      simp only [look, Option.isSome_none, Bool.false_eq_true, if_false, hfull, if_true, sniff]
      cases Media.isAllowed (terms.sniff (head ++ chunk.upTo (terms.sniffBytes - head.length))) terms.allowed
      · rfl
      · exact hkeep _ chunk
    · simp only [look, Option.isSome_none, Bool.false_eq_true, if_false, hfull]
      exact .inl (hkeep _ chunk)

/-- The type has been told from the first bytes, or not at all. -/
structure SniffedOnce (c : Candidate) : Prop where
  untold : c.mime = none → c.sniffed = []
  told : ∀ m, c.mime = some m → c.sniffed = [c.terms.headOf c.content]

theorem SniffedOnce.fresh (terms : Terms) : SniffedOnce { terms } where
  untold := fun _ => rfl
  told := nofun

/-- The heads of a candidate, seen with a file that begins with all that was fed. -/
theorem SniffedOnce.heads (hsniffed : c.SniffedOnce) (h : c.Sound) (hn : 0 ≤ c.terms.sniffBytes)
    (more : Bytes) :
    c.sniffed = [] ∨ c.sniffed = [c.terms.headOf (c.content ++ more)] := by
  cases hmime : c.mime with
  | none => exact .inl (hsniffed.untold hmime)
  | some m => exact .inr (by rw [hsniffed.told m hmime, Terms.headOf_append (h.told m hmime hn).1])

/-- **One chunk**: the type is told from the first bytes of the file, if it is told now. -/
theorem SniffedOnce.feed (hsniffed : c.SniffedOnce) (h : c.Sound) (hn : 0 ≤ c.terms.sniffBytes)
    (chunk more : Bytes) :
    (∀ c', c.feed chunk = (c', .ok ()) → c'.SniffedOnce) ∧
      ((c.feed chunk).1.sniffed = [] ∨
        (c.feed chunk).1.sniffed = [c.terms.headOf (c.content ++ chunk ++ more)]) := by
  have hhead : c.mime = none → c.headWith chunk = c.terms.headOf (c.content ++ chunk) :=
    fun hmime => h.headWith_eq hmime hn chunk
  constructor
  · intro c' hfeed
    have hfed := feed_fed h.isOpen chunk
    have hcontent := content_taking c chunk
    rw [hfeed] at hfed
    cases hfed with
    | known _ hmime =>
      obtain ⟨m, hm⟩ := Option.isSome_iff_exists.1 hmime
      refine ⟨fun hnone => ?_, fun _ _ => ?_⟩
      · rw [show c.mime = none from hnone] at hm
        cases hm
      show c.sniffed = [c.terms.headOf (c.taking chunk).content]
      rw [hcontent, Terms.headOf_append (h.told m hm hn).1, hsniffed.told m hm]
    | pending _ hmime _ =>
      refine ⟨fun _ => hsniffed.untold hmime, fun m hm => ?_⟩
      rw [show c.mime = some m from hm] at hmime
      cases hmime
    | admitted _ hmime _ _ =>
      refine ⟨nofun, fun _ _ => ?_⟩
      show c.headWith chunk :: c.sniffed = [c.terms.headOf (c.taking chunk).content]
      rw [hcontent, hhead hmime, hsniffed.untold hmime]
  · rcases feed_sniffed c chunk with hsame | ⟨hmime, hfull, hsniffed'⟩
    · rw [hsame, List.append_assoc]
      exact hsniffed.heads h hn _
    · rw [hhead hmime, Terms.headOf, List.length_take] at hfull
      have hlast : c.terms.headOf (c.content ++ chunk ++ more) = c.terms.headOf (c.content ++ chunk) :=
        Terms.headOf_append (by omega) more
      rw [hsniffed', hsniffed.untold hmime, hhead hmime, hlast]
      exact .inr rfl

/-! ## All chunks -/

/-- The ways in which an open candidate can take all chunks of a file, or refuse one. -/
inductive FedAll (c : Candidate) (data : Bytes) : Candidate × Nat × Except Failure Unit → Prop
  | taken {c' : Candidate} {fed : Nat} :
      c'.Sound → c'.SniffedOnce → c'.terms = c.terms → c'.content = data →
      (data.length : Int) ≤ c.terms.maxSize → FedAll c data (c', fed, .ok ())
  | refused {c' : Candidate} {fed : Nat} {e : UploadError} :
      Refused c.terms data e → (c'.sniffed = [] ∨ c'.sniffed = [c.terms.headOf data]) →
      FedAll c data (c', fed, .error (.told e))

theorem Sound.feedAll_fedAll (h : c.Sound) (hsniffed : c.SniffedOnce) (hn : 0 ≤ c.terms.sniffBytes)
    (hsize : (c.content.length : Int) ≤ c.terms.maxSize) (chunks : List Bytes) (fed : Nat) :
    FedAll c (c.content ++ chunks.flatten) (c.feedAll chunks fed) := by
  induction chunks generalizing c fed with
  | nil =>
    rw [List.flatten_nil, List.append_nil]
    exact .taken h hsniffed rfl rfl hsize
  | cons chunk chunks ih =>
    obtain ⟨hnext, hheads⟩ := hsniffed.feed h hn chunk chunks.flatten
    rw [Candidate.feedAll, List.flatten_cons, ← List.append_assoc]
    rcases h.feed chunk with ⟨c', hfeed, hsound, hterms, hcontent, hsize'⟩ | ⟨c', e, hfeed, hrefused⟩
    · have hrest := ih hsound (hnext c' hfeed) (hterms ▸ hn) (hterms ▸ hsize') (fed + 1)
      rw [hcontent] at hrest
      rw [hfeed]
      dsimp only
      generalize c'.feedAll chunks (fed + 1) = result at hrest ⊢
      cases hrest with
      | taken hsound' hsniffed' hterms' hcontent' hle =>
        exact .taken hsound' hsniffed' (hterms'.trans hterms) hcontent' (hterms ▸ hle)
      | refused hrefused hheads' => exact .refused (hterms ▸ hrefused) (hterms ▸ hheads')
    · rw [hfeed] at hheads ⊢
      exact .refused (hrefused.append _) hheads

/-! ## The end -/

theorem finish_sniffed (c : Candidate) :
    c.finish.1.sniffed = if c.mime.isSome then c.sniffed else c.head :: c.sniffed := by
  unfold finish
  cases c.mime with
  | some m =>
    simp only [Option.isSome_some, if_true]
    cases c.useSpool .flush <;> rfl
  | none =>
    simp only [Option.isSome_none, Bool.false_eq_true, if_false, sniff]
    cases Media.isAllowed (c.terms.sniff c.head) c.terms.allowed with
    | true =>
      simp only [if_true]
      split <;> rfl
    | false => rfl

/-- After the end the type has been told, from the first bytes of the file. -/
theorem SniffedOnce.finish (hsniffed : c.SniffedOnce) (h : c.Sound) (hn : 0 ≤ c.terms.sniffBytes) :
    c.finish.1.sniffed = [c.terms.headOf c.content] := by
  rw [finish_sniffed]
  cases hmime : c.mime with
  | some m => exact (if_pos rfl).trans (hsniffed.told m hmime)
  | none =>
    rw [hsniffed.untold hmime, (h.pending hmime hn).1, Terms.headOf,
      List.take_of_length_le (h.length_le hmime hn)]
    rfl

/-- Feeds all chunks of a file and ends it, up to the first failure. -/
def complete (c : Candidate) (chunks : List Bytes) : Candidate × Except Failure String :=
  match c.feedAll chunks 0 with
  | (c, _, .error e) => (c, .error e)
  | (c, _, .ok ()) => c.finish

/-- The ways in which a file comes to its end. -/
inductive Completed (t : Terms) (data : Bytes) : Candidate × Except Failure String → Prop
  | taken {c : Candidate} :
      (data.length : Int) ≤ t.maxSize → t.admits data = true →
      c.mime = some (t.typeOf data) → c.size = data.length → c.content = data →
      c.sniffed = [t.headOf data] → Completed t data (c, .ok (hexOf data))
  | tooLarge {c : Candidate} :
      t.maxSize < data.length → (c.sniffed = [] ∨ c.sniffed = [t.headOf data]) →
      Completed t data (c, .error (.told (.tooLarge t.maxSize)))
  | unsupportedType {c : Candidate} :
      t.admits data = false → (c.sniffed = [] ∨ c.sniffed = [t.headOf data]) →
      Completed t data (c, .error (.told (.unsupportedType (t.typeOf data))))

/-- **A whole file**, from its first chunk to its end. -/
theorem complete_completed {t : Terms} (hmax : 0 ≤ t.maxSize) (hn : 0 ≤ t.sniffBytes)
    (chunks : List Bytes) : Completed t chunks.flatten (complete { terms := t } chunks) := by
  have hfed := (Sound.fresh t).feedAll_fedAll (SniffedOnce.fresh t) hn hmax chunks 0
  unfold complete
  generalize Candidate.feedAll { terms := t } chunks 0 = fed at hfed ⊢
  generalize hdata : ({ terms := t } : Candidate).content ++ chunks.flatten = data at hfed
  obtain rfl : data = chunks.flatten := hdata.symm.trans (List.nil_append _)
  cases hfed with
  | refused hrefused hheads =>
    cases hrefused with
    | tooLarge hlt => exact .tooLarge hlt hheads
    | unsupportedType hallowed htype =>
      have htype := htype hn []
      rw [List.append_nil] at htype
      obtain rfl := htype
      exact .unsupportedType hallowed hheads
  | taken hsound hsniffed hterms hcontent hle =>
    rename_i c fed
    obtain rfl : c.terms = t := hterms
    rw [← hcontent] at hle ⊢
    have hheads := hsniffed.finish hsound hn
    dsimp only
    rcases hsound.finish with ⟨c', mime, hend, hmime, hcontent', hsize, hallowed, htype⟩ |
      ⟨c', mime, hend, hallowed, htype⟩
    · obtain rfl := htype hn
      rw [hend] at hheads ⊢
      exact .taken hle hallowed hmime hsize hcontent' hheads
    · obtain rfl := htype hn
      rw [hend] at hheads ⊢
      exact .unsupportedType hallowed (.inr hheads)

/-- **How a file was cut does not show.** All calls succeed if, and only if, the file is not too large
and of an admitted type; then the digest, the type, the size and the spooled bytes are those of the file.
Otherwise the failure says what is wrong with the file. In every run the type is told once at most, and
from the first bytes of the file. -/
theorem complete_by_file (terms : Terms) (hmax : 0 ≤ terms.maxSize) (hn : 0 ≤ terms.sniffBytes)
    {chunks : List Bytes} {data : Bytes} (hdata : chunks.flatten = data) :
    let (c, ended) := complete { terms } chunks
    ((∃ digest, ended = .ok digest) ↔
        (data.length : Int) ≤ terms.maxSize ∧
          Media.isAllowed (terms.sniff (data.take terms.sniffBytes.toNat)) terms.allowed = true) ∧
      (∀ digest, ended = .ok digest → digest = hexOf data ∧
        c.mime = some (terms.sniff (data.take terms.sniffBytes.toNat)) ∧ c.size = data.length ∧
        c.content = data) ∧
      (∀ e, ended = .error e →
        e = .told (.tooLarge terms.maxSize) ∧ terms.maxSize < data.length ∨
        e = .told (.unsupportedType (terms.sniff (data.take terms.sniffBytes.toNat))) ∧
          Media.isAllowed (terms.sniff (data.take terms.sniffBytes.toNat)) terms.allowed = false) ∧
      (c.sniffed = [] ∨ c.sniffed = [data.take terms.sniffBytes.toNat]) := by
  subst hdata
  have hcompleted := complete_completed hmax hn chunks
  generalize complete { terms } chunks = result at hcompleted ⊢
  cases hcompleted with
  | taken hle hadmits hmime hsize hcontent hheads =>
    refine ⟨⟨fun _ => ⟨hle, hadmits⟩, fun _ => ⟨_, rfl⟩⟩, ?_, nofun, .inr hheads⟩
    rintro digest ⟨⟩
    exact ⟨rfl, hmime, hsize, hcontent⟩
  | tooLarge hlt hheads =>
    refine ⟨⟨nofun, fun ⟨hle, _⟩ => absurd hlt (Int.not_lt.2 hle)⟩, nofun, ?_, hheads⟩
    rintro e ⟨⟩
    exact .inl ⟨rfl, hlt⟩
  | unsupportedType hallowed hheads =>
    refine ⟨⟨nofun, fun ⟨_, hadmits⟩ => absurd (hallowed.symm.trans hadmits) (by decide)⟩, nofun, ?_, hheads⟩
    rintro e ⟨⟩
    exact .inr ⟨rfl, hallowed⟩

/-- A picture in four chunks, one of them empty; its first bytes end inside the last. -/
theorem complete_by_file_gif :
    let terms : Terms :=
      { maxSize := 9, sniffBytes := 7, allowed := [("image/gif", "gif")]
        sniff := Media.Signatures.standard.typeOf }
    let chunks := [Bytes.ofText "GIF", [], Bytes.ofText "89a", Bytes.ofText "..."]
    let data := Bytes.ofText "GIF89a..."
    0 ≤ terms.maxSize ∧ 0 ≤ terms.sniffBytes ∧ chunks.flatten = data ∧
      (complete { terms } chunks).2 = .ok (hexOf data) ∧
      (complete { terms } chunks).1.mime = some "image/gif" := by
  intro terms chunks data
  have hdata : chunks.flatten = data := by decide +kernel
  have hmime : terms.sniff (data.take terms.sniffBytes.toNat) = "image/gif" := by decide +kernel
  have hallowed : Media.isAllowed "image/gif" terms.allowed = true := by decide +kernel
  have hcompleted := complete_by_file terms (by decide) (by decide) hdata
  rw [hmime] at hcompleted
  obtain ⟨htaken, hfile, -⟩ := hcompleted
  obtain ⟨digest, hended⟩ := htaken.2 ⟨by decide +kernel, hallowed⟩
  obtain ⟨rfl, hmime', -⟩ := hfile digest hended
  exact ⟨by decide, by decide, hdata, hended, hmime'⟩

end Candidate

end UploadDepot.Upload

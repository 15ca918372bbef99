/-
A candidate does not depend on how its file was cut into chunks.

`Sound` ties together what a candidate keeps of the bytes fed to it: their
number, their digest, their head or the type told from it, and the bytes
themselves. One chunk keeps it (`Sound.feed`), and what a candidate refuses
it would refuse of the whole file (`Refused`), so the end is a matter of the
file alone (`finish_iff`).
-/
import UploadDepot.Upload.Pipeline

namespace UploadDepot.Upload

/-- The type of a file, told from its first bytes. -/
def Terms.typeOf (t : Terms) (data : Bytes) : String := t.sniff (data.take t.sniffBytes.toNat)

/-- Whether the type of a file is admitted. -/
def Terms.admits (t : Terms) (data : Bytes) : Bool := Media.isAllowed (t.typeOf data) t.allowed

theorem upTo_of_nonneg {n : Int} (h : 0 ≤ n) (bs : Bytes) : bs.upTo n = bs.take n.toNat := by
  obtain ⟨k, rfl⟩ := Int.eq_ofNat_of_zero_le h
  rfl

namespace Candidate

/-! ## What one chunk does -/

/-- The head with what the chunk adds to it. -/
def headWith (c : Candidate) (chunk : Bytes) : Bytes :=
  c.head ++ chunk.upTo (c.terms.sniffBytes - c.head.length)

/-- The chunk hashed, spooled and counted. -/
def taking (c : Candidate) (chunk : Bytes) : Candidate :=
  { c with
    size := c.size + chunk.length
    hasher := c.hasher.update chunk
    spooled := chunk :: c.spooled }

/-- The ways in which an open candidate can take a chunk, or refuse it. -/
inductive Fed (c : Candidate) (chunk : Bytes) : Candidate × Except Failure Unit → Prop
  | tooLarge {c' : Candidate} :
      c.terms.maxSize < (c.size + chunk.length : Nat) →
      Fed c chunk (c', .error (.told (.tooLarge c.terms.maxSize)))
  /-- The type has been told before. -/
  | known :
      ((c.size + chunk.length : Nat) : Int) ≤ c.terms.maxSize → c.mime.isSome = true →
      Fed c chunk (c.taking chunk, .ok ())
  /-- The type cannot be told yet. -/
  | pending :
      ((c.size + chunk.length : Nat) : Int) ≤ c.terms.maxSize → c.mime = none →
      ((c.headWith chunk).length : Int) < c.terms.sniffBytes →
      Fed c chunk ({ c.taking chunk with head := c.headWith chunk }, .ok ())
  /-- The type is told, and admitted. -/
  | admitted :
      ((c.size + chunk.length : Nat) : Int) ≤ c.terms.maxSize → c.mime = none →
      c.terms.sniffBytes ≤ (c.headWith chunk).length →
      Media.isAllowed (c.terms.sniff (c.headWith chunk)) c.terms.allowed = true →
      Fed c chunk
        ({ c.taking chunk with
            head := []
            sniffed := c.headWith chunk :: c.sniffed
            mime := some (c.terms.sniff (c.headWith chunk)) }, .ok ())
  | refused {c' : Candidate} :
      c.mime = none → c.terms.sniffBytes ≤ (c.headWith chunk).length →
      Media.isAllowed (c.terms.sniff (c.headWith chunk)) c.terms.allowed = false →
      Fed c chunk (c', .error (.told (.unsupportedType (c.terms.sniff (c.headWith chunk)))))

theorem feed_fed {c : Candidate} (hopen : c.closed = false) (chunk : Bytes) :
    Fed c chunk (c.feed chunk) := by
  obtain ⟨terms, size, mime, head, hasher, spooled, closed, sniffed⟩ := c
  dsimp only at hopen
  subst hopen
  unfold feed
  by_cases hsize : ((size + chunk.length : Nat) : Int) > terms.maxSize
  · simp only [hsize, if_true]
    exact .tooLarge hsize
  have hle := Int.not_lt.1 hsize
  simp only [hsize, if_false]
  cases mime with
  | some m =>
    simp only [look, Option.isSome_some, if_true, keep, useSpool, Bool.false_eq_true, if_false]
    exact .known hle rfl
  | none =>
    simp only [look, Option.isSome_none, Bool.false_eq_true, if_false]
    by_cases hfull : terms.sniffBytes ≤ (head ++ chunk.upTo (terms.sniffBytes - head.length)).length
    · simp only [hfull, if_true, sniff]
      cases hallowed : Media.isAllowed
          (terms.sniff (head ++ chunk.upTo (terms.sniffBytes - head.length))) terms.allowed with
      | true =>
        simp only [if_true, keep, useSpool, Bool.false_eq_true, if_false]
        exact .admitted hle rfl hfull hallowed
      | false =>
        simp only [Bool.false_eq_true, if_false]
        exact .refused rfl hfull hallowed
    · simp only [hfull, if_false, keep, useSpool, Bool.false_eq_true]
      exact .pending hle rfl (Int.not_le.1 hfull)

/-! ## What a candidate knows of its file -/

/-- What a candidate keeps is what it keeps of the bytes it was fed. -/
structure Sound (c : Candidate) : Prop where
  isOpen : c.closed = false
  size : c.size = c.content.length
  hasher : c.hasher = ({} : Sha256.Hasher).update c.content
  /-- Without a type, the head is all there is. -/
  pending : c.mime = none → 0 ≤ c.terms.sniffBytes →
    c.head = c.content ∧ (c.content = [] ∨ (c.content.length : Int) < c.terms.sniffBytes)
  admitted : ∀ m, c.mime = some m → Media.isAllowed m c.terms.allowed = true
  told : ∀ m, c.mime = some m → 0 ≤ c.terms.sniffBytes →
    c.terms.sniffBytes ≤ c.content.length ∧ m = c.terms.typeOf c.content

theorem Sound.fresh (terms : Terms) : Sound { terms } where
  isOpen := rfl
  size := rfl
  hasher := rfl
  pending := fun _ _ => ⟨rfl, .inl rfl⟩
  admitted := fun _ h => nomatch h
  told := fun _ h => nomatch h

/-- An error by which every file that begins with `data` is refused. -/
inductive Refused (t : Terms) (data : Bytes) : UploadError → Prop
  | tooLarge : t.maxSize < data.length → Refused t data (.tooLarge t.maxSize)
  | unsupportedType {mime : String} :
      Media.isAllowed mime t.allowed = false →
      (0 ≤ t.sniffBytes → ∀ more, t.typeOf (data ++ more) = mime) →
      Refused t data (.unsupportedType mime)

theorem Refused.append {t : Terms} {data : Bytes} {e : UploadError} (h : Refused t data e)
    (more : Bytes) : Refused t (data ++ more) e := by
  cases h with
  | tooLarge hlen =>
    refine .tooLarge (Int.lt_of_lt_of_le hlen ?_)
    rw [List.length_append]
    omega
  | unsupportedType hallowed htype =>
    refine .unsupportedType hallowed fun hn more' => ?_
    rw [List.append_assoc]
    exact htype hn _

theorem Refused.not_admitted {t : Terms} {data : Bytes} {e : UploadError} (h : Refused t data e)
    (hn : 0 ≤ t.sniffBytes) : t.maxSize < data.length ∨ t.admits data = false := by
  cases h with
  | tooLarge hlen => exact .inl hlen
  | unsupportedType hallowed htype =>
    have := htype hn []
    rw [List.append_nil] at this
    exact .inr (by rw [Terms.admits, this, hallowed])

@[simp] theorem content_taking (c : Candidate) (chunk : Bytes) :
    (c.taking chunk).content = c.content ++ chunk := by
  simp [content, taking]

theorem length_content_taking (c : Candidate) (h : Sound c) (chunk : Bytes) :
    c.size + chunk.length = (c.content ++ chunk).length := by
  rw [h.size, List.length_append]

/-- Without a type no more has come than the type is told from. -/
theorem Sound.length_le {c : Candidate} (h : Sound c) (hmime : c.mime = none)
    (hn : 0 ≤ c.terms.sniffBytes) : c.content.length ≤ c.terms.sniffBytes.toNat := by
  rcases (h.pending hmime hn).2 with hnil | hlt
  · rw [hnil]
    exact Nat.zero_le _
  · omega

/-- While the type cannot be told, the head is the head of the file. -/
theorem Sound.headWith_eq {c : Candidate} (h : Sound c) (hmime : c.mime = none)
    (hn : 0 ≤ c.terms.sniffBytes) (chunk : Bytes) :
    c.headWith chunk = (c.content ++ chunk).take c.terms.sniffBytes.toNat := by
  have hhead := (h.pending hmime hn).1
  have hlen := h.length_le hmime hn
  have hsub : (c.terms.sniffBytes - c.content.length).toNat =
      c.terms.sniffBytes.toNat - c.content.length := by omega
  rw [headWith, hhead, upTo_of_nonneg (by omega), hsub, List.take_append,
    List.take_of_length_le hlen]

/-- The type of a file of which enough has come does not change any more. -/
theorem typeOf_append {t : Terms} {data : Bytes} (h : t.sniffBytes ≤ data.length) (more : Bytes) :
    t.typeOf (data ++ more) = t.typeOf data := by
  rw [Terms.typeOf, Terms.typeOf, List.take_append_of_le_length (by omega)]

/-- **One chunk.** It is taken, and the candidate knows it, or the file is refused. -/
theorem Sound.feed {c : Candidate} (h : Sound c) (chunk : Bytes) :
    (∃ c', c.feed chunk = (c', .ok ()) ∧ Sound c' ∧ c'.terms = c.terms ∧
        c'.content = c.content ++ chunk ∧ (c'.content.length : Int) ≤ c.terms.maxSize) ∨
      ∃ c' e, c.feed chunk = (c', .error (.told e)) ∧ Refused c.terms (c.content ++ chunk) e := by
  have hfed := feed_fed h.isOpen chunk
  have hsize := length_content_taking c h chunk
  have hhash : (c.taking chunk).hasher = ({} : Sha256.Hasher).update (c.content ++ chunk) := by
    rw [Sha256.Hasher.update_append, ← h.hasher]
    rfl
  have hcontent := content_taking c chunk
  have hwithin : ((c.size + chunk.length : Nat) : Int) ≤ c.terms.maxSize →
      ((c.taking chunk).content.length : Int) ≤ c.terms.maxSize := by
    intro hle
    rw [hcontent, ← hsize]
    exact hle
  generalize c.feed chunk = r at hfed ⊢
  cases hfed with
  | tooLarge hlt => exact .inr ⟨_, _, rfl, .tooLarge (hsize ▸ hlt)⟩
  | known hle hmime =>
    refine .inl ⟨_, rfl, ?_, rfl, hcontent, hwithin hle⟩
    refine ⟨h.isOpen, by rw [hcontent]; exact hsize, by rw [hcontent]; exact hhash, ?_, h.admitted, ?_⟩
    · intro hnone
      rw [show c.mime = none from hnone] at hmime
      cases hmime
    · intro m hm hn
      obtain ⟨hlen, htype⟩ := h.told m hm hn
      rw [hcontent]
      refine ⟨?_, htype.trans (typeOf_append hlen chunk).symm⟩
      show c.terms.sniffBytes ≤ _
      rw [List.length_append]
      omega
  | pending hle hmime hshort =>
    refine .inl ⟨_, rfl, ?_, rfl, hcontent, hwithin hle⟩
    refine ⟨h.isOpen, hsize.trans (congrArg _ hcontent.symm), hhash.trans (congrArg _ hcontent.symm),
      ?_, h.admitted, fun m hm => ?_⟩
    · intro _ hn
      have hhead := h.headWith_eq hmime hn chunk
      have hshort' : (c.content ++ chunk).length < c.terms.sniffBytes.toNat := by
        rw [hhead, List.length_take] at hshort
        omega
      refine ⟨?_, .inr ?_⟩
      · show c.headWith chunk = (c.taking chunk).content
        rw [hcontent, hhead, List.take_of_length_le (Nat.le_of_lt hshort')]
      · show ((c.taking chunk).content.length : Int) < c.terms.sniffBytes
        rw [hcontent]
        omega
    · rw [show c.mime = some m from hm] at hmime
      cases hmime
  | admitted hle hmime hfull hallowed =>
    refine .inl ⟨_, rfl, ?_, rfl, hcontent, hwithin hle⟩
    refine ⟨h.isOpen, hsize.trans (congrArg _ hcontent.symm), hhash.trans (congrArg _ hcontent.symm),
      nofun, ?_, ?_⟩
    · intro m hm
      cases hm
      exact hallowed
    · intro m hm hn
      cases hm
      have hhead := h.headWith_eq hmime hn chunk
      rw [hhead, List.length_take] at hfull
      show c.terms.sniffBytes ≤ (c.taking chunk).content.length ∧
        c.terms.sniff (c.headWith chunk) = c.terms.typeOf (c.taking chunk).content
      rw [hcontent, hhead]
      exact ⟨by omega, rfl⟩
  | refused hmime hfull hallowed =>
    refine .inr ⟨_, _, rfl, .unsupportedType hallowed fun hn more => ?_⟩
    have hhead := h.headWith_eq hmime hn chunk
    rw [hhead, List.length_take] at hfull
    rw [typeOf_append (by omega), hhead]
    rfl

/-! ## A whole file -/

/-- All chunks are taken, or the file is refused. -/
theorem Sound.feedAll {c : Candidate} (h : Sound c) (chunks : List Bytes) (fed : Nat) :
    (∃ c', c.feedAll chunks fed = (c', fed + chunks.length, .ok ()) ∧ Sound c' ∧
        c'.terms = c.terms ∧ c'.content = c.content ++ chunks.flatten) ∨
      ∃ c' k e, c.feedAll chunks fed = (c', k, .error (.told e)) ∧
        Refused c.terms (c.content ++ chunks.flatten) e := by
  induction chunks generalizing c fed with
  | nil => exact .inl ⟨c, rfl, h, rfl, by simp⟩
  | cons chunk chunks ih =>
    unfold Candidate.feedAll
    rcases h.feed chunk with ⟨c', hfeed, hsound, hterms, hcontent, _⟩ | ⟨c', e, hfeed, hrefused⟩
    · rw [hfeed]
      have ih := ih hsound (fed + 1)
      have hlen : fed + (chunk :: chunks).length = fed + 1 + chunks.length := by
        rw [List.length_cons]
        omega
      rw [hterms, hcontent, List.append_assoc, ← List.flatten_cons] at ih
      rw [hlen]
      exact ih
    · rw [hfeed]
      refine .inr ⟨c', fed, e, rfl, ?_⟩
      rw [List.flatten_cons, ← List.append_assoc]
      exact hrefused.append _

/-- Of a stream that is read without a failure, all is known. -/
theorem Sound.read {c c' : Candidate} (h : Sound c) {reads : List Read} {n k : Nat}
    (hread : c.read reads n = (c', k, .ok ())) : Sound c' ∧ c'.terms = c.terms := by
  induction reads generalizing c n with
  | nil =>
    cases hread
    exact ⟨h, rfl⟩
  | cons r reads ih =>
    match r with
    | .nothing | .bytes [] =>
      cases hread
      exact ⟨h, rfl⟩
    | .fails m => cases hread
    | .bytes (b :: bs) =>
      unfold Candidate.read at hread
      rcases h.feed (b :: bs) with ⟨c'', hfeed, hsound, hterms, _, _⟩ | ⟨c'', e, hfeed, _⟩
      · rw [hfeed] at hread
        obtain ⟨hc', hterms'⟩ := ih hsound hread
        exact ⟨hc', hterms'.trans hterms⟩
      · rw [hfeed] at hread
        cases hread

/-! ## The end of a file -/

/-- The type of a candidate at the end of its file. -/
theorem Sound.type_at_end {c : Candidate} (h : Sound c) (hn : 0 ≤ c.terms.sniffBytes)
    (hmime : c.mime = none) : c.terms.sniff c.head = c.terms.typeOf c.content := by
  rw [Terms.typeOf, List.take_of_length_le (h.length_le hmime hn), (h.pending hmime hn).1]

/-- **The end.** The digest of a file of an admitted type, or the file is refused. -/
theorem Sound.finish {c : Candidate} (h : Sound c) :
    (∃ c' mime, c.finish = (c', .ok (Sha256.hexOf c.content)) ∧ c'.mime = some mime ∧
        c'.content = c.content ∧ c'.size = c.content.length ∧
        Media.isAllowed mime c.terms.allowed = true ∧
        (0 ≤ c.terms.sniffBytes → mime = c.terms.typeOf c.content)) ∨
      ∃ c' mime, c.finish = (c', .error (.told (.unsupportedType mime))) ∧
        Media.isAllowed mime c.terms.allowed = false ∧
        (0 ≤ c.terms.sniffBytes → mime = c.terms.typeOf c.content) := by
  have hend := h.type_at_end
  have hhex : c.hasher.hexDigest = Sha256.hexOf c.content := by rw [h.hasher, Sha256.hexOf]
  have hsize := h.size
  have hadmitted := h.admitted
  have htold := h.told
  have hopen := h.isOpen
  unfold Candidate.finish
  cases hmime : c.mime with
  | some m =>
    simp only [Option.isSome_some, if_true, useSpool, hopen, Bool.false_eq_true, if_false, hhex]
    exact .inl ⟨_, m, rfl, hmime, rfl, hsize, hadmitted m hmime, fun hn => (htold m hmime hn).2⟩
  | none =>
    simp only [Option.isSome_none, Bool.false_eq_true, if_false, sniff]
    cases hallowed : Media.isAllowed (c.terms.sniff c.head) c.terms.allowed with
    | true =>
      simp only [if_true, useSpool, hopen, Bool.false_eq_true, if_false, hhex]
      exact .inl ⟨_, _, rfl, rfl, rfl, hsize, hallowed, fun hn => hend hn hmime⟩
    | false =>
      simp only [Bool.false_eq_true, if_false]
      exact .inr ⟨_, _, rfl, hallowed, fun hn => hend hn hmime⟩

end Candidate

end UploadDepot.Upload

/-
A form on its way in, as the reader sees it and as the candidate sees it.

The reader alone says which bytes are the file's (`file?`). An intake hands
them to its candidate chunk by chunk, within the limit on the body, so all it
can do is to fail, or to end with a candidate that knows just these bytes
(`Intake.feedAll_spec`).
-/
import UploadDepot.Proofs.Multipart.Selection
import UploadDepot.Proofs.Upload.Pipeline
import UploadDepot.Upload.Form

namespace UploadDepot

/-- The bytes of the file in an upload, if the form can be read to its end. -/
def Http.Request.file? (r : Http.Request) : Option Bytes :=
  match Multipart.boundary (r.fields.get? "content-type") with
  | .error _ => none
  | .ok boundary =>
    match (Multipart.Reader.start boundary Upload.fileField).collect (r.chunks.filter (· ≠ [])) with
    | .error _ => none
    | .ok (reader, data) => if reader.found ∧ reader.finished then some data else none

/-- What the reader has against the form of an upload, if anything. -/
def Http.Request.formFault? (r : Http.Request) : Option Multipart.ReadFault :=
  match Multipart.boundary (r.fields.get? "content-type") with
  | .error fault => some fault
  | .ok boundary =>
    match (Multipart.Reader.start boundary Upload.fileField).collect (r.chunks.filter (· ≠ [])) with
    | .error fault => some fault
    | .ok _ => none

/-- All the parameters in a form can be read; it may be malformed in another way, or without a file. -/
def Http.Request.Legible (r : Http.Request) : Prop := ∀ fault, r.formFault? ≠ some (.parameters fault)

/-- The length of a body, where it is declared, is its length. -/
def Http.Request.Measured (r : Http.Request) : Prop :=
  ∀ text, r.fields.get? "content-length" = some text →
    Numeral.readInt text = .ok (r.chunks.flatten.length : Int)

namespace Upload

open Sha256 (hexOf)
open Multipart (Reader)

namespace Intake

variable {i i' : Intake} {reader' : Reader} {limit : Int} {bytes data : Bytes} {chunks : List Bytes}

/-- The ways in which an intake can take bytes of the body, or not. -/
inductive Fed (i : Intake) (limit : Int) (bytes : Bytes) : Intake × Except Failure Unit → Prop
  | overLimit {i' : Intake} : limit < (i.received + bytes.length : Nat) →
      Fed i limit bytes (i', .error (.told (.tooLarge i.candidate.terms.maxSize)))
  | unreadable {i' : Intake} {reader : Reader} {fault : Multipart.ReadFault} :
      i.reader.feed bytes = (reader, .error fault) →
      Fed i limit bytes (i', .error (Failure.ofForm fault))
  | taken {reader : Reader} {candidate : Candidate} {data : Bytes} :
      ((i.received + bytes.length : Nat) : Int) ≤ limit →
      i.reader.feed bytes = (reader, .ok data) → candidate.Sound →
      candidate.terms = i.candidate.terms → candidate.content = i.candidate.content ++ data →
      ((i.candidate.content.length : Int) ≤ i.candidate.terms.maxSize →
        (candidate.content.length : Int) ≤ i.candidate.terms.maxSize) →
      Fed i limit bytes
        ({ i with reader, candidate, received := i.received + bytes.length }, .ok ())
  | refused {i' : Intake} {reader : Reader} {data : Bytes} {e : UploadError} :
      i.reader.feed bytes = (reader, .ok data) →
      Candidate.Refused i.candidate.terms (i.candidate.content ++ data) e →
      Fed i limit bytes (i', .error (.told e))

theorem feed_fed (h : i.candidate.Sound) (limit : Int) (bytes : Bytes) :
    Fed i limit bytes (i.feed limit bytes) := by
  rw [feed, checkReceived]
  by_cases hlimit : ((i.received + bytes.length : Nat) : Int) > limit
  · simp only [hlimit, if_true]
    exact .overLimit hlimit
  simp only [hlimit, if_false]
  have hle := Int.not_lt.1 hlimit
  cases hread : i.reader.feed bytes with
  | mk reader result =>
    match result with
    | .error fault => exact .unreadable hread
    | .ok [] => exact .taken hle hread h rfl (List.append_nil _).symm id
    | .ok (b :: bs) =>
      dsimp only
      rcases h.feed (b :: bs) with
        ⟨c', hfeed, hsound, hterms, hcontent, hsize⟩ | ⟨c', e, hfeed, hrefused⟩
      · rw [hfeed]
        exact .taken hle hread hsound hterms hcontent fun _ => hsize
      · rw [hfeed]
        exact .refused hread hrefused

/-- What the reader collects begins with the bytes of the first chunk. -/
theorem collect_cons_ok {reader : Reader} {first : Bytes}
    (h : (Reader.collect reader chunks).map (fun (r, more) => (r, first ++ more)) = .ok (reader', data)) :
    ∃ more, Reader.collect reader chunks = .ok (reader', more) ∧ data = first ++ more := by
  cases hcollect : Reader.collect reader chunks with
  | error fault =>
    rw [hcollect] at h
    cases h
  | ok result =>
    rw [hcollect] at h
    cases h
    exact ⟨_, rfl, rfl⟩

/-- A chunk without bytes is no chunk to the reader. -/
theorem collect_skip (reader : Reader) (chunks : List Bytes) :
    reader.collect (([] :: chunks).filter (· ≠ [])) = reader.collect (chunks.filter (· ≠ [])) := by
  rw [List.filter_cons_of_neg (by simp)]

/-- What the reader makes of a chunk comes before what it makes of the later ones. -/
theorem collect_taken {reader reader₁ : Reader} {first : Bytes} (hbytes : bytes ≠ [])
    (hfeed : reader.feed bytes = (reader₁, .ok first)) (chunks : List Bytes) :
    reader.collect ((bytes :: chunks).filter (· ≠ [])) =
      (reader₁.collect (chunks.filter (· ≠ []))).map fun (r, more) => (r, first ++ more) := by
  rw [List.filter_cons_of_pos (by simpa using hbytes), Reader.collect, hfeed]

/-- What a body that was read to its end has made of an intake. -/
structure Whole (i : Intake) (limit : Int) (chunks : List Bytes) (data : Bytes) (i' : Intake) :
    Prop where
  reader : i.reader.collect (chunks.filter (· ≠ [])) = .ok (i'.reader, data)
  sound : i'.candidate.Sound
  terms : i'.candidate.terms = i.candidate.terms
  content : i'.candidate.content = i.candidate.content ++ data
  size : (i.candidate.content.length : Int) ≤ i.candidate.terms.maxSize →
    (i'.candidate.content.length : Int) ≤ i.candidate.terms.maxSize
  received : i'.received = i.received + chunks.flatten.length
  limit : chunks.flatten = [] ∨ (i'.received : Int) ≤ limit

/-- Why a body was not read to its end. -/
structure Broken (i : Intake) (limit : Int) (chunks : List Bytes) (e : Failure) : Prop where
  /-- If the reader has nothing against the body, it is too long, or the file is refused. -/
  refused : ∀ reader data, i.reader.collect (chunks.filter (· ≠ [])) = .ok (reader, data) →
    limit < (i.received + chunks.flatten.length : Nat) ∨
      ∃ e', e = .told e' ∧ Candidate.Refused i.candidate.terms (i.candidate.content ++ data) e'
  kind : (∃ e', e = .told e') ∨
    ∃ fault, i.reader.collect (chunks.filter (· ≠ [])) = .error fault ∧ e = Failure.ofForm fault

section Chunk

variable {e : Failure} {taken : Nat} {reader : Reader} {candidate : Candidate} {first : Bytes}

theorem Whole.skip (h : Whole { i with taken } limit chunks data i') :
    Whole i limit ([] :: chunks) data i' where
  reader := (collect_skip i.reader chunks).trans h.reader
  sound := h.sound
  terms := h.terms
  content := h.content
  size := h.size
  received := h.received
  limit := h.limit

theorem Broken.skip (h : Broken { i with taken } limit chunks e) : Broken i limit ([] :: chunks) e where
  refused := by
    rw [collect_skip]
    exact h.refused
  kind := by
    rw [collect_skip]
    exact h.kind

/-- A chunk that was taken, before a body that is read to its end. -/
theorem Whole.later (hbytes : bytes ≠ []) (hfeed : i.reader.feed bytes = (reader, .ok first))
    (hterms : candidate.terms = i.candidate.terms)
    (hcontent : candidate.content = i.candidate.content ++ first)
    (hsize : (i.candidate.content.length : Int) ≤ i.candidate.terms.maxSize →
      (candidate.content.length : Int) ≤ i.candidate.terms.maxSize)
    (hlimit : ((i.received + bytes.length : Nat) : Int) ≤ limit)
    (h : Whole { candidate, reader, received := i.received + bytes.length, taken } limit chunks data i') :
    Whole i limit (bytes :: chunks) (first ++ data) i' where
  reader := by
    rw [collect_taken hbytes hfeed, show reader.collect (chunks.filter (· ≠ [])) = _ from h.reader]
    rfl
  sound := h.sound
  terms := h.terms.trans hterms
  content := by
    rw [h.content, hcontent, List.append_assoc]
  size := by
    intro hfits
    have hlater := h.size (by rw [hterms]; exact hsize hfits)
    rwa [hterms] at hlater
  received := by
    rw [h.received, List.flatten_cons, List.length_append, Nat.add_assoc]
  limit := by
    rcases h.limit with hnil | hlater
    · rw [h.received, hnil]
      exact .inr hlimit
    · exact .inr hlater

/-- A chunk that was taken, before a body that is not. -/
theorem Broken.later (hbytes : bytes ≠ []) (hfeed : i.reader.feed bytes = (reader, .ok first))
    (hterms : candidate.terms = i.candidate.terms)
    (hcontent : candidate.content = i.candidate.content ++ first)
    (h : Broken { candidate, reader, received := i.received + bytes.length, taken } limit chunks e) :
    Broken i limit (bytes :: chunks) e where
  refused := by
    intro reader' data hall
    rw [collect_taken hbytes hfeed] at hall
    obtain ⟨more, hmore, rfl⟩ := collect_cons_ok hall
    have hrefused := h.refused reader' more hmore
    rw [hterms, hcontent, List.append_assoc] at hrefused
    rw [List.flatten_cons, List.length_append, ← Nat.add_assoc]
    exact hrefused
  kind := by
    rcases h.kind with htold | ⟨fault, hfault, he⟩
    · exact .inl htold
    · refine .inr ⟨fault, ?_, he⟩
      rw [collect_taken hbytes hfeed, show reader.collect (chunks.filter (· ≠ [])) = _ from hfault]
      rfl

/-- A chunk that was not taken. -/
theorem Broken.untaken (hbytes : bytes ≠ []) (h : Fed i limit bytes (i', .error e)) :
    Broken i limit (bytes :: chunks) e := by
  have hfilter : (bytes :: chunks).filter (· ≠ []) = bytes :: chunks.filter (· ≠ []) :=
    List.filter_cons_of_pos (by simpa using hbytes)
  cases h with
  | overLimit hlimit =>
    refine ⟨fun _ _ _ => .inl (Int.lt_of_lt_of_le hlimit ?_), .inl ⟨_, rfl⟩⟩
    rw [List.flatten_cons, List.length_append]
    omega
  | unreadable hread =>
    refine ⟨fun reader data hcollect => ?_, .inr ⟨_, by rw [hfilter, Reader.collect, hread], rfl⟩⟩
    rw [hfilter, Reader.collect, hread] at hcollect
    cases hcollect
  | refused hread hrefused =>
    refine ⟨fun reader data hcollect => .inr ⟨_, rfl, ?_⟩, .inl ⟨_, rfl⟩⟩
    rw [collect_taken hbytes hread] at hcollect
    obtain ⟨more, _, rfl⟩ := collect_cons_ok hcollect
    rw [← List.append_assoc]
    exact hrefused.append more

end Chunk

/-- **All chunks of a body.** They are read to the end, or the body is not taken: and if the reader has
nothing against it, for its length or for the file. -/
theorem feedAll_spec (h : i.candidate.Sound) (limit : Int) (chunks : List Bytes) :
    (∃ i' data, i.feedAll limit chunks = (i', .ok ()) ∧ Whole i limit chunks data i') ∨
      ∃ i' e, i.feedAll limit chunks = (i', .error e) ∧ Broken i limit chunks e := by
  induction chunks generalizing i with
  | nil => exact .inl ⟨i, [], rfl, rfl, h, rfl, (List.append_nil _).symm, id, rfl, .inl rfl⟩
  | cons chunk chunks ih =>
    cases chunk with
    | nil =>
      rw [feedAll]
      rcases ih (i := { i with taken := i.taken + 1 }) h with
        ⟨i', data, hfed, hwhole⟩ | ⟨i', e, hfed, hbroken⟩
      · exact .inl ⟨i', data, hfed, hwhole.skip⟩
      · exact .inr ⟨i', e, hfed, hbroken.skip⟩
    | cons b bs =>
      have hbytes : b :: bs ≠ [] := List.cons_ne_nil b bs
      have hfed := feed_fed (i := { i with taken := i.taken + 1 }) h limit (b :: bs)
      rw [feedAll]
      generalize Intake.feed { i with taken := i.taken + 1 } limit (b :: bs) = result at hfed ⊢
      obtain ⟨i₁, e | _⟩ := result
      · have hbroken : Broken { i with taken := i.taken + 1 } limit ((b :: bs) :: chunks) e :=
          .untaken hbytes hfed
        exact .inr ⟨i₁, e, rfl, hbroken.refused, hbroken.kind⟩
      cases hfed with
      | @taken reader candidate first hlimit hread hsound hterms hcontent hsize =>
        rcases ih (i := { candidate, reader, received := i.received + (b :: bs).length, taken := i.taken + 1 })
          hsound with ⟨i', data, hfed, hwhole⟩ | ⟨i', e, hfed, hbroken⟩
        · exact .inl ⟨i', first ++ data, hfed, .later hbytes hread hterms hcontent hsize hlimit hwhole⟩
        · exact .inr ⟨i', e, hfed, .later hbytes hread hterms hcontent hbroken⟩

end Intake

/-! ## Uploads as forms -/

section Receive

variable {Q : Type} {A : Q → Type} {σ : Type} {W : World Q A σ} {G : σ → σ → Prop}
  {post : Attempt → σ → Prop} {s : σ} {p : Pipeline Q A} {request : Http.Request}

/-- The most bytes that a body may have. -/
def Terms.bodyLimit (t : Terms) : Int := t.maxSize + formOverhead

/-- The intake of a form, before its body. -/
def Terms.intake (t : Terms) (boundary : Bytes) : Intake :=
  { candidate := { terms := t }, reader := .start boundary fileField }

/-- An upload that is refused for the length declared for it. -/
theorem receive_declared {e : Failure}
    (h : checkDeclared p.terms.maxSize p.terms.bodyLimit (request.fields.get? "content-length") = .error e) :
    p.receive request = .done { result := .error e } := by
  unfold Terms.bodyLimit at h
  rw [Pipeline.receive, h]

/-- An upload whose headers are in order. -/
theorem receive_eq {boundary : Bytes}
    (hdeclared : checkDeclared p.terms.maxSize p.terms.bodyLimit
      (request.fields.get? "content-length") = .ok ())
    (hboundary : Multipart.boundary (request.fields.get? "content-type") = .ok boundary) :
    p.receive request =
      match (p.terms.intake boundary).feedAll p.terms.bodyLimit request.chunks with
      | (i, .error e) => p.conclude (i.candidate, i.taken, .error e)
      | (i, .ok ()) =>
        p.conclude (i.candidate, i.taken, i.finish p.terms.bodyLimit request.disconnects) := by
  unfold Terms.bodyLimit at hdeclared
  rw [Pipeline.receive, hdeclared, hboundary]
  simp only [Terms.intake, Terms.bodyLimit, Pipeline.candidate]
  generalize Intake.feedAll _ _ _ = fed
  obtain ⟨i, _ | _⟩ := fed
  · rfl
  · rfl

/-- The end of a body within the limit, of which the reader has seen the whole file. -/
theorem finish_ok_iff {i : Intake} {limit : Int} {disconnects : Bool} :
    i.finish limit disconnects = .ok () ↔
      disconnects = false ∧ (i.received : Int) ≤ limit ∧ i.reader.found = true ∧
        i.reader.finished = true := by
  rw [Intake.finish, Intake.checkReceived, Reader.close, ← Int.not_lt]
  cases disconnects with
  | true => simp
  | false =>
    by_cases hlimit : limit < (i.received : Int)
    · simp [hlimit]
    cases hfound : i.reader.found with
    | false => simp [hlimit]
    | true => cases hfinished : i.reader.finished <;> simp [hlimit]

/-- The ways in which a form fails before anything is committed. -/
inductive Failing (terms : Terms) (request : Http.Request) : Failure → Prop
  | declared {e : Failure} :
      checkDeclared terms.maxSize terms.bodyLimit (request.fields.get? "content-length") = .error e →
      Failing terms request e
  | form {fault : Multipart.ReadFault} :
      request.formFault? = some fault → Failing terms request (Failure.ofForm fault)
  | told (e : UploadError) : Failing terms request (.told e)

theorem finish_error {i : Intake} {limit : Int} {disconnects : Bool} {e : Failure}
    (h : i.finish limit disconnects = .error e) : ∃ e', e = .told e' := by
  rw [Intake.finish, Intake.checkReceived] at h
  split at h
  · cases h
    exact ⟨_, rfl⟩
  split at h
  · rename_i hreceived
    cases h
    split at hreceived <;> cases hreceived
    exact ⟨_, rfl⟩
  split at h
  · cases h
  · cases h
    exact ⟨_, rfl⟩

/-- **An upload as a form**: it fails before anything is committed, or it comes to a candidate with the
bytes of its file. -/
theorem receive_cases (p : Pipeline Q A) (request : Http.Request) :
    (∃ a e, a.result = .error e ∧ Failing p.terms request e ∧ p.receive request = .done a) ∨
      ∃ c taken, request.file? = some c.content ∧ c.Sound ∧ c.terms = p.terms ∧
        p.receive request = p.publish c taken := by
  cases hdeclared : checkDeclared p.terms.maxSize p.terms.bodyLimit
      (request.fields.get? "content-length") with
  | error e =>
    exact .inl ⟨{ result := .error e }, e, rfl, .declared hdeclared, receive_declared hdeclared⟩
  | ok =>
    cases hboundary : Multipart.boundary (request.fields.get? "content-type") with
    | error fault =>
      refine .inl ⟨{ result := .error (Failure.ofForm fault) }, _, rfl, .form ?_, ?_⟩
      · rw [Http.Request.formFault?, hboundary]
      unfold Terms.bodyLimit at hdeclared
      rw [Pipeline.receive, hdeclared, hboundary]
    | ok boundary =>
      rw [receive_eq hdeclared hboundary]
      rcases Intake.feedAll_spec (i := p.terms.intake boundary) (Candidate.Sound.fresh p.terms)
        p.terms.bodyLimit request.chunks with ⟨i', data, hfed, hwhole⟩ | ⟨i', e, hfed, hbroken⟩
      · rw [hfed]
        dsimp only
        cases hfinish : i'.finish p.terms.bodyLimit request.disconnects with
        | error e =>
          obtain ⟨e, rfl⟩ := finish_error hfinish
          exact .inl ⟨_, _, rfl, .told e, rfl⟩
        | ok =>
          obtain ⟨_, _, hfound, hfinished⟩ := finish_ok_iff.1 hfinish
          have hcontent : i'.candidate.content = data := hwhole.content
          refine .inr ⟨i'.candidate, i'.taken, ?_, hwhole.sound, hwhole.terms, rfl⟩
          rw [Http.Request.file?, hboundary, hcontent]
          dsimp only
          rw [show (Reader.start boundary fileField).collect _ = _ from hwhole.reader]
          exact if_pos ⟨hfound, hfinished⟩
      · rw [hfed]
        refine .inl ⟨_, e, rfl, ?_, rfl⟩
        rcases hbroken.kind with ⟨e, rfl⟩ | ⟨fault, hfault, rfl⟩
        · exact .told e
        · refine .form ?_
          rw [Http.Request.formFault?, hboundary]
          dsimp only
          rw [show (Reader.start boundary fileField).collect _ = _ from hfault]

/-- It fails, or the bytes of its file are committed under their digest. -/
theorem receive_always (hfailed : ∀ a e, a.result = .error e → post a s)
    (hcommit : ∀ data mime, request.file? = some data → Typed p.terms data mime →
      (p.store.commit (hexOf data) mime { content := data, position := data.length }
          data.length).Always W G
        (fun committed s' => ∀ a, a.result = reported data mime committed.value → post a s') s) :
    (p.receive request).Always W G post s := by
  rcases receive_cases p request with
    ⟨a, e, hresult, -, hdone⟩ | ⟨c, taken, hfile, hsound, hterms, hpublish⟩
  · rw [hdone]
    exact hfailed a e hresult
  · rw [hpublish]
    refine Pipeline.publish_always hsound taken (fun a _ hresult _ _ => hfailed a _ hresult) ?_
    rw [hterms]
    exact fun mime => hcommit c.content mime hfile

/-- No commit of data under their digest fails in a way that the store has no words for. -/
def Pipeline.CommitsTold (p : Pipeline Q A) (answer : (q : Q) → σ → A q × σ) (s : σ) : Prop :=
  ∀ data mime fault,
    ((p.store.commit (hexOf data) mime { content := data, position := data.length }
      data.length).run answer s).1.value ≠ .error (.stray fault)

/-- **Where a stray comes from**, if not from the store: from the declared length, or from the parameters
of the form. -/
theorem receive_stray {answer : (q : Q) → σ → A q × σ} {stray : Stray} (hstore : p.CommitsTold answer s)
    (h : ((p.receive request).run answer s).1.result = .error (.stray stray)) :
    checkDeclared p.terms.maxSize p.terms.bodyLimit (request.fields.get? "content-length") =
        .error (.stray stray) ∨
      ∃ fault, request.formFault? = some (.parameters fault) := by
  rcases receive_cases p request with
    ⟨a, e, hresult, hfailing, hdone⟩ | ⟨c, taken, -, hsound, -, hpublish⟩
  · rw [hdone] at h
    obtain rfl : e = .stray stray := Except.error.inj (hresult.symm.trans h)
    generalize he : Failure.stray stray = e at hfailing
    cases hfailing with
    | declared hdeclared => exact .inl (he ▸ hdeclared)
    | @form fault hform =>
      cases fault with
      | form => cases he
      | parameters fault => exact .inr ⟨fault, hform⟩
    | told => cases he
  · rw [hpublish] at h
    rcases Pipeline.publish_cases hsound taken with ⟨a, mime, hresult, -, -, -, hrefused⟩ |
      ⟨mime, report, -, hreport, hcommit⟩
    · rw [hrefused] at h
      cases hresult.symm.trans h
    · rw [hcommit, Dialogue.run_andThen] at h
      have hnot := hstore c.content mime
      have hresult := (hreport _).1.symm.trans h
      generalize Dialogue.run answer (p.store.commit (hexOf c.content) mime _ _) s = ran at hnot hresult
      cases hvalue : ran.1.value with
      | ok =>
        rw [hvalue] at hresult
        cases hresult
      | error fault =>
        rw [hvalue] at hresult
        cases fault with
        | storage => cases hresult
        | stray fault => exact absurd hvalue (hnot fault)

/-! ## The kinds of failures -/

/-- A failure has a kind of its own, or none covers it. That it is a failure of no particular kind
never happens. -/
def Failure.Specific (e : Failure) : Prop := ∀ text, e ≠ .told (.general text)

section Kinds

variable {c c' : Candidate} {e : Failure} {fault : UploadError} {i i' : Intake} {limit : Int}

@[simp] theorem Failure.specific_told :
    (Failure.told fault).Specific ↔ ∀ text, fault ≠ .general text := by
  simp [Specific]

@[simp] theorem Failure.specific_stray (stray : Stray) : (Failure.stray stray).Specific := by
  simp [Specific]

theorem Candidate.sniff_error (h : c.sniff = (c', .error fault)) :
    ∃ mime, fault = .unsupportedType mime := by
  rw [sniff] at h
  dsimp only at h
  split at h
  · cases h
  · cases h
    exact ⟨_, rfl⟩

theorem Candidate.useSpool_specific {use : SpoolUse} (h : c.useSpool use = .error e) : e.Specific := by
  rw [useSpool] at h
  split at h
  · cases h
    simp
  · cases h

theorem Candidate.feed_specific {chunk : Bytes} (h : c.feed chunk = (c', .error e)) : e.Specific := by
  rw [feed] at h
  dsimp only at h
  split at h
  · cases h
    simp
  split at h
  · rename_i hlook
    cases h
    rw [look] at hlook
    split at hlook
    · cases hlook
    dsimp only at hlook
    split at hlook
    · obtain ⟨mime, rfl⟩ := sniff_error hlook
      simp
    · cases hlook
  · rw [keep] at h
    dsimp only at h
    split at h
    · rename_i huse
      cases h
      exact useSpool_specific huse
    · cases h

theorem Candidate.finish_specific (h : c.finish = (c', .error e)) : e.Specific := by
  rw [finish] at h
  dsimp only at h
  split at h
  · rename_i htold
    cases h
    split at htold
    · cases htold
    · obtain ⟨mime, rfl⟩ := sniff_error (Prod.ext rfl htold)
      simp
  · split at h
    · rename_i huse
      cases h
      exact useSpool_specific huse
    · cases h

theorem Failure.ofForm_specific (fault : Multipart.ReadFault) : (Failure.ofForm fault).Specific := by
  cases fault <;> simp [ofForm]

theorem Failure.ofStore_specific (fault : Store.Fault) : (Failure.ofStore fault).Specific := by
  cases fault <;> simp [ofStore]

theorem checkDeclared_specific {maxSize : Int} {declared : Option String}
    (h : checkDeclared maxSize limit declared = .error e) : e.Specific := by
  unfold checkDeclared at h
  split at h
  · cases h
  split at h
  · cases h
  split at h
  · cases h
    simp
  split at h
  · cases h
    simp
  · cases h

theorem Intake.checkReceived_specific (h : i.checkReceived limit = .error e) : e.Specific := by
  rw [checkReceived] at h
  split at h
  · cases h
    simp
  · cases h

theorem Intake.feed_specific {bytes : Bytes} (h : i.feed limit bytes = (i', .error e)) :
    e.Specific := by
  rw [feed] at h
  dsimp only at h
  split at h
  · rename_i hreceived
    cases h
    exact checkReceived_specific hreceived
  split at h
  · cases h
    exact Failure.ofForm_specific _
  · cases h
  · obtain ⟨_, hfed⟩ := Prod.mk.inj h
    exact Candidate.feed_specific (Prod.ext rfl hfed)

theorem Intake.feedAll_specific {chunks : List Bytes}
    (h : i.feedAll limit chunks = (i', .error e)) : e.Specific := by
  induction chunks generalizing i with
  | nil => cases h
  | cons chunk chunks ih =>
    cases chunk with
    | nil => exact ih h
    | cons b bs =>
      rw [feedAll] at h
      split at h
      · rename_i hfed
        cases h
        exact feed_specific hfed
      · exact ih h

theorem Intake.finish_specific {disconnects : Bool} (h : i.finish limit disconnects = .error e) :
    e.Specific := by
  rw [finish] at h
  split at h
  · cases h
    simp
  split at h
  · rename_i hreceived
    cases h
    exact checkReceived_specific hreceived
  split at h
  · cases h
  · cases h
    simp

section Publishing

variable {Q : Type} {A : Q → Type} {σ : Type} {answer : (q : Q) → σ → A q × σ} {s : σ}
  {p : Pipeline Q A} {taken : Nat}

theorem Pipeline.publish_specific (h : ((p.publish c taken).run answer s).1.result = .error e) :
    e.Specific := by
  rw [publish] at h
  split at h
  · rename_i hfinish
    cases h
    exact Candidate.finish_specific hfinish
  · simp only [bind, Dialogue.run_andThen] at h
    generalize Dialogue.run answer (p.store.commit _ _ _ _) s = committed at h
    obtain ⟨⟨lines, value⟩, s'⟩ := committed
    cases value with
    | error fault =>
      cases h
      exact Failure.ofStore_specific fault
    | ok created => cases h

theorem Pipeline.conclude_specific {ended : Except Failure Unit}
    (hended : ∀ {e}, ended = .error e → e.Specific)
    (h : ((p.conclude (c, taken, ended)).run answer s).1.result = .error e) : e.Specific := by
  cases ended with
  | error fault =>
    cases h
    exact hended rfl
  | ok => exact publish_specific h

/-- **A failed upload has a kind**, or it is a stray. -/
theorem receive_specific {request : Http.Request}
    (h : ((p.receive request).run answer s).1.result = .error e) : e.Specific := by
  rw [Pipeline.receive] at h
  dsimp only at h
  split at h
  · rename_i hdeclared
    cases h
    exact checkDeclared_specific hdeclared
  split at h
  · cases h
    exact Failure.ofForm_specific _
  rw [Pipeline.candidate] at h
  refine Pipeline.conclude_specific (fun hended => ?_) h
  split at hended
  · rename_i hfed
    cases hended
    exact Intake.feedAll_specific (Prod.ext rfl hfed)
  · exact Intake.finish_specific hended

end Publishing

end Kinds

/-! ## What is accepted -/

/-- Whether a form of so many bytes is accepted for its file. -/
structure Terms.Accepts (t : Terms) (length : Nat) (data : Bytes) : Prop where
  body : (length : Int) ≤ t.bodyLimit
  size : (data.length : Int) ≤ t.maxSize
  type : t.admits data = true

/-- A declared length says no more than the body itself. -/
theorem checkDeclared_measured {maxSize limit : Int} {e : Failure} (h : request.Measured)
    (hdeclared : checkDeclared maxSize limit (request.fields.get? "content-length") = .error e) :
    limit < request.chunks.flatten.length := by
  unfold checkDeclared at hdeclared
  split at hdeclared
  · cases hdeclared
  rename_i text htext
  split at hdeclared
  · cases hdeclared
  rw [h text htext] at hdeclared
  dsimp only at hdeclared
  split at hdeclared
  · assumption
  · cases hdeclared

theorem file?_some {data : Bytes} (h : request.file? = some data) :
    ∃ boundary reader, Multipart.boundary (request.fields.get? "content-type") = .ok boundary ∧
      (Reader.start boundary fileField).collect (request.chunks.filter (· ≠ [])) =
        .ok (reader, data) ∧ reader.found = true ∧ reader.finished = true := by
  unfold Http.Request.file? at h
  split at h
  · cases h
  rename_i boundary hboundary
  split at h
  · cases h
  rename_i reader data' hcollect
  split at h
  · rename_i hend
    cases h
    exact ⟨boundary, reader, hboundary, hcollect, hend⟩
  · cases h

/-- **An upload as a form**, of which nothing is missing: its file is committed if it is accepted, and
otherwise the upload fails. -/
theorem receive_exact {data : Bytes} (hmax : 0 ≤ p.terms.maxSize) (hn : 0 ≤ p.terms.sniffBytes)
    (hmeasured : request.Measured) (hwhole : request.disconnects = false)
    (hfile : request.file? = some data)
    (hrefused : ∀ a e, a.result = .error e →
      ¬ p.terms.Accepts request.chunks.flatten.length data → post a s)
    (hcommit : p.terms.Accepts request.chunks.flatten.length data →
      (p.store.commit (hexOf data) (p.terms.typeOf data) { content := data, position := data.length }
          data.length).Always W G
        (fun committed s' => ∀ a,
          a.result = reported data (p.terms.typeOf data) committed.value → post a s') s) :
    (p.receive request).Always W G post s := by
  obtain ⟨boundary, reader, hboundary, hcollect, hfound, hfinished⟩ := file?_some hfile
  cases hdeclared : checkDeclared p.terms.maxSize p.terms.bodyLimit
      (request.fields.get? "content-length") with
  | error e =>
    have hlong := checkDeclared_measured hmeasured hdeclared
    rw [receive_declared hdeclared]
    exact hrefused _ e rfl fun haccepts => Int.not_le.2 hlong haccepts.body
  | ok =>
    rw [receive_eq hdeclared hboundary]
    rcases (Intake.feedAll_spec (i := p.terms.intake boundary) (Candidate.Sound.fresh p.terms)
      p.terms.bodyLimit request.chunks).symm with ⟨i', e, hfed, hbroken⟩ | ⟨i', data', hfed, hall⟩
    · rw [hfed]
      refine hrefused _ e rfl fun haccepts => ?_
      rcases hbroken.refused reader data hcollect with hlong | ⟨e', _, hfault⟩
      · rw [show (p.terms.intake boundary).received = 0 from rfl, Nat.zero_add] at hlong
        exact Int.not_le.2 hlong haccepts.body
      · rcases hfault.not_admitted hn with hlarge | htype
        · exact Int.not_le.2 hlarge haccepts.size
        · exact Bool.false_ne_true (htype.symm.trans haccepts.type)
    have hsame := hall.reader.symm.trans hcollect
    obtain ⟨hreader, rfl⟩ : i'.reader = reader ∧ data' = data := by simpa using hsame
    have hreceived : i'.received = request.chunks.flatten.length := by
      rw [hall.received]
      exact Nat.zero_add _
    have hbody : (i'.received : Int) ≤ p.terms.bodyLimit := by
      rcases hall.limit with hnil | hlimit
      · rw [hreceived, hnil, Terms.bodyLimit, formOverhead]
        exact Int.add_nonneg hmax (by decide)
      · exact hlimit
    have hcontent : i'.candidate.content = data' := hall.content
    have hterms : i'.candidate.terms = p.terms := hall.terms
    have hsize : (data'.length : Int) ≤ p.terms.maxSize := by
      rw [← hcontent]
      exact hall.size hmax
    have hfinish : i'.finish p.terms.bodyLimit request.disconnects = .ok () :=
      finish_ok_iff.2 ⟨hwhole, hbody, hreader ▸ hfound, hreader ▸ hfinished⟩
    rw [hfed]
    dsimp only
    rw [hfinish]
    refine Pipeline.publish_always hall.sound _ ?_ ?_
    · intro a mime hresult hallowed htold
      rw [hterms, hcontent] at htold
      rw [hterms, htold hn] at hallowed
      exact hrefused a _ hresult fun haccepts => Bool.false_ne_true (hallowed.symm.trans haccepts.type)
    · rw [hterms, hcontent]
      intro mime htyped
      rw [htyped.told hn]
      exact hcommit ⟨hreceived ▸ hbody, hsize, htyped.admits hn⟩

end Receive

end Upload

end UploadDepot

/-
What the length that is declared for an upload does to it.

The length is looked at if it is made of digits, and the superscripts are taken
for digits there; but no number is read from a superscript, nor from more than
4300 digits. Such a length ends an upload that was let in, and the upload has no
answer of its own. Any other does what it should: it refuses the upload if it
denotes a number over the limit, and otherwise goes unnoticed
(`declared_length_heeded`).
-/
import UploadDepot.Proofs.Http.Accounting
import UploadDepot.Proofs.Number.Numeral

namespace UploadDepot

open Numeral (IsDecimal decimal)

/-! ## The check of a declared length -/

namespace Upload

variable {text : String} {c : Char} {limit : Int} {declared : Option String}

/-- The superscripts that a header field can hold. -/
def superscripts : List Char := ['\u00B2', '\u00B3', '\u00B9']

/-- A length of digits that no number is read from: there are superscripts among them, or too many. -/
structure Unreadable (text : String) : Prop where
  nonempty : text ≠ ""
  digits : ∀ c ∈ text.toList, c.isDigit = true ∨ c ∈ superscripts
  against : (∃ c ∈ text.toList, c ∈ superscripts) ∨ 4300 < text.length

/-- A length that denotes a number over a limit. -/
def Exceeds (limit : Int) (text : String) : Prop := IsDecimal text ∧ limit < decimal text

theorem isFieldDigit_iff : isFieldDigit c = true ↔ c.isDigit = true ∨ c ∈ superscripts := by
  simp [isFieldDigit, superscripts, or_assoc]

/-- No number is read from a superscript. -/
theorem readInt_of_superscript (hc : c ∈ text.toList) (h : c ∈ superscripts) :
    Numeral.readInt text = .error .malformed := by
  have hother : Text.digitValue? c = none ∧ Numeral.isPadding c = false ∧ c ≠ '-' ∧ c ≠ '+' ∧ c ≠ '_' := by
    simp only [superscripts, List.mem_cons, List.not_mem_nil, or_false] at h
    rcases h with rfl | rfl | rfl <;> decide +kernel
  obtain ⟨hvalue, hpadding, hminus, hplus, hline⟩ := hother
  exact Numeral.readInt_of_mem hc hvalue hpadding hminus hplus hline

theorem Unreadable.readInt (h : Unreadable text) : ∃ fault, Numeral.readInt text = .error fault := by
  by_cases hsuper : ∃ c ∈ text.toList, c ∈ superscripts
  · obtain ⟨c, hc, hsuper⟩ := hsuper
    exact ⟨_, readInt_of_superscript hc hsuper⟩
  · have hdecimal : IsDecimal text :=
      ⟨h.nonempty, fun c hc => (h.digits c hc).resolve_right fun hmem => hsuper ⟨c, hc, hmem⟩⟩
    exact ⟨_, (Numeral.readInt_decimal hdecimal).trans (if_pos (h.against.resolve_left hsuper))⟩

/-- A length of digits is unreadable or denotes a number that is read. -/
theorem readInt_of_readable (hdecimal : IsDecimal text) (h : ¬ Unreadable text) :
    Numeral.readInt text = .ok (decimal text) := by
  refine (Numeral.readInt_decimal hdecimal).trans (if_neg fun hlong => h ?_)
  exact ⟨hdecimal.1, fun c hc => .inl (hdecimal.2 c hc), .inr hlong⟩

/-- What the check of a declared length comes to. -/
inductive Checked (maxSize limit : Int) (declared : Option String) : Except Failure Unit → Prop
  | unreadable {text : String} (fault : Numeral.IntFault) : declared = some text → Unreadable text →
      Checked maxSize limit declared (.error (.stray (.declaredLength fault)))
  | exceeds {text : String} : declared = some text → ¬ Unreadable text → Exceeds limit text →
      Checked maxSize limit declared (.error (.told (.tooLarge maxSize)))
  | ignored : (∀ text ∈ declared, ¬ Unreadable text ∧ ¬ Exceeds limit text) →
      Checked maxSize limit declared (.ok ())

theorem checkDeclared_checked (maxSize limit : Int) (declared : Option String) :
    Checked maxSize limit declared (checkDeclared maxSize limit declared) := by
  cases declared with
  | none => exact .ignored fun text h => absurd h (Option.not_mem_none text)
  | some text =>
    rw [checkDeclared]
    by_cases hunreadable : Unreadable text
    · obtain ⟨fault, hread⟩ := hunreadable.readInt
      have hdigits : text.toList.all isFieldDigit = true :=
        List.all_eq_true.2 fun c hc => isFieldDigit_iff.2 (hunreadable.digits c hc)
      rw [if_neg (by simp [hunreadable.nonempty, hdigits]), hread]
      exact .unreadable fault rfl hunreadable
    have hreadable : ¬ Exceeds limit text → Checked maxSize limit (some text) (.ok ()) :=
      fun hexceeds => .ignored fun _ h => Option.some.inj h ▸ ⟨hunreadable, hexceeds⟩
    by_cases hdecimal : IsDecimal text
    · have hdigits : text.toList.all isFieldDigit = true :=
        List.all_eq_true.2 fun c hc => isFieldDigit_iff.2 (.inl (hdecimal.2 c hc))
      rw [if_neg (by simp [hdecimal.1, hdigits]), readInt_of_readable hdecimal hunreadable]
      dsimp only
      split
      · rename_i hlimit
        exact .exceeds rfl hunreadable ⟨hdecimal, hlimit⟩
      · rename_i hlimit
        exact hreadable fun hexceeds => hlimit hexceeds.2
    · -- Digits alone would be decimal, and with superscripts among them unreadable.
      have hpassed : text = "" ∨ text.toList.all isFieldDigit = false := by
        by_contra hlooked
        obtain ⟨hnonempty, hdigits⟩ := not_or.1 hlooked
        have hdigits : ∀ c ∈ text.toList, c.isDigit = true ∨ c ∈ superscripts := fun c hc =>
          isFieldDigit_iff.1 (List.all_eq_true.1 (Bool.of_not_eq_false hdigits) c hc)
        refine hunreadable ⟨hnonempty, hdigits, .inl ?_⟩
        by_contra hnone
        exact hdecimal ⟨hnonempty, fun c hc =>
          (hdigits c hc).resolve_right fun hmem => hnone ⟨c, hc, hmem⟩⟩
      rw [if_pos hpassed]
      exact hreadable fun hexceeds => hdecimal hexceeds.1

end Upload

namespace Http

open RateLimit (WholeSeconds)
open Store (Disk)
open Upload (Exceeds Pipeline Terms Unreadable checkDeclared)

/-! ## Requests without a field -/

/-- The fields without those of a name. -/
def Fields.without (fs : Fields) (name : String) : Fields :=
  fs.filter fun f => Text.lowerString f.1 ≠ Text.lowerString name

/-- The same request without a declared length. -/
def Request.undeclared (r : Request) : Request :=
  { r with fields := r.fields.without "content-length" }

section Undeclared

variable {Q : Type} {A : Q → Type} {τ : Type} {p : Pipeline Q A} {request : Request}

theorem Fields.get?_without_self (fs : Fields) (name : String) : (fs.without name).get? name = none := by
  simp [Fields.get?, Fields.without]

theorem Fields.get?_without {name other : String} (h : Text.lowerString other ≠ Text.lowerString name)
    (fs : Fields) : (fs.without name).get? other = fs.get? other := by
  rw [Fields.get?, Fields.get?, Fields.without, List.find?_filter]
  refine congrArg (Option.map _) (congrArg (fs.find? ·) (funext fun f => ?_))
  by_cases hf : Text.lowerString f.1 = Text.lowerString other <;> simp [hf, h]

theorem clientAddress_undeclared :
    clientAddress request.undeclared.fields request.undeclared.peer =
      clientAddress request.fields request.peer := by
  have hfor : Text.lowerString "x-forwarded-for" ≠ Text.lowerString "content-length" := by decide +kernel
  have hforwarded : Text.lowerString "forwarded" ≠ Text.lowerString "content-length" := by decide +kernel
  simp only [clientAddress, forwardedFor?, forwarded?, Request.undeclared, Fields.get?_without hfor,
    Fields.get?_without hforwarded]

/-- A declared length that passes the check goes unnoticed. -/
theorem receive_undeclared
    (h : checkDeclared p.terms.maxSize p.terms.bodyLimit (request.fields.get? "content-length") = .ok ()) :
    p.receive request = p.receive request.undeclared := by
  have htype : Text.lowerString "content-type" ≠ Text.lowerString "content-length" := by decide +kernel
  have hpassed : ∀ maxSize limit : Int,
      checkDeclared maxSize limit (request.undeclared.fields.get? "content-length") = .ok () := by
    intro maxSize limit
    rw [Request.undeclared, Fields.get?_without_self]
    rfl
  have hsame : request.undeclared.fields.get? "content-type" = request.fields.get? "content-type" :=
    Fields.get?_without htype request.fields
  unfold Terms.bodyLimit at h
  rw [Pipeline.receive, Pipeline.receive, h, hpassed, hsame]
  rfl

variable [Sub τ] [LE τ] [DecidableLE τ] [WholeSeconds τ]

theorem handle_undeclared {site : Site τ} {now : τ} (hupload : request.IsUpload)
    (h : checkDeclared p.terms.maxSize p.terms.bodyLimit (request.fields.get? "content-length") = .ok ()) :
    site.handle p request now = site.handle p request.undeclared now := by
  have hupload' : request.undeclared.IsUpload := hupload
  rw [handle_upload hupload, handle_upload hupload', Site.upload, Site.upload, receive_undeclared h,
    clientAddress_undeclared]

end Undeclared

/-- The parameters in a form that says what its parts are can be read. -/
theorem legible_of_form {request : Request} {f : Multipart.Form}
    (hboundary : Multipart.boundary (request.fields.get? "content-type") = .ok f.boundary)
    (hbody : request.chunks.flatten = f.encode) : request.Legible := by
  obtain ⟨r, hcollect, -⟩ := collect_form hbody
  intro fault hfault
  rw [Request.formFault?, hboundary] at hfault
  dsimp only at hfault
  rw [hcollect] at hfault
  cases hfault

/-! ## Uploads with a declared length -/

section Heeded

variable {Q : Type} {A : Q → Type} {σ τ : Type}

/-- An upload has ended in a reference or in a failure of an upload, and is answered so. -/
def Exchange.Ended (e : Exchange) : Prop :=
  e.escaped = none ∧
    ((∃ ref, e.response = stored ref) ∨ ∃ failure, e.response = (rejected failure).response)

/-- What is made of the length that is declared for an upload that was let in: how the upload is handled,
next to how it would have been handled without. -/
structure Heeded (terms : Terms) (declared : Option String) (entered : Site τ) (s : σ)
    (handled undeclared : (Exchange × Site τ) × σ) : Prop where
  /-- What no number is read from ends the upload, which is answered as what goes wrong in the service,
  and not counted. -/
  unreadable : ∀ text ∈ declared, Unreadable text →
    ∃ fault, handled = ((broken (.upload (.declaredLength fault)), entered), s)
  /-- A number over the limit refuses the upload. -/
  exceeds : ∀ text ∈ declared, ¬ Unreadable text → Exceeds (terms.maxSize + 65536) text →
    handled = ((rejected (.tooLarge terms.maxSize), entered.count .tooLarge), s)
  /-- Any other length makes no difference. -/
  ignored : (∀ text ∈ declared, ¬ Unreadable text ∧ ¬ Exceeds (terms.maxSize + 65536) text) →
    handled = undeclared
  ended : (∀ text ∈ declared, ¬ Unreadable text) → handled.1.1.Ended
  /-- The check of the length fails in no other way. -/
  check : Upload.Checked terms.maxSize (terms.maxSize + 65536) declared
    (checkDeclared terms.maxSize (terms.maxSize + 65536) declared)

/-- An upload that ends in a reference or in a failure of an upload is answered so. -/
theorem conclude_ended (site : Site τ) {attempt : Upload.Attempt}
    (h : ∀ stray, attempt.result ≠ .error (.stray stray)) : (site.conclude attempt).1.Ended := by
  rw [Site.conclude]
  split
  · exact ⟨rfl, .inl ⟨_, rfl⟩⟩
  · exact ⟨rfl, .inr ⟨_, rfl⟩⟩
  · rename_i stray hresult
    exact absurd hresult (h stray)

variable [Sub τ] [LE τ] [DecidableLE τ] [WholeSeconds τ] {site : Site τ} {p : Pipeline Q A}
  {answer : (q : Q) → σ → A q × σ} {s : σ} {request : Request} {now : τ}

/-- **The declared length of an upload.** Of an upload that was let in, in any chunks, a length that is
unreadable is all that can leave it without an answer of its own; a number over the limit refuses it, and
any other length makes no difference. -/
theorem declared_length_heeded (hupload : request.IsUpload)
    (hadmitted : (site.gate.limiter.call .uploadFile (clientAddress request.fields request.peer) now).1 =
      .ok .allowed)
    (hlegible : request.Legible) (hstore : p.CommitsTold answer s) :
    Heeded p.terms (request.fields.get? "content-length")
      (site.deciding (clientAddress request.fields request.peer) now .allowed) s
      ((site.handle p request now).run answer s)
      ((site.handle p request.undeclared now).run answer s) := by
  have hcheck := Upload.checkDeclared_checked p.terms.maxSize p.terms.bodyLimit
    (request.fields.get? "content-length")
  have hhandled : (site.handle p request now).run answer s =
      ((site.deciding (clientAddress request.fields request.peer) now .allowed).conclude
          ((p.receive request).run answer s).1,
        ((p.receive request).run answer s).2) := handle_admitted hupload rfl hadmitted
  have hended : (∀ text ∈ request.fields.get? "content-length", ¬ Unreadable text) →
      ((site.handle p request now).run answer s).1.1.Ended := by
    intro hreadable
    rw [hhandled]
    refine conclude_ended _ fun stray hstray => ?_
    rcases Upload.receive_stray hstore hstray with hdeclared | ⟨fault, hfault⟩
    · rw [hdeclared] at hcheck
      cases hcheck with
      | unreadable fault htext hunreadable => exact hreadable _ htext hunreadable
    · exact hlegible fault hfault
  have hchecked := hcheck
  generalize hresult : checkDeclared p.terms.maxSize p.terms.bodyLimit _ = result at hchecked
  cases hchecked with
  | @unreadable text fault htext hunreadable =>
    rw [Upload.receive_declared hresult] at hhandled
    refine ⟨fun _ _ _ => ⟨fault, hhandled⟩, fun text' htext' hreadable _ => ?_, fun hall => ?_, hended, hcheck⟩
    · exact absurd hunreadable (Option.mem_unique htext htext' ▸ hreadable)
    · exact absurd hunreadable (hall text htext).1
  | @exceeds text htext hreadable hexceeds =>
    rw [Upload.receive_declared hresult] at hhandled
    refine ⟨fun text' htext' hunreadable => ?_, fun _ _ _ _ => hhandled, fun hall => ?_, hended, hcheck⟩
    · exact absurd hunreadable (Option.mem_unique htext htext' ▸ hreadable)
    · exact absurd hexceeds (hall text htext).2
  | ignored hall =>
    refine ⟨fun text htext hunreadable => ?_, fun text htext _ hexceeds => ?_, fun _ => ?_, hended, hcheck⟩
    · exact absurd hunreadable (hall text htext).1
    · exact absurd hexceeds (hall text htext).2
    · rw [handle_undeclared hupload hresult]

end Heeded

/-! ## The form of two parts -/

theorem small_told : smallPipeline.CommitsTold Disk.answer smallDisk := by
  intro data mime fault hfault
  obtain ⟨created, hvalue, -⟩ :=
    (commit_exact (p := smallPipeline) rfl small_straight small_bare.ready small_usable data mime).run
  rw [hvalue] at hfault
  cases hfault

/-- The length that is declared for the form of two parts is its own. -/
theorem declared_length_heeded_two :
    twoPost.IsUpload ∧
      (onceSite.gate.limiter.call .uploadFile (clientAddress twoPost.fields twoPost.peer) 0).1 =
        .ok .allowed ∧
      twoPost.Legible ∧ smallPipeline.CommitsTold Disk.answer smallDisk ∧
      ((onceSite.handle smallPipeline twoPost 0).run Disk.answer smallDisk).1.1.Ended ∧
      (onceSite.handle smallPipeline twoPost 0).run Disk.answer smallDisk =
        (onceSite.handle smallPipeline twoPost.undeclared 0).run Disk.answer smallDisk := by
  have hadmitted : (onceSite.gate.limiter.call .uploadFile
      (clientAddress twoPost.fields twoPost.peer) 0).1 = .ok .allowed := by decide +kernel
  have hlegible : twoPost.Legible := legible_of_form two_sends.boundary two_sends.body
  have hheeded := declared_length_heeded two_sends.upload hadmitted hlegible small_told
  have hlength : twoPost.fields.get? "content-length" = some "159" := by decide +kernel
  have hread : ∀ text ∈ twoPost.fields.get? "content-length", ¬ Unreadable text ∧
      ¬ Exceeds (smallPipeline.terms.maxSize + 65536) text := by
    intro text htext
    rw [hlength] at htext
    cases htext
    refine ⟨fun h => ?_, fun h => ?_⟩
    · have hplain : "159".toList.all (· ∉ Upload.superscripts) = true := by decide +kernel
      rcases h.against with ⟨c, hc, hsuper⟩ | hlong
      · exact of_decide_eq_true (List.all_eq_true.1 hplain c hc) hsuper
      · exact absurd hlong (by decide)
    · have hvalue : ¬ smallPipeline.terms.maxSize + 65536 < (decimal "159" : Int) := by decide +kernel
      exact hvalue h.2
  exact ⟨two_sends.upload, hadmitted, hlegible, small_told, hheeded.ended fun text h => (hread text h).1,
    hheeded.ignored hread⟩

/-- The form of two parts, whose length is declared as a superscript. -/
def superscriptPost : Request :=
  { twoPost with
    fields := [("Content-Type", "multipart/form-data; boundary=bound"), ("Content-Length", "\u00B2")] }

/-- A superscript passes for digits and is then no number, so the upload ends without an answer of its own;
without the declared length its file is stored. -/
theorem superscript_length_escapes :
    let handled := ((onceSite.handle smallPipeline superscriptPost 0).run Disk.answer smallDisk).1
    let without := ((onceSite.handle smallPipeline superscriptPost.undeclared 0).run Disk.answer smallDisk).1
    superscriptPost.IsUpload ∧
      (onceSite.gate.limiter.call .uploadFile
        (clientAddress superscriptPost.fields superscriptPost.peer) 0).1 = .ok .allowed ∧
      superscriptPost.chunks.flatten = twoParts.encode ∧
      smallPipeline.CommitsTold Disk.answer smallDisk ∧
      superscriptPost.fields.get? "content-length" = some "\u00B2" ∧
      handled.1.escaped = some (.upload (.declaredLength .malformed)) ∧
      handled.1.response.status = 500 ∧ ¬ handled.1.Ended ∧ without.1.response.status = 201 := by
  have hescaped : ((onceSite.handle smallPipeline superscriptPost 0).run Disk.answer smallDisk).1.1.escaped =
      some (.upload (.declaredLength .malformed)) := by decide +kernel
  refine ⟨two_sends.upload, by decide +kernel, two_sends.body, small_told, by decide +kernel, hescaped,
    by decide +kernel, fun hended => ?_, by decide +kernel⟩
  cases hescaped.symm.trans hended.1

end Http

end UploadDepot

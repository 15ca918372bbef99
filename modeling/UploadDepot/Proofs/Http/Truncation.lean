/-
Uploads that break off.

An upload whose body does not hold its whole file fails, and leaves the store
as it was, whatever the store is and whatever it would have answered
(`upload_without_file`): nothing of the file goes to the store before all of
it has come. A form that is cut short has no whole file
(`cut_upload_not_published`).
-/
import UploadDepot.Proofs.Http.Acceptance
import UploadDepot.Proofs.Multipart.Truncation

namespace UploadDepot.Http

open Multipart (Form Reader)
open RateLimit (WholeSeconds)
open Store (Disk)
open Upload (Pipeline fileField)

variable {Q : Type} {A : Q → Type} {σ τ : Type} {f : Form} {request : Request} {sent : Bytes}

/-- The upload of a form that is cut short has no file, if all that is sent is before the cut. -/
theorem file?_of_cutShort (h : f.CutShort fileField sent)
    (hboundary : Multipart.boundary (request.fields.get? "content-type") = .ok f.boundary)
    (hchunks : request.chunks.flatten = sent) : request.file? = none := by
  have hfilled : (request.chunks.filter (· ≠ [])).flatten = sent := by
    rw [List.flatten_filter_ne_nil, hchunks]
  obtain ⟨r, data, hcollect, hfinished⟩ := Multipart.collect_cut (by decide) h hfilled
  rw [Request.file?, hboundary]
  dsimp only
  rw [hcollect]
  exact if_neg fun hend => Bool.false_ne_true (hfinished.symm.trans hend.2)

variable [Sub τ] [LE τ] [DecidableLE τ] [WholeSeconds τ]

/-- An upload without a whole file is answered with an error, and asks the store for nothing. -/
theorem upload_without_file (site : Site τ) (p : Pipeline Q A) (now : τ)
    (answer : (q : Q) → σ → A q × σ) (s : σ) (h : request.IsUpload) (hfile : request.file? = none) :
    400 ≤ ((site.handle p request now).run answer s).1.1.response.status ∧
      ((site.handle p request now).run answer s).2 = s := by
  let post : Exchange × Site τ → σ → Prop := fun answered s' => 400 ≤ answered.1.response.status ∧ s' = s
  suffices halways : (site.handle p request now).Always (Dialogue.exactly answer) (fun _ _ => True) post s
    from halways.run
  rw [handle_upload h, Site.upload]
  dsimp only
  split
  · rename_i fault _
    exact ⟨turnedAway_status fault, rfl⟩
  · refine Dialogue.Always.bind (Upload.receive_always ?_ ?_)
    · exact fun _ _ hfailed => ⟨conclude_failed hfailed, rfl⟩
    · intro data mime hsome
      rw [hfile] at hsome
      cases hsome

/-- **What is cut short is never published.** Of a form that is cut off before the last byte of the
delimiter after its file, in any chunks, the reader takes every chunk and refuses the end. An upload
of it, ended or broken off there, does not succeed and leaves the store as it was, for every site,
every pipeline and every store. -/
theorem cut_upload_not_published (site : Site τ) (p : Pipeline Q A) (answer : (q : Q) → σ → A q × σ)
    (s : σ) {field : String} (hfield : field ≠ "") (h : f.CutShort field sent) :
    (∀ chunks : List Bytes, chunks.flatten = sent →
      ∃ r each, (Reader.start f.boundary field).feedEach chunks = .ok (r, each) ∧
        r.close = .error (if r.found then .truncated else .missingField field)) ∧
    (field = fileField → ∀ (request : Request) (now : τ), request.IsUpload →
      Multipart.boundary (request.fields.get? "content-type") = .ok f.boundary →
      request.chunks.flatten = sent →
      ¬ ((site.handle p request now).run answer s).1.1.response.Succeeds ∧
        ((site.handle p request now).run answer s).2 = s) := by
  refine ⟨fun chunks hchunks => Multipart.reader_refuses_cut hfield h hchunks, ?_⟩
  rintro rfl request now hupload hboundary hchunks
  obtain ⟨hstatus, hsame⟩ :=
    upload_without_file site p now answer s hupload (file?_of_cutShort h hboundary hchunks)
  refine ⟨?_, hsame⟩
  rintro (hok | hok) <;> omega

/-! ## A form without its last hyphen -/

/-- All but the last hyphen and the line break after it. -/
def allButLast : Bytes := twoParts.encode.take 156

theorem allButLast_cutShort : twoParts.CutShort fileField allButLast := by
  refine ⟨List.take_prefix _ _, [notePart], gifPart, [], rfl, ?_, ?_, by decide +kernel⟩
  · exact ⟨⟨nameParameter, List.mem_cons_of_mem _ List.mem_cons_self, by decide +kernel, by decide +kernel⟩,
      "a.gif".toList, filenameParameter, List.mem_cons_self, by decide +kernel, by decide +kernel⟩
  · intro q hq
    obtain rfl := List.mem_singleton.1 hq
    rintro ⟨-, filename, q, hq, hname, -⟩
    obtain rfl := List.mem_singleton.1 hq
    exact absurd hname (by decide +kernel)

/-- The form of two parts is refused without its last hyphen, byte by byte and from a client that goes
away there. -/
theorem cut_upload_not_published_two :
    let request : Request := { twoPost with chunks := [allButLast], disconnects := true }
    twoParts.CutShort fileField allButLast ∧ (fileField ≠ "") ∧
      (∃ r each, (Reader.start twoParts.boundary fileField).feedEach (allButLast.map fun b => [b]) =
        .ok (r, each) ∧ r.close = .error (if r.found then .truncated else .missingField fileField)) ∧
      ¬ ((smallSite.handle smallPipeline request 0).run Disk.answer smallDisk).1.1.response.Succeeds ∧
      ((smallSite.handle smallPipeline request 0).run Disk.answer smallDisk).2 = smallDisk := by
  intro request
  have hbytes : (allButLast.map fun b => [b]).flatten = allButLast := by
    rw [← List.flatMap_def, List.flatMap_singleton']
  have hone : request.chunks.flatten = allButLast := by
    simp [request]
  obtain ⟨hreader, hupload⟩ := cut_upload_not_published smallSite smallPipeline Disk.answer
    smallDisk (by decide) allButLast_cutShort
  exact ⟨allButLast_cutShort, by decide, hreader _ hbytes,
    hupload rfl request 0 two_sends.upload two_sends.boundary hone⟩

end UploadDepot.Http

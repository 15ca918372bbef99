/-
Which uploads are accepted, and how they are answered.

A form that is sent in chunks has the file that it says (`Sends.file?`). Its
upload is accepted for the length of the body, the length of the file and its
type alone, and the answer to it tells whether the file was there before
(`upload_accepted`).
-/
import UploadDepot.Proofs.Http.Serving
import UploadDepot.Proofs.Multipart.Form
import UploadDepot.Proofs.Upload.Integrity

namespace UploadDepot.Http

open Header (Disposition)
open Multipart (Form HeaderLine)
open RateLimit (WholeSeconds)
open Sha256 (hexOf)
open Store (Disk DiskRequest DiskWorld FileStore slot)
open Upload (Arrival Attempt Pipeline Ref Terms fileField)

/-! ## Disks with uploads -/

/-- A disk that uploads have left, beginning with an empty root: files that came in any way, to any
pipeline into the store. Links may have failed. -/
inductive Stocked (files : FileStore) : Disk → Prop
  | bare {d : Disk} : files.Bare d → files.Usable d.tree → Stocked files d
  | uploaded {d d' : Disk} {p : Pipeline DiskRequest DiskRequest.Reply} {arrival : Arrival}
      {attempt : Attempt} : Stocked files d → p.store = files.store →
      Dialogue.Reaches (DiskWorld (·.kind ≠ .alreadyThere)) (arrival.upload p, d) (.done attempt, d') →
      Stocked files d'
  | received {d d' : Disk} {p : Pipeline DiskRequest DiskRequest.Reply} {request : Request}
      {attempt : Attempt} : Stocked files d → p.store = files.store →
      Dialogue.Reaches (DiskWorld (·.kind ≠ .alreadyThere)) (p.receive request, d) (.done attempt, d') →
      Stocked files d'

/-- Uploads leave a disk that can be used. -/
theorem Stocked.ready {files : FileStore} {d : Disk} (hs : files.Straight) (h : Stocked files d) :
    files.Ready d ∧ files.Usable d.tree := by
  let keeps : Attempt → Disk → Prop := fun _ d => files.Ready d ∧ files.Usable d.tree
  let anyStep : Disk → Disk → Prop := fun _ _ => True
  have hcommit : ∀ {d : Disk} {p : Pipeline DiskRequest DiskRequest.Reply}, p.store = files.store →
      files.Ready d ∧ files.Usable d.tree → ∀ (data : Bytes) (mime : String),
      (p.store.commit (hexOf data) mime { content := data, position := data.length }
          data.length).Always (DiskWorld (·.kind ≠ .alreadyThere)) anyStep
        (fun committed d' => ∀ a : Attempt,
          a.result = Upload.reported data mime committed.value → keeps a d') d := by
    intro d p hstore hready data mime
    rw [hstore]
    have hspool : hexOf data = hexOf (Store.Spool.content { content := data, position := data.length }) :=
      rfl
    have hcommit := FileStore.commit_always hready.1 hs hspool fun _ => id
    refine Dialogue.Always.weaken (hcommit.imp ?_) fun _ _ _ => trivial
    exact fun committed d' hc _ _ => ⟨hc.ready, hc.usable hready.2⟩
  induction h with
  | bare hbare husable => exact ⟨hbare.ready, husable⟩
  | @uploaded d _ p arrival _ _ hstore hreaches ih =>
    have halways : (arrival.upload p).Always (DiskWorld (·.kind ≠ .alreadyThere)) anyStep keeps d :=
      arrival.upload_always (fun _ _ _ => ih) fun data mime _ => hcommit hstore ih data mime
    have hend := Dialogue.Always.reaches (fun _ => trivial) (fun _ _ => trivial) hreaches halways
    exact hend.2
  | @received d _ p request _ _ hstore hreaches ih =>
    have halways : (p.receive request).Always (DiskWorld (·.kind ≠ .alreadyThere)) anyStep keeps d :=
      Upload.receive_always (fun _ _ _ => ih) fun data mime _ _ => hcommit hstore ih data mime
    have hend := Dialogue.Always.reaches (fun _ => trivial) (fun _ _ => trivial) hreaches halways
    exact hend.2

/-! ## Forms in chunks -/

/-- An upload that sends a form, in chunks of any size, to its end. -/
structure Sends (request : Request) (f : Form) : Prop where
  upload : request.IsUpload
  boundary : Multipart.boundary (request.fields.get? "content-type") = .ok f.boundary
  body : request.chunks.flatten = f.encode
  measured : request.Measured
  whole : request.disconnects = false

/-- What the reader makes of a form in chunks, of which some may be empty. -/
theorem collect_form {request : Request} {f : Form} (hbody : request.chunks.flatten = f.encode) :
    ∃ r, (Multipart.Reader.start f.boundary fileField).collect (request.chunks.filter (· ≠ [])) =
      .ok (r, (f.file? fileField).getD []) ∧ r.Done (f.file? fileField) :=
  Multipart.collect_encode f fileField (by rw [List.flatten_filter_ne_nil, hbody])

/-- The file of a form is the one that it says. -/
theorem Sends.file? {request : Request} {f : Form} (h : Sends request f) :
    request.file? = f.file? fileField := by
  obtain ⟨r, hcollect, hfound, hfinished⟩ := collect_form h.body
  rw [Request.file?, h.boundary]
  dsimp only
  rw [hcollect]
  dsimp only
  rw [hfound, hfinished]
  cases f.file? fileField with
  | none => rfl
  | some data => rfl

/-! ## Acceptance -/

section Acceptance

variable {files : FileStore} {p : Pipeline DiskRequest DiskRequest.Reply} {terms : Terms} {τ : Type}
  {site : Site τ} {d d' : Disk} {request : Request} {response : Response} {f : Form} {now : τ}
  {length : Nat} {data : Bytes}

/-- The answer to an upload that was not refused. -/
def Response.Succeeds (r : Response) : Prop := r.status = 200 ∨ r.status = 201

/-- How a form of so many bytes is answered for its file, on a disk that holds certain objects. -/
structure Answered (files : FileStore) (terms : Terms) (length : Nat) (data : Bytes) (d : Disk)
    (response : Response) (d' : Disk) : Prop where
  succeeds : response.Succeeds ↔
    (length : Int) ≤ terms.maxSize + 65536 ∧ (data.length : Int) ≤ terms.maxSize ∧
      Media.isAllowed (terms.sniff (data.take terms.sniffBytes.toNat)) terms.allowed = true
  reports : response.Succeeds →
    response = stored { hash := hexOf data
                        mime := terms.sniff (data.take terms.sniffBytes.toNat)
                        size := data.length
                        duplicate := (files.objects d (slot (hexOf data))).isSome }
  /-- If there was no object of the digest, the file is the object from then on. -/
  fresh : response.Succeeds → files.objects d (slot (hexOf data)) = none →
    response.status = 201 ∧ files.objects d' (slot (hexOf data)) = some data
  duplicate : response.Succeeds → (files.objects d (slot (hexOf data))).isSome = true →
    response.status = 200

theorem Answered.refused (h : ¬ terms.Accepts length data) (hstatus : 400 ≤ response.status) :
    Answered files terms length data d response d' := by
  have hnot : ¬ response.Succeeds := by
    rintro (hok | hok) <;> omega
  refine ⟨⟨fun hok => absurd hok hnot, ?_⟩, fun hok => absurd hok hnot, fun hok => absurd hok hnot,
    fun hok => absurd hok hnot⟩
  rintro ⟨hbody, hsize, htype⟩
  exact absurd ⟨hbody, hsize, htype⟩ h

theorem Answered.accepted (h : terms.Accepts length data) {duplicate : Bool}
    (hduplicate : duplicate = (files.objects d (slot (hexOf data))).isSome)
    (hresponse : response =
      stored { hash := hexOf data, mime := terms.typeOf data, size := data.length, duplicate })
    (hafter : files.objects d (slot (hexOf data)) = none →
      files.objects d' (slot (hexOf data)) = some data) :
    Answered files terms length data d response d' := by
  have hstatus : response.status = if duplicate then 200 else 201 := by rw [hresponse, stored_status]
  have hok : response.Succeeds := by
    rw [Response.Succeeds, hstatus]
    cases duplicate with
    | true => exact .inl rfl
    | false => exact .inr rfl
  refine ⟨⟨fun _ => ⟨h.body, h.size, h.type⟩, fun _ => hok⟩, fun _ => ?_, fun _ hnone => ?_,
    fun _ hsome => ?_⟩
  · rw [hresponse, hduplicate, Terms.typeOf]
  · rw [hnone] at hduplicate
    rw [hstatus, hduplicate]
    exact ⟨rfl, hafter hnone⟩
  · rw [hsome] at hduplicate
    rw [hstatus, hduplicate]
    rfl

variable [Sub τ] [LE τ] [DecidableLE τ] [WholeSeconds τ]

theorem handle_upload {Q : Type} {A : Q → Type} {p : Pipeline Q A} (h : request.IsUpload) :
    site.handle p request now = site.upload p request now := by
  rw [Site.handle, h.1]
  exact if_neg fun hne => hne h.2

/-- **Which uploads are accepted.** On a disk that uploads have left, a form with a file is accepted if
its body, its file and the type of its file allow it, however it is cut into chunks. It is answered
with the digest, the type and the length of the file, and with whether there was an object of the
digest; if there was none, the file is the object from then on. -/
theorem upload_accepted (hs : files.Straight) (hstocked : Stocked files d) (hstore : p.store = files.store)
    (hmax : 0 ≤ p.terms.maxSize) (hn : 0 ≤ p.terms.sniffBytes) (hsends : Sends request f)
    (hadmitted : (site.gate.enter .uploadFile (clientAddress request.fields request.peer) now).1.value =
      .ok ())
    (hfile : f.file? fileField = some data) :
    Answered files p.terms f.encode.length data d
      ((site.handle p request now).run Disk.answer d).1.1.response
      ((site.handle p request now).run Disk.answer d).2 := by
  obtain ⟨hready, husable⟩ := hstocked.ready hs
  have hlen : request.chunks.flatten.length = f.encode.length := by rw [hsends.body]
  let post : Exchange × Site τ → Disk → Prop := fun answered d' =>
    Answered files p.terms f.encode.length data d answered.1.response d'
  suffices halways : (site.handle p request now).Always (Dialogue.exactly Disk.answer)
      (fun _ _ => True) post d from halways.run
  rw [handle_upload hsends.upload, Site.upload]
  dsimp only
  rw [hadmitted]
  refine Dialogue.Always.bind ?_
  refine Upload.receive_exact hmax hn hsends.measured hsends.whole (hsends.file?.trans hfile) ?_ ?_
  · intro a e ha hrefused
    exact .refused (hlen ▸ hrefused) (conclude_failed ha)
  rw [hlen]
  intro haccepts
  refine (commit_exact hstore hs hready husable data _).imp ?_
  intro committed d' ⟨created, hvalue, _, _, hcommits⟩ a ha
  rw [hvalue] at ha
  show Answered files p.terms f.encode.length data d (Site.conclude _ a).1.response d'
  cases hcommits with
  | created hnone hafter _ =>
    refine .accepted haccepts ?_ (conclude_stored ha) fun _ => hafter
    rw [hnone]
    rfl
  | present hold _ =>
    refine .accepted haccepts ?_ (conclude_stored ha) fun hnone => ?_
    · rw [hold]
      rfl
    rw [hold] at hnone
    cases hnone

end Acceptance

/-! ## A form of two parts -/

/-- The line of a disposition, as browsers write it. -/
def dispositionLine (d : Disposition) (unbroken : Multipart.cr ∉ d.value) : HeaderLine where
  name := { bytes := Bytes.ofText "Content-Disposition"
            nonempty := by decide +kernel
            isToken := by decide +kernel }
  spaces := 1
  value := d.value
  unbroken := unbroken
  unindented := by
    have hhead : (Bytes.ofText "form-data").head? = some 0x66 := by decide +kernel
    rw [Disposition.value, List.head?_append, hhead, Option.some_or]
    decide

def nameParameter : Header.Parameter where
  spaces := 1
  key := { bytes := Bytes.ofText "name", nonempty := by decide +kernel, isToken := by decide +kernel }
  word := { token := { bytes := Bytes.ofText "file"
                       nonempty := by decide +kernel
                       isToken := by decide +kernel }
            quoted := true }
  unstarred := by decide +kernel

def filenameParameter : Header.Parameter where
  spaces := 0
  key := { bytes := Bytes.ofText "FileName"
           nonempty := by decide +kernel
           isToken := by decide +kernel }
  word := { token := { bytes := Bytes.ofText "a.gif"
                       nonempty := by decide +kernel
                       isToken := by decide +kernel }
            quoted := false }
  unstarred := by decide +kernel

/-- A note under the name of the file, which has no file name. -/
def notePart : Multipart.Part where
  lines := [dispositionLine ⟨[nameParameter], by decide +kernel⟩ (by decide +kernel)]
  disposition := ⟨[nameParameter], by decide +kernel⟩
  disposed := by decide +kernel
  within := by decide +kernel
  data := Bytes.ofText "a note\r\n--b"

/-- A GIF image. -/
def gifPart : Multipart.Part where
  lines := [dispositionLine ⟨[filenameParameter, nameParameter], by decide +kernel⟩ (by decide +kernel)]
  disposition := ⟨[filenameParameter, nameParameter], by decide +kernel⟩
  disposed := by decide +kernel
  within := by decide +kernel
  data := Bytes.ofText "GIF89a"

def twoParts : Form where
  boundary := Bytes.ofText "bound"
  unbroken := by decide +kernel
  parts := [notePart, gifPart]
  delimited := by decide +kernel
  epilogue := Bytes.ofText "\r\n"

/-- The form, cut inside its boundaries and its headers. -/
def twoPost : Request :=
  { method := "POST", path := "/api/v1/images"
    fields := [("Content-Type", "multipart/form-data; boundary=bound"), ("Content-Length", "159")]
    chunks :=
      [Bytes.ofText "--bou", [],
       Bytes.ofText "nd\r\nContent-Disposition: form-data; name=\"file\"\r\n\r\na note\r\n--b\r",
       Bytes.ofText "\n--bound\r\nContent-Disp",
       Bytes.ofText "osition: form-data;FileName=a.gif; name=\"file\"\r\n\r\nGIF89",
       Bytes.ofText "a\r\n--bound-", Bytes.ofText "-\r\n"] }

theorem two_sends : Sends twoPost twoParts :=
  ⟨⟨by decide +kernel, rfl⟩, by decide +kernel, by decide +kernel, by
    intro text htext
    have hlength : twoPost.fields.get? "content-length" = some "159" := by decide +kernel
    rw [hlength] at htext
    cases htext
    decide +kernel, rfl⟩

/-- The image of a form of two parts is stored. -/
theorem upload_accepted_two :
    Stocked smallFiles smallDisk ∧ Sends twoPost twoParts ∧
      twoParts.file? fileField = some (Bytes.ofText "GIF89a") ∧
      Answered smallFiles smallPipeline.terms twoParts.encode.length (Bytes.ofText "GIF89a") smallDisk
        ((smallSite.handle smallPipeline twoPost 0).run Disk.answer smallDisk).1.1.response
        ((smallSite.handle smallPipeline twoPost 0).run Disk.answer smallDisk).2 ∧
      ((smallSite.handle smallPipeline twoPost 0).run Disk.answer smallDisk).1.1.response.status = 201 := by
  have hstocked : Stocked smallFiles smallDisk := .bare small_bare small_usable
  have hfile : twoParts.file? fileField = some (Bytes.ofText "GIF89a") := by decide +kernel
  have hadmitted : (smallSite.gate.enter .uploadFile
      (clientAddress twoPost.fields twoPost.peer) 0).1.value = .ok () := rfl
  have hanswered := upload_accepted small_straight hstocked (p := smallPipeline) rfl (by decide) (by decide)
    two_sends hadmitted hfile
  have hsucceeds := hanswered.succeeds.2 (by decide +kernel)
  exact ⟨hstocked, two_sends, hfile, hanswered, (hanswered.fresh hsucceeds (small_bare.objects _)).1⟩

end UploadDepot.Http

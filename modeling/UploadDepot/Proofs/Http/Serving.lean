/-
What is served is what was uploaded first.

Over any run of requests the disk mirrors the answers given so far
(`Mirrors`): there is an object of a digest if, and only if, an upload was
answered with that digest, and its bytes are those of the file of the first
such upload. An image is served from the object alone, so every answer to a
path of an image can be told from the run (`get_served`).
-/
import UploadDepot.Proofs.Http.Answers
import UploadDepot.Proofs.Store.FileStore
import UploadDepot.Proofs.Upload.Form

namespace UploadDepot.Http

open RateLimit (WholeSeconds)
open Sha256 (hexOf)
open Store (Disk DiskRequest DiskWorld FileStore Commits slot)
open Upload (Pipeline Ref Terms Typed Attempt)

variable {Q : Type} {A : Q → Type} {σ τ : Type}

/-! ## Runs of the service -/

/-- What happens to the service. -/
inductive Event (τ : Type) where
  | request (request : Request) (now : τ)
  /-- A new minute begins. -/
  | minute

namespace Site

variable [Sub τ] [LE τ] [DecidableLE τ] [WholeSeconds τ]

/-- One event: the request that was answered, if it was one, and the service and its world then. -/
def serve (site : Site τ) (p : Pipeline Q A) (answer : (q : Q) → σ → A q × σ) (s : σ) :
    Event τ → List (Request × Exchange) × Site τ × σ
  | .request request now =>
    let ((exchange, site), s) := (site.handle p request now).run answer s
    ([(request, exchange)], site, s)
  | .minute => ([], { site with reading := site.reading.nextMinute }, s)

/-- A run of events: all requests with their answers, and the service and its world in the end. -/
def serveAll (site : Site τ) (p : Pipeline Q A) (answer : (q : Q) → σ → A q × σ) (s : σ) :
    List (Event τ) → List (Request × Exchange) × Site τ × σ
  | [] => ([], site, s)
  | event :: events =>
    let (first, site, s) := site.serve p answer s event
    let (rest, site, s) := site.serveAll p answer s events
    (first ++ rest, site, s)

theorem serveAll_one (site : Site τ) (p : Pipeline Q A) (answer : (q : Q) → σ → A q × σ) (s : σ)
    (request : Request) (now : τ) :
    site.serveAll p answer s [.request request now] =
      ([(request, ((site.handle p request now).run answer s).1.1)],
        ((site.handle p request now).run answer s).1.2, ((site.handle p request now).run answer s).2) :=
  rfl

end Site

/-- Whether a request is an upload. -/
def Request.IsUpload (r : Request) : Prop := Route.ofPath? r.path = some .uploads ∧ r.method = "POST"

/-- An upload that was answered with a stored object. -/
def Publishes (e : Request × Exchange) (ref : Ref) : Prop :=
  e.1.IsUpload ∧ e.2.response = stored ref

theorem publishes {request : Request} {exchange : Exchange} {ref : Ref} (h : request.IsUpload)
    (hstored : exchange.response = stored ref) : Publishes (request, exchange) ref := ⟨h, hstored⟩

/-- An upload that was answered with a digest. -/
def Published (e : Request × Exchange) (digest : String) : Prop :=
  ∃ ref, Publishes e ref ∧ ref.hash = digest

/-! ## What the disk mirrors -/

/-- The first upload that was answered with a digest, and the bytes of its file. -/
structure First (terms : Terms) (seen : List (Request × Exchange)) (digest : String) (data : Bytes)
    (post : Request × Exchange) (before : List (Request × Exchange)) : Prop where
  seen : ∃ after, seen = before ++ post :: after
  earlier : ∀ e ∈ before, ¬ Published e digest
  file : post.1.file? = some data
  stored : ∃ ref, Publishes post ref ∧ ref.hash = digest ∧ Typed terms data ref.mime

/-- The disk holds what the answers say. -/
structure Mirrors (files : FileStore) (terms : Terms) (seen : List (Request × Exchange)) (d : Disk) :
    Prop where
  ready : files.Ready d
  usable : files.Usable d.tree
  found : ∀ digest data, files.objects d (slot digest) = some data →
    ∃ post before, First terms seen digest data post before
  missing : ∀ digest, files.objects d (slot digest) = none → ∀ e ∈ seen, ¬ Published e digest

section

variable {files : FileStore} {terms : Terms} {seen : List (Request × Exchange)} {d d' : Disk}
  {digest : String} {data : Bytes} {post e : Request × Exchange}

/-- The first upload of a digest is the only first one. -/
theorem First.unique {before before' after : List (Request × Exchange)} {post' : Request × Exchange}
    (h : First terms seen digest data post before) (hseen : seen = before' ++ post' :: after)
    (hearlier : ∀ e ∈ before', ¬ Published e digest) (hpublished : Published post' digest) :
    post = post' := by
  obtain ⟨⟨after', hseen'⟩, hearlier', _, ref, hpublishes, hhash, _⟩ := h
  have hpost : Published post digest := ⟨ref, hpublishes, hhash⟩
  rw [hseen'] at hseen
  rcases List.append_eq_append_iff.1 hseen with ⟨between, rfl, htail⟩ | ⟨between, rfl, htail⟩
  · cases between with
    | nil => exact (List.cons.inj htail).1
    | cons e between =>
      rw [List.cons_append] at htail
      obtain ⟨rfl, _⟩ := List.cons.inj htail
      exact absurd hpost (hearlier post (by simp))
  · cases between with
    | nil => exact (List.cons.inj htail).1.symm
    | cons e between =>
      rw [List.cons_append] at htail
      obtain ⟨rfl, _⟩ := List.cons.inj htail
      exact absurd hpublished (hearlier' post' (by simp))

theorem First.later {before : List (Request × Exchange)}
    (h : First terms seen digest data post before) (e : Request × Exchange) :
    First terms (seen ++ [e]) digest data post before := by
  obtain ⟨⟨after, hseen⟩, hearlier, hfile, hstored⟩ := h
  refine ⟨⟨after ++ [e], ?_⟩, hearlier, hfile, hstored⟩
  rw [hseen, List.append_assoc, List.cons_append]

/-- An exchange that publishes nothing, on a disk with the same objects. -/
theorem Mirrors.silent (h : Mirrors files terms seen d) (hready : files.Ready d')
    (husable : files.Usable d'.tree) (hobjects : files.objects d' = files.objects d)
    (he : ∀ digest, ¬ Published e digest) : Mirrors files terms (seen ++ [e]) d' := by
  refine ⟨hready, husable, fun digest data hdata => ?_, fun digest hnone => ?_⟩
  · rw [hobjects] at hdata
    obtain ⟨post, before, hfirst⟩ := h.found digest data hdata
    exact ⟨post, before, hfirst.later e⟩
  · rw [hobjects] at hnone
    intro e' he'
    rcases List.mem_append.1 he' with hold | hnew
    · exact h.missing digest hnone e' hold
    · rw [List.mem_singleton.1 hnew]
      exact he digest

/-- An upload that was stored. -/
theorem Mirrors.stored {created : Bool} (h : Mirrors files terms seen d) (ref : Ref)
    (hready : files.Ready d') (husable : files.Usable d'.tree)
    (hcommits : Commits (files.objects d) (files.objects d') (slot (hexOf data)) data
      (.ok created : Except Store.Fault Bool))
    (hpublishes : Publishes e ref) (hhash : ref.hash = hexOf data) (hfile : e.1.file? = some data)
    (htyped : Typed terms data ref.mime) : Mirrors files terms (seen ++ [e]) d' := by
  have hdigest : ∀ digest, Published e digest → digest = hexOf data := by
    rintro digest ⟨ref', ⟨_, hstored⟩, rfl⟩
    rw [← hhash]
    exact (stored_inj (hstored.symm.trans hpublishes.2)).1
  have holder : ∀ digest data', files.objects d (slot digest) = some data' →
      ∃ post before, First terms (seen ++ [e]) digest data' post before := by
    intro digest data' hdata
    obtain ⟨post, before, hfirst⟩ := h.found digest data' hdata
    exact ⟨post, before, hfirst.later e⟩
  refine ⟨hready, husable, fun digest data' hdata => ?_, fun digest hnone => ?_⟩
  · by_cases hsame : digest = hexOf data
    · subst hsame
      cases hcommits with
      | created hnone hafter _ =>
        rw [hafter] at hdata
        cases hdata
        exact ⟨e, seen, ⟨[], rfl⟩, h.missing _ hnone, hfile, ref, hpublishes, hhash, htyped⟩
      | present _ hobjects =>
        rw [hobjects] at hdata
        exact holder _ _ hdata
    · rw [hcommits.other fun he => hsame (Store.slot_injective he)] at hdata
      exact holder _ _ hdata
  · have hne : digest ≠ hexOf data := by
      rintro rfl
      have := hcommits.isSome
      rw [hnone] at this
      cases this
    rw [hcommits.other fun he => hne (Store.slot_injective he)] at hnone
    intro e' he' hpublished
    rcases List.mem_append.1 he' with hold | hnew
    · exact h.missing digest hnone e' hold hpublished
    · rw [List.mem_singleton.1 hnew] at hpublished
      exact hne (hdigest digest hpublished)

end

/-! ## One request -/

section Request

variable {files : FileStore} {p : Pipeline DiskRequest DiskRequest.Reply}
  {seen : List (Request × Exchange)} {site : Site τ} {d : Disk} {request : Request} {now : τ}

/-- A commit to a disk without mishaps does not fail. -/
theorem commit_exact (hstore : p.store = files.store) (hs : files.Straight) (hready : files.Ready d)
    (husable : files.Usable d.tree) (data : Bytes) (mime : String) :
    (p.store.commit (hexOf data) mime { content := data, position := data.length } data.length).Always
      (Dialogue.exactly Disk.answer) (fun _ _ => True)
      (fun committed d' => ∃ created, committed.value = .ok created ∧ files.Ready d' ∧
        files.Usable d'.tree ∧
        Commits (files.objects d) (files.objects d') (slot (hexOf data)) data
          (.ok created : Except Store.Fault Bool)) d := by
  have hspool : hexOf data = hexOf (Store.Spool.content { content := data, position := data.length }) :=
    rfl
  have hcommit := FileStore.commit_exact hready hs husable hspool
  rw [hstore]
  exact hcommit

/-- An attempt that failed is answered with an error. -/
theorem conclude_failed {attempt : Attempt} {e : Upload.Failure} (h : attempt.result = .error e) :
    400 ≤ (site.conclude attempt).1.response.status := by
  rw [Site.conclude, h]
  cases e with
  | told e => exact rejected_status e
  | stray => exact (by decide : 400 ≤ 500)

theorem conclude_stored {attempt : Attempt} {ref : Ref} (h : attempt.result = .ok ref) :
    (site.conclude attempt).1.response = stored ref := by
  rw [Site.conclude, h]

/-- What an image is answered with, by the objects on a disk. -/
def served (files : FileStore) (d : Disk) (digest : String) : Exchange :=
  match files.objects d (slot digest) with
  | none => noImage
  | some data =>
    let head := data.upTo files.sniffBytes
    serveImage { data, mime := files.sniff head, sniffed := [head] }

/-- **An image** is answered from the objects alone, and leaves the disk as it is. -/
theorem image_always (hstore : p.store = files.store) (hready : files.Ready d)
    (husable : files.Usable d.tree) (digest : String) :
    (site.image p request digest).Always (Dialogue.exactly Disk.answer) (fun _ _ => True)
      (fun answered d' => d' = d ∧
        ((site.reading.count (clientAddress request.fields request.peer) request.path).1 = true →
          answered.1 = if Route.isDigest digest then served files d digest else noImage)) d := by
  unfold Site.image
  dsimp only
  cases hwithin : (site.reading.count (clientAddress request.fields request.peer) request.path).1 with
  | false => exact ⟨rfl, nofun⟩
  | true =>
    cases hdigest : Route.isDigest digest with
    | false => exact ⟨rfl, fun _ => rfl⟩
    | true =>
      simp only [Bool.true_eq_false, if_false, if_true, hstore, served]
      have hhex := (isDigest_iff digest).1 hdigest
      refine Dialogue.Always.bind
        (((FileStore.load_always hready husable hhex (by trivial)).narrow Store.exactly_disk).imp ?_)
      rintro loaded d' ⟨rfl, rfl⟩
      cases files.objects d' (slot digest) with
      | none => exact ⟨rfl, fun _ => rfl⟩
      | some data => exact ⟨rfl, fun _ => rfl⟩

/-- What is read from the disk for an image. -/
theorem image_questions (hstore : p.store = files.store) (digest : String)
    (hwithin : (site.reading.count (clientAddress request.fields request.peer) request.path).1 = true) :
    (site.image p request digest).questions Disk.answer d =
      if Route.isDigest digest then [.read (files.pathOf digest)] else [] := by
  unfold Site.image
  cases hdigest : Route.isDigest digest with
  | false =>
    simp only [hwithin, Bool.true_eq_false, Bool.false_eq_true, if_false, if_true]
    rfl
  | true =>
    simp only [hwithin, Bool.true_eq_false, if_false, if_true, hstore]
    refine (Dialogue.questions_andThen Disk.answer _ _ d).trans ?_
    rw [show files.store.load digest = files.load digest from rfl, FileStore.questions_load]
    generalize (files.load digest).run Disk.answer d = loaded
    obtain ⟨(_ | _) | (_ | _), _⟩ := loaded <;> rfl

variable [Sub τ] [LE τ] [DecidableLE τ] [WholeSeconds τ]

/-- **An upload** is answered with what the disk then holds. -/
theorem upload_mirrors (hstore : p.store = files.store) (hs : files.Straight)
    (h : Mirrors files p.terms seen d) (hupload : request.IsUpload) :
    (site.upload p request now).Always (Dialogue.exactly Disk.answer) (fun _ _ => True)
      (fun answered d' => Mirrors files p.terms (seen ++ [(request, answered.1)]) d') d := by
  unfold Site.upload
  dsimp only
  split
  · rename_i fault _
    refine h.silent h.ready h.usable rfl ?_
    rintro digest ⟨ref, ⟨_, hstored⟩, _⟩
    exact ne_stored (turnedAway_status fault) ref hstored
  · refine Dialogue.Always.bind (Upload.receive_always (fun a e ha => ?_) ?_)
    · refine h.silent h.ready h.usable rfl ?_
      rintro digest ⟨ref, ⟨_, hstored⟩, _⟩
      exact ne_stored (conclude_failed ha) ref hstored
    intro data mime hfile htyped
    refine (commit_exact hstore hs h.ready h.usable data mime).imp ?_
    intro committed d' ⟨created, hvalue, hready, husable, hcommits⟩ a ha
    rw [hvalue] at ha
    let ref : Ref := { hash := hexOf data, mime, size := data.length, duplicate := !created }
    exact h.stored ref hready husable hcommits (publishes hupload (conclude_stored ha)) rfl hfile htyped

/-- **One request.** What is no upload publishes nothing, and leaves the disk as it is. -/
theorem handle_mirrors (hstore : p.store = files.store) (hs : files.Straight)
    (h : Mirrors files p.terms seen d) :
    (site.handle p request now).Always (Dialogue.exactly Disk.answer) (fun _ _ => True)
      (fun answered d' => Mirrors files p.terms (seen ++ [(request, answered.1)]) d') d := by
  have hsilent : ∀ exchange : Exchange, ¬ request.IsUpload →
      Mirrors files p.terms (seen ++ [(request, exchange)]) d := by
    intro exchange hnot
    refine h.silent h.ready h.usable rfl ?_
    rintro digest ⟨ref, ⟨hupload, _⟩, _⟩
    exact hnot hupload
  unfold Site.handle
  split
  · rename_i hroute
    refine hsilent _ fun hupload => ?_
    rw [hupload.1] at hroute
    cases hroute
  rename_i route hroute
  split
  · rename_i hmethod
    refine hsilent _ fun hupload => hmethod ?_
    rw [hupload.1] at hroute
    cases hroute
    exact hupload.2
  rename_i hmethod
  have hnot : route ≠ .uploads → ¬ request.IsUpload := by
    intro hne hupload
    rw [hupload.1] at hroute
    exact hne (Option.some.inj hroute).symm
  cases route with
  | uploads => exact upload_mirrors hstore hs h ⟨hroute, not_not.1 hmethod⟩
  | image digest =>
    refine (image_always hstore h.ready h.usable digest).imp ?_
    rintro answered d' ⟨rfl, _⟩
    exact hsilent _ (hnot nofun)
  | health => exact hsilent _ (hnot nofun)
  | metrics => exact hsilent _ (hnot nofun)

/-- One event. -/
theorem serve_mirrors (site : Site τ) (hstore : p.store = files.store) (hs : files.Straight)
    (h : Mirrors files p.terms seen d) (event : Event τ) :
    Mirrors files p.terms (seen ++ (site.serve p Disk.answer d event).1)
      (site.serve p Disk.answer d event).2.2 := by
  cases event with
  | request request now => exact (handle_mirrors hstore hs h).run
  | minute =>
    rw [Site.serve, List.append_nil]
    exact h

/-- **A whole run.** -/
theorem serveAll_mirrors (site : Site τ) (hstore : p.store = files.store) (hs : files.Straight)
    (h : Mirrors files p.terms seen d) (events : List (Event τ)) :
    Mirrors files p.terms (seen ++ (site.serveAll p Disk.answer d events).1)
      (site.serveAll p Disk.answer d events).2.2 := by
  induction events generalizing seen site d with
  | nil =>
    rw [Site.serveAll, List.append_nil]
    exact h
  | cons event events ih =>
    have hrest := ih (site.serve p Disk.answer d event).2.1 (serve_mirrors site hstore hs h event)
    rw [List.append_assoc] at hrest
    exact hrest

/-! ## What is served -/

theorem handle_image (site : Site τ) (now : τ) {digest : String} (hget : request.method = "GET")
    (hpath : request.path = Route.imageRoot ++ digest) :
    site.handle p request now =
      if digest = "" ∨ '/' ∈ digest.toList then .done ({ response := Site.nowhere request.path }, site)
      else site.image p request digest := by
  rw [Site.handle, hpath, Route.ofPath?_image, Route.imageDigest?_append]
  by_cases h : digest = "" ∨ '/' ∈ digest.toList
  · rw [if_pos h, if_pos h]
    rfl
  · rw [if_neg h, if_neg h]
    exact if_neg fun hne => hne hget

/-- A pipeline into a store of files that tells types just as the store does. -/
structure Fits (p : Pipeline DiskRequest DiskRequest.Reply) (files : FileStore) : Prop where
  store : p.store = files.store
  sniffBytes : p.terms.sniffBytes = files.sniffBytes
  nonneg : 0 ≤ files.sniffBytes
  sniff : p.terms.sniff = files.sniff
  /-- Types can stand in a header field. -/
  latin1 : ∀ head, IsLatin1 (files.sniff head)

theorem Fits.typeOf (hp : Fits p files) (data : Bytes) :
    p.terms.typeOf data = files.sniff (data.upTo files.sniffBytes) := by
  rw [Terms.typeOf, hp.sniff, hp.sniffBytes, Upload.upTo_of_nonneg hp.nonneg]

/-- Of a digest that an upload was answered with, its first file is shown. -/
theorem Mirrors.shown (hp : Fits p files) (h : Mirrors files p.terms seen d) {digest : String}
    (hpublished : ∃ e ∈ seen, Published e digest) :
    Route.isDigest digest = true ∧ ∃ data post before ref, First p.terms seen digest data post before ∧
      Publishes post ref ∧ Media.isAllowed ref.mime p.terms.allowed = true ∧
      Shows (served files d digest).response ref.mime data := by
  cases hobject : files.objects d (slot digest) with
  | none =>
    obtain ⟨e, he, hpublished⟩ := hpublished
    exact absurd hpublished (h.missing digest hobject e he)
  | some data =>
    obtain ⟨post, before, hfirst⟩ := h.found digest data hobject
    obtain ⟨ref, hpublishes, hhash, htyped⟩ := hfirst.stored
    have hmime : ref.mime = files.sniff (data.upTo files.sniffBytes) :=
      (htyped.told (hp.sniffBytes ▸ hp.nonneg)).trans (hp.typeOf data)
    refine ⟨?_, data, post, before, ref, hfirst, hpublishes, htyped.allowed, ?_⟩
    · rw [isDigest_iff, h.ready.tidy.objectsIn_slot hobject]
      exact isHex_hexOf data
    · rw [served, hobject, hmime]
      exact serveImage_shows (hp.latin1 _)

/-- Of any other digest nothing is shown. -/
theorem Mirrors.hidden (h : Mirrors files p.terms seen d) {digest : String}
    (hnone : ∀ e ∈ seen, ¬ Published e digest) : served files d digest = noImage := by
  cases hobject : files.objects d (slot digest) with
  | none => rw [served, hobject]
  | some data =>
    obtain ⟨post, before, hfirst⟩ := h.found digest data hobject
    obtain ⟨ref, hpublishes, hhash, _⟩ := hfirst.stored
    obtain ⟨after, hseen⟩ := hfirst.seen
    exact absurd ⟨ref, hpublishes, hhash⟩ (hnone post (by simp [hseen]))

/-- **What is served is what was uploaded first.** After any run on an empty root, the path of a digest
shows the file of the first upload that was answered with that digest, with the type that this answer
told; where there was no such upload, it shows nothing. Only the object of a digest is read for it. -/
theorem get_served (hp : Fits p files) (hs : files.Straight) (hbare : files.Bare d)
    (husable : files.Usable d.tree) (events : List (Event τ)) {site' : Site τ} {d' : Disk}
    (hrun : site.serveAll p Disk.answer d events = (seen, site', d')) (now : τ) {digest : String}
    (hget : request.method = "GET") (hpath : request.path = Route.imageRoot ++ digest)
    (hwithin :
      (site'.reading.count (clientAddress request.fields request.peer) request.path).1 = true) :
    let response := ((site'.handle p request now).run Disk.answer d').1.1.response
    (∀ before post after ref, seen = before ++ post :: after →
      (∀ e ∈ before, ¬ Published e digest) → Publishes post ref → ref.hash = digest →
      ∃ data, post.1.file? = some data ∧ Media.isAllowed ref.mime p.terms.allowed = true ∧
        Shows response ref.mime data) ∧
      ((∀ e ∈ seen, ¬ Published e digest) →
        response.status = if Route.isRedirected digest then 307 else 404) ∧
      (site'.handle p request now).questions Disk.answer d' =
        if Route.isDigest digest then
          [.read { files.root with parts := files.root.parts ++ [Store.shard digest, digest] }]
        else [] := by
  have hfirst : Mirrors files p.terms [] d := by
    refine ⟨hbare.ready, husable, fun digest data hdata => ?_, fun _ _ _ he => nomatch he⟩
    rw [hbare.objects] at hdata
    cases hdata
  have h : Mirrors files p.terms seen d' := by
    have hall := serveAll_mirrors site hp.store hs hfirst events
    rw [hrun] at hall
    exact hall
  intro response
  by_cases hnowhere : digest = "" ∨ '/' ∈ digest.toList
  -- The path leads nowhere, and no digest is like this.
  · have hnot : Route.isDigest digest = false := by
      cases hdigest : Route.isDigest digest with
      | false => rfl
      | true =>
        have hplain := ((isDigest_iff digest).1 hdigest).plain (by decide)
        exact absurd hnowhere (not_or.2 ⟨hplain.nonempty, hplain.slash⟩)
    have hhandle := handle_image (p := p) site' now hget hpath
    rw [if_pos hnowhere] at hhandle
    refine ⟨fun before post after ref hseen _ hpublishes hhash => ?_, fun _ => ?_, ?_⟩
    · obtain ⟨hdigest, _⟩ := h.shown hp ⟨post, by simp [hseen], ref, hpublishes, hhash⟩
      rw [hnot] at hdigest
      cases hdigest
    · show ((site'.handle p request now).run Disk.answer d').1.1.response.status = _
      rw [hhandle, hpath]
      exact nowhere_image hnowhere
    · rw [hhandle, hnot]
      rfl
  · have hhandle := handle_image (p := p) site' now hget hpath
    rw [if_neg hnowhere] at hhandle
    have hanswer := (image_always hp.store h.ready h.usable digest).run.2 hwithin
    have hresponse : response = (if Route.isDigest digest then served files d' digest else noImage).response := by
      rw [← hanswer, ← hhandle]
    refine ⟨fun before post after ref hseen hearlier hpublishes hhash => ?_, fun hnone => ?_, ?_⟩
    · obtain ⟨hdigest, data, post', before', ref', hfirst, hpublishes', hallowed, hshows⟩ :=
        h.shown hp ⟨post, by simp [hseen], ref, hpublishes, hhash⟩
      obtain rfl := hfirst.unique hseen hearlier ⟨ref, hpublishes, hhash⟩
      have hmime := (stored_inj (hpublishes'.2.symm.trans hpublishes.2)).2
      rw [hmime] at hallowed hshows
      rw [hresponse, hdigest]
      exact ⟨data, hfirst.file, hallowed, hshows⟩
    · rw [hresponse, Route.isRedirected_eq_false (not_or.1 hnowhere).2, h.hidden hnone]
      split <;> rfl
    · rw [hhandle, image_questions hp.store digest hwithin]
      cases hdigest : Route.isDigest digest with
      | false => rfl
      | true =>
        rw [FileStore.pathOf_eq ((isDigest_iff digest).1 hdigest), List.append_assoc]
        rfl

end Request

/-! ## A small depot -/

/-- Files under `/srv/depot`. -/
def smallFiles : FileStore :=
  { root := { anchor := "/", parts := ["srv", "depot"] }
    sniffBytes := 2048
    sniff := Media.Signatures.standard.typeOf }

/-- Small GIF images alone. -/
def smallPipeline : Pipeline DiskRequest DiskRequest.Reply :=
  { store := smallFiles.store
    terms := { maxSize := 64, sniffBytes := 2048, allowed := [("image/gif", "gif")]
               sniff := Media.Signatures.standard.typeOf }
    chunkSize := 1024 }

/-- An empty disk. -/
def smallDisk : Disk := { names := fun _ => "0123456789abcdef0123456789abcdef" }

/-- A service that admits everyone. -/
def smallSite : Site Float :=
  { gate := { limiter :=
      { rules := fun _ => { limit := 1, window := 10 }, enabled := false, sweepEvery := 8
        spread := RateLimit.spreadByText, shards := [{}] } } }

theorem standard_latin1 (head : Bytes) : IsLatin1 (Media.Signatures.standard.typeOf head) := by
  have htable : Media.Signatures.standard.table.all
      (fun entry => entry.2.toList.all fun c => c.toNat < 256) = true := by decide +kernel
  have hempty : (Media.emptyType.toList.all fun c => c.toNat < 256) = true := by decide +kernel
  have hother : (Media.Signatures.standard.fallback.toList.all fun c => c.toNat < 256) = true := by
    decide +kernel
  unfold Media.Signatures.typeOf
  split
  · rename_i hfound
    have hmem := List.all_eq_true.1 htable _ (List.mem_of_find?_eq_some hfound)
    exact fun c hc => of_decide_eq_true (List.all_eq_true.1 hmem c hc)
  split
  · exact fun c hc => of_decide_eq_true (List.all_eq_true.1 hempty c hc)
  · exact fun c hc => of_decide_eq_true (List.all_eq_true.1 hother c hc)

theorem small_fits : Fits smallPipeline smallFiles :=
  ⟨rfl, rfl, by decide, rfl, standard_latin1⟩

theorem small_straight : smallFiles.Straight := FileStore.straight_of_not_mem (by decide)

theorem small_bare : smallFiles.Bare smallDisk := by
  have hname : IsHex 32 "0123456789abcdef0123456789abcdef" :=
    ⟨by decide, List.all_eq_true.1 (by decide)⟩
  refine ⟨fun rest hne => ?_, fun _ => hname, rfl, rfl⟩
  exact if_neg (List.append_ne_nil_of_right_ne_nil _ hne)

theorem small_usable : smallFiles.Usable smallDisk.tree :=
  ⟨by decide +kernel, by decide +kernel, by decide +kernel⟩

/-- A GIF image that comes in two chunks. -/
def smallPost : Request :=
  { method := "POST", path := "/api/v1/images"
    fields := [("Content-Type", "multipart/form-data; boundary=x")]
    chunks :=
      [Bytes.ofText "--x\r\nContent-Disposition: form-data; name=file; filename=a\r\n\r\nGIF",
       Bytes.ofText "89a\r\n--x--\r\n"] }

/-- What it is answered with. -/
def smallRef : Ref :=
  { hash := "610f5ae4d76e332636a17bd357fd6ce99029316a99d320280d4d77a746bf29e8"
    mime := "image/gif", size := 6, duplicate := false }

def smallGet : Request := { method := "GET", path := Route.imageRoot ++ smallRef.hash }

/-- A GIF image is uploaded, and shown under its digest. -/
theorem get_served_gif :
    let uploaded := (smallSite.handle smallPipeline smallPost 0).run Disk.answer smallDisk
    uploaded.1.1.response = stored smallRef ∧
      Shows ((uploaded.1.2.handle smallPipeline smallGet 1).run Disk.answer uploaded.2).1.1.response
        "image/gif" (Bytes.ofText "GIF89a") := by
  have hpost : smallPost.IsUpload := ⟨by decide +kernel, rfl⟩
  have hfile : smallPost.file? = some (Bytes.ofText "GIF89a") := by decide +kernel
  have hrun := Site.serveAll_one smallSite smallPipeline Disk.answer smallDisk smallPost 0
  have hupload :
      ((smallSite.handle smallPipeline smallPost 0).run Disk.answer smallDisk).1.1.response =
          stored smallRef ∧
        (((smallSite.handle smallPipeline smallPost 0).run Disk.answer smallDisk).1.2.reading.count
          (clientAddress smallGet.fields smallGet.peer) smallGet.path).1 = true := by
    decide +kernel
  dsimp only
  -- From here on the run is not to be evaluated again.
  generalize (smallSite.handle smallPipeline smallPost 0).run Disk.answer smallDisk = uploaded
    at hrun hupload ⊢
  have hpublishes : Publishes (smallPost, uploaded.1.1) smallRef := publishes hpost hupload.1
  obtain ⟨data, hdata, _, hshows⟩ := (get_served small_fits small_straight small_bare small_usable
    [.request smallPost 0] hrun (1 : Float) rfl rfl hupload.2).1 [] (smallPost, uploaded.1.1) []
      smallRef rfl nofun hpublishes rfl
  rw [hfile] at hdata
  cases hdata
  exact ⟨hupload.1, hshows⟩

/-- The path of no image need not be answered with a status of 404: with a slash at its end, it is sent
on to the path without. -/
theorem get_redirected_slash :
    let get : Request := { method := "GET", path := Route.imageRoot ++ "x/" }
    Fits smallPipeline smallFiles ∧ smallFiles.Straight ∧ smallFiles.Bare smallDisk ∧
      smallFiles.Usable smallDisk.tree ∧
      smallSite.serveAll smallPipeline Disk.answer smallDisk [] = ([], smallSite, smallDisk) ∧
      (smallSite.reading.count (clientAddress get.fields get.peer) get.path).1 = true ∧
      ((smallSite.handle smallPipeline get 0).run Disk.answer smallDisk).1.1.response.status = 307 :=
  ⟨small_fits, small_straight, small_bare, small_usable, rfl, by decide +kernel, by decide +kernel⟩

end UploadDepot.Http

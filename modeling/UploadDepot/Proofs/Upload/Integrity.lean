/-
Whole runs of uploads, over either store.

Each upload keeps three things (`Kept`): no commit is left under way, a
digest has an object if, and only if, an attempt has reported it, and an
attempt says duplicate if, and only if, an earlier one has reported the same
digest. In between, the objects only grow, by admitted data at the home of
their digest. `Intact` says what follows for every state of a run.
-/
import UploadDepot.Proofs.Store.BucketStore
import UploadDepot.Proofs.Store.FileStore
import UploadDepot.Proofs.Upload.Pipeline

namespace UploadDepot.Upload

open Sha256 (hexOf)
open Store (Shelf Grows Commits)

variable {Q : Type} {A : Q → Type} {σ κ : Type}

/-- A file that comes to a pipeline. -/
inductive Arrival where
  | streamed (declared : Option Int) (reads : List Read)
  | pushed (declared : Option Int) (chunks : List Bytes)

/-- What the pipeline does with a file. -/
def Arrival.upload (p : Pipeline Q A) : Arrival → Dialogue Q A Attempt
  | .streamed declared reads => p.ingest declared reads
  | .pushed declared chunks => p.push declared chunks

/-- **A file that comes in any way** has the same fate over every store. -/
theorem Arrival.upload_settled (arrival : Arrival) (terms : Terms) :
    Settled terms fun _ _ p => arrival.upload p := by
  cases arrival with
  | streamed declared reads =>
    rcases Pipeline.candidate_cases declared terms with ⟨e, hrefused⟩ | hfresh
    · refine .inl ⟨{ result := .error (.told e) }, _, rfl, fun p hp => ?_⟩
      simp only [upload, Pipeline.ingest, hrefused p hp]
    · have hconcluded : Settled terms fun _ _ p => p.conclude (Candidate.read { terms } reads 0) :=
        Pipeline.conclude_settled fun hended =>
          (Candidate.Sound.fresh terms).read (Prod.ext rfl (Prod.ext rfl hended))
      refine hconcluded.congr fun p hp => ?_
      simp only [upload, Pipeline.ingest, hfresh p hp]
  | pushed declared chunks =>
    rcases Pipeline.candidate_cases declared terms with ⟨e, hrefused⟩ | hfresh
    · refine .inl ⟨{ result := .error (.told e) }, _, rfl, fun p hp => ?_⟩
      simp only [upload, Pipeline.push, hrefused p hp]
    · have hconcluded : Settled terms fun _ _ p => p.conclude (Candidate.feedAll { terms } chunks 0) := by
        refine Pipeline.conclude_settled fun hended => ?_
        rcases (Candidate.Sound.fresh terms).feedAll chunks 0 with
          ⟨c', hfed, hsound, hterms, _⟩ | ⟨c', k, e, hfed, _⟩
        · rw [hfed]
          exact ⟨hsound, hterms⟩
        · rw [hfed] at hended
          cases hended
      refine hconcluded.congr fun p hp => ?_
      simp only [upload, Pipeline.push, hfresh p hp]

/-- A file that comes in any way: the upload fails, or its data are committed under their digest. -/
theorem Arrival.upload_always {W : World Q A σ} {G : σ → σ → Prop} {post : Attempt → σ → Prop} {s : σ}
    {p : Pipeline Q A} (arrival : Arrival) (hfailed : ∀ a e, a.result = .error e → post a s)
    (hcommit : ∀ data mime, Typed p.terms data mime →
      (p.store.commit (hexOf data) mime { content := data, position := data.length }
          data.length).Always W G
        (fun committed s' => ∀ a, a.result = reported data mime committed.value → post a s') s) :
    (arrival.upload p).Always W G post s :=
  (arrival.upload_settled p.terms).always hfailed hcommit

/-- Whether an attempt has reported a digest. -/
def Attempt.reports (a : Attempt) (digest : String) : Prop :=
  ∃ ref, a.result = .ok ref ∧ ref.hash = digest

/-- An attempt says duplicate if, and only if, an earlier one has reported the same digest. -/
def Deduplicated (attempts : List Attempt) : Prop :=
  ∀ before a after, attempts = before ++ a :: after → ∀ ref, a.result = .ok ref →
    (ref.duplicate = true ↔ ∃ b ∈ before, b.reports ref.hash)

theorem Deduplicated.nil : Deduplicated [] := by
  intro before a after h
  simp at h

theorem Deduplicated.snoc {attempts : List Attempt} {a : Attempt} (h : Deduplicated attempts)
    (ha : ∀ ref, a.result = .ok ref →
      (ref.duplicate = true ↔ ∃ b ∈ attempts, b.reports ref.hash)) :
    Deduplicated (attempts ++ [a]) := by
  intro before b after heq
  rcases List.eq_nil_or_concat after with rfl | ⟨after', last, rfl⟩
  · obtain ⟨rfl, hb⟩ := List.append_inj' heq rfl
    cases hb
    exact ha
  · rw [List.concat_eq_append, ← List.cons_append, ← List.append_assoc] at heq
    exact h before b after' (List.append_inj' heq rfl).1

/-- Data of an admitted type. -/
def Terms.Stored (t : Terms) (data : Bytes) : Prop := 0 ≤ t.sniffBytes → t.admits data = true

/-- What every upload keeps. -/
structure Kept (shelf : Shelf Q A σ κ) (attempts : List Attempt) (s : σ) : Prop where
  ready : shelf.Ready s
  objects : ∀ digest, (shelf.objects s (shelf.home digest)).isSome = true ↔
    ∃ a ∈ attempts, a.reports digest
  deduplicated : Deduplicated attempts

section Run

variable {shelf : Shelf Q A σ κ} {p : Pipeline Q A} {attempts : List Attempt} {s s' : σ}

theorem Kept.failed (h : Kept shelf attempts s) (hready : shelf.Ready s')
    (hobjects : shelf.objects s' = shelf.objects s) {a : Attempt} {e : Failure}
    (ha : a.result = .error e) : Kept shelf (attempts ++ [a]) s' := by
  have hnot : ∀ digest, ¬ a.reports digest := by
    rintro digest ⟨ref, hok, _⟩
    rw [ha] at hok
    cases hok
  refine ⟨hready, fun digest => ?_, h.deduplicated.snoc fun ref hok => ?_⟩
  · rw [hobjects, h.objects]
    simp only [List.mem_append, List.mem_singleton, or_and_right, exists_or, exists_eq_left, hnot,
      or_false]
  · rw [ha] at hok
    cases hok

theorem Kept.committed (h : Kept shelf attempts s) (hready : shelf.Ready s') {data : Bytes}
    {mime : String} {value : Except Store.Fault Bool}
    (hcommits : Commits (shelf.objects s) (shelf.objects s') (shelf.home (hexOf data)) data value)
    {a : Attempt} (ha : a.result = reported data mime value) : Kept shelf (attempts ++ [a]) s' := by
  cases hvalue : value with
  | error fault =>
    rw [hvalue] at hcommits ha
    cases hcommits with
    | failed hsame => exact h.failed hready hsame ha
  | ok created =>
    rw [hvalue] at hcommits ha
    have hreports : ∀ digest, a.reports digest ↔ hexOf data = digest := by
      intro digest
      constructor
      · rintro ⟨ref, hok, hhash⟩
        rw [ha] at hok
        cases hok
        exact hhash
      · intro hhash
        exact ⟨_, ha, hhash⟩
    refine ⟨hready, fun digest => ?_, h.deduplicated.snoc fun ref hok => ?_⟩
    · simp only [List.mem_append, List.mem_singleton, or_and_right, exists_or, exists_eq_left,
        hreports, ← h.objects]
      by_cases hdigest : hexOf data = digest
      · subst hdigest
        simp only [hcommits.isSome, or_true]
      · rw [hcommits.other fun he => hdigest (shelf.home_injective he).symm]
        simp only [hdigest, or_false]
    · rw [ha] at hok
      cases hok
      rw [← h.objects, Option.isSome_iff_ne_none, Ne, ← hcommits.created_iff]
      cases created <;> simp

/-- **One upload**, of a file that comes in any way. -/
theorem upload_keeps (hstore : p.store = shelf.store) (h : Kept shelf attempts s)
    (arrival : Arrival) :
    (arrival.upload p).Always shelf.world (Grows shelf.objects shelf.home p.terms.Stored)
      (fun a s' => Kept shelf (attempts ++ [a]) s') s := by
  refine arrival.upload_always (fun a e ha => h.failed h.ready rfl ha) fun data mime htyped => ?_
  rw [hstore]
  have hcommit := shelf.commits h.ready mime { content := data, position := data.length } data.length
  refine Dialogue.Always.weaken (hcommit.imp ?_) ?_
  · intro committed s' ⟨hready, hcommits⟩ a ha
    exact h.committed hready hcommits ha
  · intro s s' hgrows
    refine hgrows.imp ?_
    rintro data rfl hn
    exact htyped.admits hn

/-- What holds in every state of a run. -/
structure Intact (shelf : Shelf Q A σ κ) (terms : Terms)
    (state : Dialogue Q A (List Attempt) × σ) : Prop where
  /-- Every object is in its own place, and of an admitted type. -/
  integrity : ∀ k data, shelf.objects state.2 k = some data →
    k = shelf.home (hexOf data) ∧ terms.Stored data
  /-- No step from here on changes an object, or takes it away. -/
  immutability : ∀ later, Dialogue.Reaches shelf.world state later → ∀ k data,
    shelf.objects state.2 k = some data → shelf.objects later.2 k = some data
  /-- An upload that reported a digest has left an object. -/
  presence : ∀ attempts, state.1 = .done attempts → ∀ a ∈ attempts, ∀ digest, a.reports digest →
    (shelf.objects state.2 (shelf.home digest)).isSome = true
  /-- Of the attempts that report a digest, the first alone says that it is new. -/
  deduplication : ∀ attempts, state.1 = .done attempts → Deduplicated attempts

theorem uploads_keep (hstore : p.store = shelf.store) (hready : shelf.Ready s)
    (hempty : ∀ k, shelf.objects s k = none) (arrivals : List Arrival) :
    (Dialogue.inTurn (arrivals.map (·.upload p))).Always shelf.world
      (Grows shelf.objects shelf.home p.terms.Stored) (fun attempts s' => Kept shelf attempts s') s := by
  have hfirst : Kept shelf [] s :=
    ⟨hready, fun digest => by simp [hempty], Deduplicated.nil⟩
  refine Dialogue.Always.inTurn (I := Kept shelf) (fun d hd seen s hkept => ?_) hfirst
  obtain ⟨arrival, _, rfl⟩ := List.mem_map.1 hd
  exact upload_keeps hstore hkept arrival

/-- **Whole runs.** Over a shelf that holds nothing at first, every state is intact. -/
theorem run_intact (hstore : p.store = shelf.store) (hready : shelf.Ready s)
    (hempty : ∀ k, shelf.objects s k = none) (arrivals : List Arrival)
    {state : Dialogue Q A (List Attempt) × σ}
    (hreach : Dialogue.Reaches shelf.world (Dialogue.inTurn (arrivals.map (·.upload p)), s) state) :
    Intact shelf p.terms state := by
  obtain ⟨hgrows, halways⟩ := Dialogue.Always.reaches Grows.refl Grows.trans hreach
    (uploads_keep hstore hready hempty arrivals)
  have hkept : ∀ attempts, state.1 = .done attempts → Kept shelf attempts state.2 := by
    intro attempts hdone
    rw [hdone] at halways
    exact halways
  refine ⟨fun k data hk => hgrows.integrity hempty hk, fun later hlater k data hk => ?_,
    fun attempts hdone a ha digest hreports => ?_, fun attempts hdone => (hkept attempts hdone).deduplicated⟩
  · exact (Dialogue.Always.reaches Grows.refl Grows.trans hlater halways).1.keeps hk
  · exact ((hkept attempts hdone).objects digest).2 ⟨a, ha, hreports⟩

end Run

/-! ## The two stores -/

open Store (FileStore BucketStore DiskWorld ServiceWorld Disk MemoryService)

/-- **Integrity, immutability and deduplication.** Whole runs of uploads are intact: into files, where
writes may break off and links may fail, and into a bucket, where any request may fail. -/
theorem uploads_intact {files : FileStore} {bucket : BucketStore} {mishaps : Mishap → Prop}
    {disk : Disk} {service : MemoryService} (hs : files.Straight)
    (hm : ∀ m, mishaps m → m.kind ≠ .alreadyThere) (hfiles : files.Bare disk)
    (hbucket : bucket.Bare service) (terms : Terms) (chunkSize : Int) (arrivals : List Arrival) :
    (∀ state,
      Dialogue.Reaches (DiskWorld mishaps)
        (Dialogue.inTurn (arrivals.map (·.upload { store := files.store, terms, chunkSize })), disk)
        state →
      Intact (files.shelf hs mishaps hm) terms state) ∧
    ∀ state,
      Dialogue.Reaches ServiceWorld
        (Dialogue.inTurn (arrivals.map (·.upload { store := bucket.store, terms, chunkSize })), service)
        state →
      Intact bucket.shelf terms state := by
  constructor
  · intro state hreach
    let shelf := files.shelf hs mishaps hm
    have hempty : ∀ place, shelf.objects disk place = none := hfiles.objects
    exact run_intact rfl hfiles.ready hempty arrivals hreach
  · intro state hreach
    have hempty : ∀ key, bucket.shelf.objects service key = none := hbucket.objects
    exact run_intact rfl trivial hempty arrivals hreach

/-! ## Three uploads of one image -/

/-- Files below `/srv/depot`. -/
def depotFiles : FileStore where
  root := { anchor := "/", parts := ["srv", "depot"] }
  sniffBytes := 2048
  sniff := Media.Signatures.standard.typeOf

/-- Objects of a bucket, in the folder of the images. -/
def depotBucket : BucketStore where
  bucket := "depot"
  folder := "images"
  region := none
  sniffBytes := 2048
  sniff := Media.Signatures.standard.typeOf

/-- GIF images, of up to 64 bytes. -/
def gifTerms : Terms where
  maxSize := 64
  sniffBytes := 2048
  allowed := [("image/gif", "gif")]
  sniff := Media.Signatures.standard.typeOf

def emptyDisk : Disk := { names := fun _ => "0123456789abcdef0123456789abcdef" }

def emptyService : MemoryService := { buckets := ["depot"] }

theorem bare_emptyDisk : depotFiles.Bare emptyDisk := by
  have hname : IsHex 32 "0123456789abcdef0123456789abcdef" :=
    ⟨by decide, List.all_eq_true.1 (by decide)⟩
  refine ⟨fun rest hne => ?_, fun _ => hname, rfl, rfl⟩
  exact if_neg (List.append_ne_nil_of_right_ne_nil _ hne)

theorem bare_emptyService : depotBucket.Bare emptyService := ⟨by decide, fun _ => rfl⟩

def gifImage : Bytes := Bytes.ofText "GIF89a"

/-- The digest of the image. -/
def gifDigest : String := "610f5ae4d76e332636a17bd357fd6ce99029316a99d320280d4d77a746bf29e8"

def brokenPipe : Mishap := { kind := .system, label := "OSError", text := "broken pipe" }

/-- The image is pushed, breaks off, and is streamed. -/
def threeArrivals : List Arrival :=
  [.pushed none [gifImage.take 3, gifImage.drop 3], .streamed (some 7) [.bytes gifImage, .fails brokenPipe],
   .streamed none [.bytes gifImage, .nothing]]

/-- The three, one after the other. -/
def threeUploads (store : Store Q A) : Dialogue Q A (List Attempt) :=
  Dialogue.inTurn (threeArrivals.map (·.upload { store, terms := gifTerms, chunkSize := 1024 }))

/-- What they come to if no store fails: the image is new, then cut off, then a duplicate. -/
def threeResults : List (Except Failure Ref) :=
  [.ok { hash := gifDigest, mime := "image/gif", size := 6, duplicate := false },
   .error (.told (.stream (.reading brokenPipe))),
   .ok { hash := gifDigest, mime := "image/gif", size := 6, duplicate := true }]

def filedThree : List Attempt × Disk := (threeUploads depotFiles.store).run Disk.answer emptyDisk

def servedThree : List Attempt × MemoryService :=
  (threeUploads depotBucket.store).run MemoryService.answer emptyService

theorem filedThree_results : filedThree.1.map (·.result) = threeResults ∧
    depotFiles.objects filedThree.2 (Store.slot gifDigest) = some gifImage := by
  decide +kernel

theorem servedThree_results : servedThree.1.map (·.result) = threeResults ∧
    depotBucket.objects servedThree.2 (depotBucket.keyOf gifDigest) = some gifImage := by
  decide +kernel

/-- Into an empty directory and into an empty bucket. -/
theorem uploads_intact_three :
    let mishaps := fun m : Mishap => m.kind = .system
    ∃ (hs : depotFiles.Straight) (hm : ∀ m, mishaps m → m.kind ≠ .alreadyThere),
      depotFiles.Bare emptyDisk ∧ depotBucket.Bare emptyService ∧
      (∀ state, Dialogue.Reaches (DiskWorld mishaps) (threeUploads depotFiles.store, emptyDisk) state →
        Intact (depotFiles.shelf hs mishaps hm) gifTerms state) ∧
      (∀ state, Dialogue.Reaches ServiceWorld (threeUploads depotBucket.store, emptyService) state →
        Intact depotBucket.shelf gifTerms state) ∧
      (filedThree.1.map (·.result) = threeResults ∧
        depotFiles.objects filedThree.2 (Store.slot gifDigest) = some gifImage) ∧
      servedThree.1.map (·.result) = threeResults ∧
        depotBucket.objects servedThree.2 (depotBucket.keyOf gifDigest) = some gifImage := by
  intro mishaps
  have hs : depotFiles.Straight := FileStore.straight_of_not_mem (by decide)
  have hm : ∀ m, mishaps m → m.kind ≠ .alreadyThere := by
    intro m hsystem halready
    rw [show m.kind = .system from hsystem] at halready
    cases halready
  obtain ⟨hfiled, hserved⟩ :=
    uploads_intact hs hm bare_emptyDisk bare_emptyService gifTerms 1024 threeArrivals
  exact ⟨hs, hm, bare_emptyDisk, bare_emptyService, hfiled, hserved, filedThree_results,
    servedThree_results⟩

end UploadDepot.Upload

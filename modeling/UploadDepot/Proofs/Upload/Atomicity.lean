/-
An upload adds the file of its object, or no file at all.

A stream ends, or what it brought is refused, or a read fails before that
(`Candidate.Ended`); a stream error says that it was the last
(`ingest_stream_iff`). Only a stream that ended comes to a commit, and of
this the frame is known whatever stands inside the root
(`FileStore.commit_frame`). A failure is of one of four kinds, unless the
path of the object cannot be followed for its length, or is none: then the
fault of the file system comes as it is (`ingest_escapes_long_root`).
-/
import UploadDepot.Proofs.Store.FileFrame
import UploadDepot.Proofs.Upload.Integrity

namespace UploadDepot.Upload

open Sha256 (hexOf)
open Store (FileStore Disk DiskRequest DiskWorld slot)

/-- The bytes that a stream brings: those of the reads before the first that brings none. -/
def Read.brought : List Read → Bytes
  | .bytes (b :: bs) :: reads => b :: bs ++ brought reads
  | _ => []

/-- A failure of one of the four kinds. -/
inductive Failure.OfKind : Failure → Prop
  | tooLarge (limit : Int) : OfKind (.told (.tooLarge limit))
  | unsupportedType (mime : String) : OfKind (.told (.unsupportedType mime))
  | stream (fault : StreamFault) : OfKind (.told (.stream fault))
  | storage (fault : Store.StorageFault) : OfKind (.told (.storage fault))

/-- Files before and after an upload of data, by what it came to. -/
inductive Atomic (s : FileStore) (data : Bytes) (t t' : Files.Tree Bytes) : Except Failure Ref → Prop
  | failed {e : Failure} : e.OfKind → t'.files = t.files → Atomic s data t t' (.error e)
  /-- The path of the object leads nowhere, and nobody has answered for that. -/
  | escaped {fault : Files.Fault} : s.Unaddressed t (hexOf data) fault → t'.files = t.files →
      Atomic s data t t' (.error (.stray (.file fault)))
  | duplicate {ref : Ref} : ref.duplicate = true → ref.hash = hexOf data → t'.files = t.files →
      Atomic s data t t' (.ok ref)
  /-- One file more, in the place of the object. -/
  | fresh {ref : Ref} : ref.duplicate = false → ref.hash = hexOf data →
      t.files (s.home ++ slot ref.hash) = none →
      t'.files = Function.update t.files (s.home ++ slot ref.hash) (some data) →
      Atomic s data t t' (.ok ref)

/-! ## Reading a stream -/

namespace Candidate

variable {c : Candidate} {reads : List Read}

/-- The ways in which reading a stream can end. -/
inductive Ended (c : Candidate) (reads : List Read) : Candidate × Nat × Except Failure Unit → Prop
  | whole {c' : Candidate} {taken : Nat} : c'.Sound → c'.terms = c.terms →
      c'.content = c.content ++ Read.brought reads → Ended c reads (c', taken, .ok ())
  | refused {c' : Candidate} {taken : Nat} {data : Bytes} {e : UploadError} :
      Refused c.terms data e → Ended c reads (c', taken, .error (.told e))
  | broken {c' : Candidate} {taken : Nat} {m : Mishap} :
      .fails m ∈ reads → Ended c reads (c', taken, .error (Failure.ofRead m))

theorem Sound.read_ended (h : c.Sound) (reads : List Read) (n : Nat) :
    Ended c reads (c.read reads n) := by
  induction reads generalizing c n with
  | nil => exact .whole h rfl (List.append_nil _).symm
  | cons r reads ih =>
    match r with
    | .nothing | .bytes [] => exact .whole h rfl (List.append_nil _).symm
    | .fails m => exact .broken List.mem_cons_self
    | .bytes (b :: bs) =>
      unfold Candidate.read
      rcases h.feed (b :: bs) with ⟨c', hfeed, hsound, hterms, hcontent, _⟩ | ⟨c', e, hfeed, hrefused⟩
      · rw [hfeed]
        dsimp only
        have hrest := ih hsound (n + 1)
        generalize c'.read reads (n + 1) = r at hrest ⊢
        cases hrest with
        | whole hsound' hterms' hcontent' =>
          refine .whole hsound' (hterms'.trans hterms) ?_
          rw [hcontent', hcontent, List.append_assoc]
          rfl
        | refused hrefused => exact .refused (hterms ▸ hrefused)
        | broken hm => exact .broken (List.mem_cons_of_mem _ hm)
      · rw [hfeed]
        exact .refused hrefused

/-- A read fails, and the chunks before it were taken, none of them being empty. -/
def Breaks (c : Candidate) (reads : List Read) : Prop :=
  ∃ chunks m rest, reads = chunks.map Read.bytes ++ .fails m :: rest ∧ [] ∉ chunks ∧
    (c.feedAll chunks 0).2.2 = .ok ()

/-- How feeding ends does not hang on the count. -/
theorem feedAll_ended (c : Candidate) (chunks : List Bytes) (n k : Nat) :
    (c.feedAll chunks n).2.2 = (c.feedAll chunks k).2.2 := by
  induction chunks generalizing c n k with
  | nil => rfl
  | cons chunk chunks ih =>
    unfold feedAll
    generalize c.feed chunk = r
    obtain ⟨c', _ | _⟩ := r
    · rfl
    · exact ih c' _ _

theorem breaks_fails (c : Candidate) (m : Mishap) (reads : List Read) : c.Breaks (.fails m :: reads) :=
  ⟨[], m, reads, rfl, List.not_mem_nil, rfl⟩

theorem breaks_bytes {b : UInt8} {bs : Bytes} {c' : Candidate} {ended : Except Failure Unit}
    (hfeed : c.feed (b :: bs) = (c', ended)) :
    c.Breaks (.bytes (b :: bs) :: reads) ↔ ended = .ok () ∧ c'.Breaks reads := by
  constructor
  · rintro ⟨chunks, m, rest, hreads, hempty, hfed⟩
    cases chunks with
    | nil => simp at hreads
    | cons chunk chunks =>
      simp only [List.map_cons, List.cons_append, List.cons.injEq, Read.bytes.injEq] at hreads
      obtain ⟨rfl, rfl⟩ := hreads
      rw [feedAll, hfeed] at hfed
      cases ended with
      | error e => cases hfed
      | ok =>
        rw [feedAll_ended c' chunks _ 0] at hfed
        exact ⟨rfl, chunks, m, rest, rfl, fun hmem => hempty (List.mem_cons_of_mem _ hmem), hfed⟩
  · rintro ⟨rfl, chunks, m, rest, rfl, hempty, hfed⟩
    refine ⟨(b :: bs) :: chunks, m, rest, rfl, by simp [hempty], ?_⟩
    rw [feedAll, hfeed]
    exact (feedAll_ended c' chunks _ 0).trans hfed

theorem not_breaks_nil (c : Candidate) : ¬ c.Breaks [] := by
  rintro ⟨chunks, m, rest, hreads, -⟩
  simp at hreads

/-- A stream that ends does not break any more. -/
theorem not_breaks_end {r : Read} (h : r = .nothing ∨ r = .bytes []) (c : Candidate) (reads : List Read) :
    ¬ c.Breaks (r :: reads) := by
  rintro ⟨chunks, m, rest, hreads, hempty, -⟩
  cases chunks with
  | nil =>
    rw [List.map_nil, List.nil_append, List.cons.injEq] at hreads
    rcases h with rfl | rfl <;> cases hreads.1
  | cons chunk chunks =>
    rw [List.map_cons, List.cons_append, List.cons.injEq] at hreads
    rcases h with rfl | rfl <;> cases hreads.1
    exact hempty List.mem_cons_self

/-- Reading ends with a stream error if, and only if, the stream breaks. -/
theorem Sound.read_stream_iff (h : c.Sound) (hreads : ∀ m, .fails m ∈ reads → m.kind ≠ .other) (n : Nat) :
    (∃ fault, (c.read reads n).2.2 = .error (.told (.stream fault))) ↔ c.Breaks reads := by
  induction reads generalizing c n with
  | nil => simp [Candidate.read, not_breaks_nil]
  | cons r reads ih =>
    match r with
    | .nothing => simp [Candidate.read, not_breaks_end (.inl rfl)]
    | .bytes [] => simp [Candidate.read, not_breaks_end (.inr rfl)]
    | .fails m =>
      have hkind := hreads m List.mem_cons_self
      simp [Candidate.read, Failure.ofRead, hkind, breaks_fails]
    | .bytes (b :: bs) =>
      unfold Candidate.read
      rcases h.feed (b :: bs) with ⟨c', hfeed, hsound, -⟩ | ⟨c', e, hfeed, hrefused⟩
      · rw [breaks_bytes hfeed, hfeed]
        simpa using ih hsound (fun m hm => hreads m (List.mem_cons_of_mem _ hm)) (n + 1)
      · rw [breaks_bytes hfeed, hfeed]
        cases hrefused <;> simp

end Candidate

/-! ## An upload -/

section Ingest

variable {Q : Type} {A : Q → Type} {σ : Type}

/-- The end of a stream that was read is no stream error. -/
theorem Pipeline.publish_not_stream (p : Pipeline Q A) {c : Candidate} (hc : c.Sound) (taken : Nat)
    (answer : (q : Q) → σ → A q × σ) (s : σ) (fault : StreamFault) :
    ((p.publish c taken).run answer s).1.result ≠ .error (.told (.stream fault)) := by
  rcases Pipeline.publish_cases hc taken with ⟨a, mime, hresult, -, -, -, hpublish⟩ |
    ⟨mime, report, -, hreport, hpublish⟩
  · rw [hpublish]
    show a.result ≠ _
    rw [hresult]
    intro h
    cases h
  · rw [hpublish, Dialogue.run_andThen]
    show (report _).result ≠ _
    rw [(hreport _).1]
    rcases Log.Logged.value _ with (_ | _) | created <;> exact fun h => by cases h

/-- **A stream error** says that a read failed, and that all before it was taken. So it is with every
store. -/
theorem Pipeline.ingest_stream_iff (p : Pipeline Q A) (answer : (q : Q) → σ → A q × σ) (s : σ)
    (declared : Option Int) {reads : List Read} (hreads : ∀ m, .fails m ∈ reads → m.kind ≠ .other) :
    (∃ fault, ((p.ingest declared reads).run answer s).1.result = .error (.told (.stream fault))) ↔
      (∀ n ∈ declared, n ≤ p.terms.maxSize) ∧ Candidate.Breaks { terms := p.terms } reads := by
  by_cases hdeclared : ∀ n ∈ declared, n ≤ p.terms.maxSize
  case neg =>
    rw [Pipeline.ingest, Pipeline.candidate_of_not_le hdeclared]
    simp only [hdeclared, false_and, iff_false]
    rintro ⟨fault, h⟩
    cases h
  case pos =>
    have hended := (Candidate.Sound.fresh p.terms).read_ended reads 0
    rw [Pipeline.ingest, Pipeline.candidate_of_le hdeclared, and_iff_right hdeclared,
      ← (Candidate.Sound.fresh p.terms).read_stream_iff hreads 0]
    dsimp only
    generalize Candidate.read _ reads 0 = r at hended ⊢
    cases hended with
    | whole hsound =>
      simp only [Pipeline.conclude, p.publish_not_stream hsound, reduceCtorEq]
    | refused => simp only [Pipeline.conclude, Dialogue.run, Except.error.injEq]
    | broken => simp only [Pipeline.conclude, Dialogue.run, Except.error.injEq]

end Ingest

section Files

variable {p : Pipeline DiskRequest DiskRequest.Reply} {s : FileStore} {d : Disk}
  {mishaps : Mishap → Prop} {reads : List Read}

theorem Candidate.Refused.ofKind {t : Terms} {data : Bytes} {e : UploadError}
    (h : Candidate.Refused t data e) : Failure.OfKind (.told e) := by
  cases h with
  | tooLarge => exact .tooLarge _
  | unsupportedType => exact .unsupportedType _

theorem Failure.ofRead_ofKind {m : Mishap} (h : m.kind ≠ .other) : (Failure.ofRead m).OfKind := by
  rw [Failure.ofRead, if_neg h]
  exact .stream _

/-- What is reported after a commit, when links fail for the system's reasons only. -/
theorem atomic_reported {data : Bytes} {mime : String} {t t' : Files.Tree Bytes}
    {value : Except Store.Fault Bool} (hm : ∀ m, mishaps m → m.isSystem = true)
    (h : s.Framed mishaps (s.Reports mishaps (hexOf data) t) (hexOf data) data t t' value) :
    Atomic s data t t' (reported data mime value) := by
  cases h with
  | created hnone hnew => exact .fresh rfl rfl hnone hnew
  | found _ hsame => exact .duplicate rfl rfl hsame
  | failed hwhy hsame =>
    cases hwhy with
    | storage => exact .failed (.storage _) hsame
    | stray hmishap hnot =>
      rw [hm _ hmishap] at hnot
      cases hnot
    | unaddressed hfault => exact .escaped hfault hsame

/-- **The files of an upload.** Whatever stands inside the root or is the root, whatever reads fail and
however the write and the link do, a failure leaves all files as they were, and so does an object that is
there already; a new object is one file more. -/
theorem ingest_framed (hstore : p.store = s.store) (hd : s.Unclaimed d)
    (hmay : ∀ m, d.MayMeet m → mishaps m) (hm : ∀ m, mishaps m → m.isSystem = true)
    (declared : Option Int) (hreads : ∀ m, .fails m ∈ reads → m.kind ≠ .other) :
    (p.ingest declared reads).Always (DiskWorld mishaps) (fun _ _ => True)
      (fun a d' => Atomic s (Read.brought reads) d.tree d'.tree a.result) d := by
  by_cases hdeclared : ∀ n ∈ declared, n ≤ p.terms.maxSize
  case neg =>
    rw [Pipeline.ingest, Pipeline.candidate_of_not_le hdeclared]
    exact .failed (.tooLarge _) rfl
  case pos =>
    have hended := (Candidate.Sound.fresh p.terms).read_ended reads 0
    rw [Pipeline.ingest, Pipeline.candidate_of_le hdeclared]
    dsimp only
    generalize Candidate.read _ reads 0 = r at hended ⊢
    cases hended with
    | refused hrefused => exact .failed hrefused.ofKind rfl
    | broken hfails => exact .failed (Failure.ofRead_ofKind (hreads _ hfails)) rfl
    | whole hsound _ hcontent =>
      rw [show Read.brought reads = _ from hcontent.symm]
      refine Pipeline.publish_always hsound _ (fun a mime hresult _ _ => ?_) fun mime _ => ?_
      · rw [hresult]
        exact .failed (.unsupportedType mime) rfl
      · rw [hstore]
        refine (FileStore.commit_frame (isHex_hexOf _) hmay hd).imp ?_
        intro committed d' hframed a hresult
        rw [hresult]
        exact atomic_reported hm hframed

/-- Below an addressable root every failure is of one of the four kinds. -/
theorem Atomic.ofKind {data : Bytes} {t t' : Files.Tree Bytes} {e : Failure}
    (h : Atomic s data t t' (.error e)) (hs : s.Addressable) : e.OfKind := by
  cases h with
  | failed hkind => exact hkind
  | escaped hfault => exact absurd hfault (hs.not_unaddressed (isHex_hexOf _) _)

/-- **An upload is atomic**, below any root and whatever stands inside it. It comes to a reference or to
a failure. A new object is one file more, of the bytes that the stream brought; an object that was there
already and every failure leave all files as they were, those of the quarantine included. A stream error
says that a read failed, and that all before it was taken. A failure is of one of the four kinds, but for
the faults of a root that is no path or whose objects' paths are too long; an addressable root has none. -/
theorem ingest_atomic (hstore : p.store = s.store) (hd : s.Unclaimed d)
    (hmay : ∀ m, d.MayMeet m → m.isSystem = true) (declared : Option Int)
    (hreads : ∀ m, .fails m ∈ reads → m.kind ≠ .other) :
    Atomic s (Read.brought reads) d.tree ((p.ingest declared reads).run Disk.answer d).2.tree
        ((p.ingest declared reads).run Disk.answer d).1.result ∧
      ((∃ fault, ((p.ingest declared reads).run Disk.answer d).1.result =
          .error (.told (.stream fault))) ↔
        (∀ n ∈ declared, n ≤ p.terms.maxSize) ∧ Candidate.Breaks { terms := p.terms } reads) ∧
      (s.Addressable → ∀ e, ((p.ingest declared reads).run Disk.answer d).1.result = .error e →
        e.OfKind) := by
  have hframed := ingest_framed hstore hd hmay (fun _ => id) declared hreads
  have hrun := (hframed.narrow fun q d reply d' h => (Store.exactly_disk q d reply d' h).mono nofun).run
  exact ⟨hrun, p.ingest_stream_iff Disk.answer d declared hreads,
    fun hs e he => Atomic.ofKind (he ▸ hrun) hs⟩

/-! ## Disks on which an upload fails -/

def gifPipeline (s : FileStore) : Pipeline DiskRequest DiskRequest.Reply :=
  { store := s.store, terms := gifTerms, chunkSize := 4 }

/-- The image is read in two pieces. -/
def gifReads : List Read := [.bytes (gifImage.take 4), .bytes (gifImage.drop 4), .nothing]

/-- It is uploaded to a disk. -/
def gifUpload (s : FileStore) (disk : Disk) : Attempt × Disk :=
  ((gifPipeline s).ingest none gifReads).run Disk.answer disk

def diskFull : Mishap := { kind := .system, label := "OSError", text := "no space left on device" }

/-- A file stands where the quarantine belongs; a write breaks off after three bytes; a link fails. -/
def failingDisks : List Disk :=
  let srv : Files.Tree Bytes := [(["srv"], .directory), (["srv", "depot"], .directory)]
  [{ emptyDisk with tree := srv.set ["srv", "depot", ".quarantine"] (.file (Bytes.ofText "keep out")) },
   { emptyDisk with tree := srv, writeBreaks := some { mishap := diskFull, reached := some 3 } },
   { emptyDisk with tree := srv, linkFails := some diskFull }]

/-- What goes wrong on each of them. -/
def failingFaults : List Files.Fault :=
  [.refused .alreadyThere [depotFiles.quarantine], .mishap diskFull, .mishap diskFull]

theorem failingDisks_results :
    failingDisks.map (fun disk => (gifUpload depotFiles disk).1.result) =
      failingFaults.map fun fault =>
        .error (.told (.storage (.writing (depotFiles.pathOf gifDigest) fault))) := by
  decide +kernel

/-- On each of them the image comes as far as to its commit, and not into the store. -/
theorem ingest_atomic_storage_fails :
    depotFiles.Addressable ∧ (∀ disk ∈ failingDisks, depotFiles.Unclaimed disk) ∧
      (∀ disk ∈ failingDisks, ∀ m, disk.MayMeet m → m.isSystem = true) ∧
      (∀ m, .fails m ∈ gifReads → m.kind ≠ .other) ∧
      (failingDisks.map (fun disk => (gifUpload depotFiles disk).1.result) =
        failingFaults.map fun fault =>
          .error (.told (.storage (.writing (depotFiles.pathOf gifDigest) fault)))) ∧
      ∀ disk ∈ failingDisks, Atomic depotFiles (Read.brought gifReads) disk.tree
        (gifUpload depotFiles disk).2.tree (gifUpload depotFiles disk).1.result := by
  have hs : depotFiles.Addressable := ⟨by decide, by decide +kernel, by decide +kernel⟩
  have hhex : IsHex 32 "0123456789abcdef0123456789abcdef" := bare_emptyDisk.names 0
  have hd : ∀ disk ∈ failingDisks, depotFiles.Unclaimed disk := by
    simp only [failingDisks, List.forall_mem_cons, List.not_mem_nil, false_implies, implies_true, and_true]
    exact ⟨⟨hhex, by decide +kernel⟩, ⟨hhex, by decide +kernel⟩, ⟨hhex, by decide +kernel⟩⟩
  have hmay : ∀ disk ∈ failingDisks, ∀ m, disk.MayMeet m → m.isSystem = true := by
    simp [failingDisks, emptyDisk, Disk.MayMeet, diskFull, Mishap.isSystem]
  have hreads : ∀ m, .fails m ∈ gifReads → m.kind ≠ .other := by simp [gifReads]
  refine ⟨hs, hd, hmay, hreads, failingDisks_results, fun disk hdisk => ?_⟩
  exact (ingest_atomic (p := gifPipeline depotFiles) rfl (hd disk hdisk) (hmay disk hdisk) none hreads).1

/-- A root sixteen directories deep, whose path is almost as long as a path may be. -/
def longFiles : FileStore :=
  { depotFiles with
    root := { anchor := "/", parts := List.replicate 16 (String.ofList (List.replicate 251 'a')) } }

/-- The root is there, and nothing else. -/
def longDisk : Disk :=
  { emptyDisk with
    tree := (List.range 16).map fun n => (longFiles.root.parts.take (n + 1), .directory) }

theorem longDisk_result : (gifUpload longFiles longDisk).1.result =
    .error (.stray (.file (.refused .nameTooLong [longFiles.pathOf gifDigest]))) := by
  decide +kernel

/-- The root is there, but the paths of its objects are longer than any path may be. That is found out
before anything is caught, and what comes of the image is no failure of the four kinds. -/
theorem ingest_escapes_long_root :
    longFiles.Unclaimed longDisk ∧ longDisk.Sound ∧
      longDisk.tree.isDirectory longFiles.root.parts = true ∧
      (gifUpload longFiles longDisk).1.result =
        .error (.stray (.file (.refused .nameTooLong [longFiles.pathOf gifDigest]))) ∧
      ¬ ∀ e, (gifUpload longFiles longDisk).1.result = .error e → e.OfKind := by
  have hd : longFiles.Unclaimed longDisk := ⟨bare_emptyDisk.names 0, by decide +kernel⟩
  refine ⟨hd, ⟨rfl, rfl⟩, by decide +kernel, longDisk_result, fun hkind => ?_⟩
  cases hkind _ longDisk_result

end Files

end UploadDepot.Upload

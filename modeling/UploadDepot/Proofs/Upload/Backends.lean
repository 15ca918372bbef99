/-
Files and a bucket are the same to those who use them.

A disk and a service `Mirror` each other when they hold the same objects under
the same digests, the service with the types that the files are told to have.
Over such a pair two dialogues `Agree` that come to the same and leave a pair
of the same kind. The uploads, questions and reads of the two stores agree one
by one, and so do all sequences of them, beginning with an empty root and an
empty bucket (`backends_agree`).
-/
import UploadDepot.Proofs.Upload.Integrity

namespace UploadDepot.Upload

open Sha256 (hexOf)
open Store (BucketStore Commits Disk DiskRequest DiskTalk FileStore Loaded MemoryService ServiceTalk Spool
  slot)

variable {Q : Type} {A : Q → Type} {α β γ δ : Type}

/-! ## Demands -/

/-- What can be asked of a pipeline and of its store. -/
inductive Demand where
  /-- To take in a stream, given by what its reads give if so many bytes are asked for in each. -/
  | ingest (declared : Option Int) (stream : Int → List Read)
  | push (declared : Option Int) (chunks : List Bytes)
  | holds (digest : String) (hex : IsHex 64 digest)
  | load (digest : String) (hex : IsHex 64 digest)

/-- What is seen of the answer. -/
inductive Sight where
  | stored (result : Except Failure Ref)
  | held (there : Except Store.Fault Bool)
  | loaded (object : Except Store.Fault (Option (Bytes × String)))
  deriving DecidableEq

/-- The bytes and the type of an object handed out. -/
def shown (object : Except Store.Fault (Option Loaded)) : Except Store.Fault (Option (Bytes × String)) :=
  object.map fun object => object.map fun loaded => (loaded.data, loaded.mime)

/-- How a demand is met. -/
def Demand.meet (p : Pipeline Q A) : Demand → Dialogue Q A Sight
  | .ingest declared stream =>
    (p.ingest declared (stream p.chunkSize)).andThen fun attempt => .done (.stored attempt.result)
  | .push declared chunks =>
    (p.push declared chunks).andThen fun attempt => .done (.stored attempt.result)
  | .holds digest _ => (p.store.holds digest).andThen fun there => .done (.held there)
  | .load digest _ => (p.store.load digest).andThen fun object => .done (.loaded (shown object))

/-! ## Agreement -/

/-- Stores that look at as many bytes as the terms say, and tell types as they do. -/
structure SameTypes (files : FileStore) (bucket : BucketStore) (terms : Terms) : Prop where
  nonneg : 0 ≤ terms.sniffBytes
  filesBytes : files.sniffBytes = terms.sniffBytes
  bucketBytes : bucket.sniffBytes = terms.sniffBytes
  filesSniff : files.sniff = terms.sniff
  bucketSniff : bucket.sniff = terms.sniff

/-- A disk and a service that hold the same objects. -/
structure Mirror (files : FileStore) (bucket : BucketStore) (terms : Terms) (d : Disk)
    (s : MemoryService) : Prop where
  ready : files.Ready d
  usable : files.Usable d.tree
  honest : s.prepared = []
  objects : ∀ digest, IsHex 64 digest →
    s.objects.get? (bucket.bucket, bucket.keyOf digest) =
      (files.objects d (slot digest)).map fun data => BucketStore.written data (terms.typeOf data)

/-- Two dialogues that come to the same, and leave a disk and a service that hold the same objects. -/
def Agree (files : FileStore) (bucket : BucketStore) (terms : Terms) (same : α → β → Prop)
    (talk : DiskTalk α) (talk' : ServiceTalk β) : Prop :=
  ∀ d s, Mirror files bucket terms d s →
    same (talk.run Disk.answer d).1 (talk'.run MemoryService.answer s).1 ∧
      Mirror files bucket terms (talk.run Disk.answer d).2 (talk'.run MemoryService.answer s).2

section Agreement

variable {files : FileStore} {bucket : BucketStore} {terms : Terms} {digest : String} {d : Disk}
  {s : MemoryService} {same : α → β → Prop} {same' : γ → δ → Prop}

theorem Agree.done {a : α} {b : β} (h : same a b) : Agree files bucket terms same (.done a) (.done b) :=
  fun _ _ hmirror => ⟨h, hmirror⟩

/-- What agrees at first may go on with anything that agrees. -/
theorem Agree.andThen {talk : DiskTalk α} {talk' : ServiceTalk β} {f : α → DiskTalk γ}
    {f' : β → ServiceTalk δ} (h : Agree files bucket terms same talk talk')
    (hf : ∀ a b, same a b → Agree files bucket terms same' (f a) (f' b)) :
    Agree files bucket terms same' (talk.andThen f) (talk'.andThen f') := by
  intro d s hmirror
  obtain ⟨hsame, hleft⟩ := h d s hmirror
  rw [Dialogue.run_andThen, Dialogue.run_andThen]
  exact hf _ _ hsame _ _ hleft

theorem Mirror.has (h : Mirror files bucket terms d s) (hdigest : IsHex 64 digest) :
    s.objects.has (bucket.bucket, bucket.keyOf digest) = (files.objects d (slot digest)).isSome := by
  rw [Table.has, h.objects digest hdigest, Option.isSome_map]

/-- The object of new data on both sides. -/
theorem Mirror.stored {d' : Disk} {data : Bytes} (h : Mirror files bucket terms d s)
    (hready : files.Ready d') (husable : files.Usable d'.tree)
    (hafter : files.objects d' (slot (hexOf data)) = some data)
    (hothers : ∀ place, place ≠ slot (hexOf data) → files.objects d' place = files.objects d place) :
    Mirror files bucket terms d' { s with
      objects := s.objects.set (bucket.bucket, bucket.keyOf (hexOf data))
        (BucketStore.written data (terms.typeOf data)) } := by
  refine ⟨hready, husable, h.honest, fun digest hdigest => ?_⟩
  dsimp only
  by_cases hsame : digest = hexOf data
  · subst hsame
    rw [Table.get?_set_self, hafter, Option.map_some]
  · have hkey : (bucket.bucket, bucket.keyOf digest) ≠ (bucket.bucket, bucket.keyOf (hexOf data)) :=
      fun he => hsame (BucketStore.keyOf_injective (Prod.mk.inj he).2)
    rw [Table.get?_set_other _ _ hkey, hothers _ fun he => hsame (Store.slot_injective he)]
    exact h.objects digest hdigest

/-- **A commit** creates the object on both sides or on none. -/
theorem commit_agree (hs : files.Straight) (ht : SameTypes files bucket terms) {data : Bytes}
    {mime : String} (htyped : Typed terms data mime) :
    Agree files bucket terms (fun committed committed' => committed.value = committed'.value)
      (files.commit (hexOf data) { content := data, position := data.length })
      (bucket.commit (hexOf data) mime { content := data, position := data.length } data.length) := by
  intro d s h
  have hspool : hexOf data = hexOf (Spool.content { content := data, position := data.length }) := rfl
  obtain ⟨created, hvalue, hready, husable, hcommits⟩ :=
    (FileStore.commit_exact h.ready hs h.usable hspool).run
  have hbucket := BucketStore.run_commit (b := bucket) h.honest (hexOf data) mime
    { content := data, position := data.length } data.length
  rw [h.has (isHex_hexOf data), htyped.told ht.nonneg] at hbucket
  cases hcommits with
  | created hnone hafter hothers =>
    rw [show files.objects d (slot (hexOf data)) = none from hnone] at hbucket
    rw [htyped.told ht.nonneg, hbucket]
    exact ⟨hvalue, h.stored hready husable hafter hothers⟩
  | present hold hsame =>
    rw [show files.objects d (slot (hexOf data)) = some _ from hold] at hbucket
    rw [htyped.told ht.nonneg, hbucket]
    refine ⟨hvalue, hready, husable, h.honest, fun digest hdigest => ?_⟩
    rw [hsame]
    exact h.objects digest hdigest

/-- The question for an object is answered alike. -/
theorem holds_agree (hdigest : IsHex 64 digest) :
    Agree files bucket terms Eq (files.store.holds digest) (bucket.store.holds digest) := by
  intro d s h
  obtain ⟨hleft, hthere⟩ :=
    ((FileStore.holds_always h.ready h.usable hdigest (G := fun _ _ => True) trivial).narrow
      Store.exactly_disk).run
  have hrun : (bucket.store.holds digest).run MemoryService.answer s =
      (.ok (files.objects d (slot digest)).isSome, s) := by
    refine (Dialogue.run_andThen MemoryService.answer (bucket.holds digest) _ s).trans ?_
    rw [BucketStore.run_holds h.honest, h.has hdigest]
    rfl
  rw [hrun]
  exact ⟨hthere, hleft.symm ▸ h⟩

/-- The type that was noted with an object is the one its bytes tell; an empty one is told anew. -/
theorem SameTypes.loaded (ht : SameTypes files bucket terms) (data : Bytes) :
    (bucket.loaded (BucketStore.written data (terms.typeOf data))).data = data ∧
      (bucket.loaded (BucketStore.written data (terms.typeOf data))).mime = terms.typeOf data := by
  by_cases hempty : terms.typeOf data = ""
  · have htold : bucket.sniff (data.upTo bucket.sniffBytes) = terms.typeOf data := by
      rw [ht.bucketSniff, ht.bucketBytes, upTo_of_nonneg ht.nonneg, Terms.typeOf]
    rw [hempty] at htold ⊢
    exact ⟨rfl, htold⟩
  · rw [BucketStore.loaded_written data hempty]
    exact ⟨rfl, rfl⟩

/-- An object is handed out alike. -/
theorem load_agree (ht : SameTypes files bucket terms) (hdigest : IsHex 64 digest) :
    Agree files bucket terms (fun object object' => shown object = shown object')
      (files.store.load digest) (bucket.store.load digest) := by
  intro d s h
  obtain ⟨hleft, hloaded⟩ :=
    ((FileStore.load_always h.ready h.usable hdigest (G := fun _ _ => True) trivial).narrow
      Store.exactly_disk).run
  have hrun : (bucket.store.load digest).run MemoryService.answer s = _ :=
    BucketStore.run_load h.honest digest
  rw [hrun, h.objects digest hdigest]
  refine ⟨(congrArg shown hloaded).trans ?_, hleft.symm ▸ h⟩
  cases files.objects d (slot digest) with
  | none => rfl
  | some data =>
    obtain ⟨hdata, hmime⟩ := ht.loaded data
    have htold : files.sniff (data.upTo files.sniffBytes) = terms.typeOf data := by
      rw [ht.filesSniff, ht.filesBytes, upTo_of_nonneg ht.nonneg, Terms.typeOf]
    simp only [shown, Except.map, Option.map_some, htold, hdata, hmime]

/-- A file that comes in any way. -/
theorem upload_agree (hs : files.Straight) (ht : SameTypes files bucket terms) (chunkSize : Int)
    (arrival : Arrival) :
    Agree files bucket terms (fun attempt attempt' => attempt.result = attempt'.result)
      (arrival.upload { store := files.store, terms, chunkSize })
      (arrival.upload { store := bucket.store, terms, chunkSize }) := by
  rcases arrival.upload_settled terms with ⟨a, e, hresult, hdone⟩ |
    ⟨data, mime, report, htyped, hreport, hcommit⟩
  · rw [show arrival.upload { store := files.store, terms, chunkSize } = _ from hdone _ rfl,
      show arrival.upload { store := bucket.store, terms, chunkSize } = _ from hdone _ rfl]
    exact Agree.done rfl
  · rw [show arrival.upload { store := files.store, terms, chunkSize } = _ from hcommit _ rfl,
      show arrival.upload { store := bucket.store, terms, chunkSize } = _ from hcommit _ rfl]
    refine (commit_agree hs ht htyped).andThen fun committed committed' hsame => Agree.done ?_
    rw [hreport, hreport, hsame]

/-- **One demand** is met alike. -/
theorem meet_agree (hs : files.Straight) (ht : SameTypes files bucket terms) (chunkSize : Int)
    (demand : Demand) :
    Agree files bucket terms Eq (demand.meet { store := files.store, terms, chunkSize })
      (demand.meet { store := bucket.store, terms, chunkSize }) := by
  cases demand with
  | ingest declared stream =>
    refine (upload_agree hs ht chunkSize (.streamed declared (stream chunkSize))).andThen ?_
    exact fun _ _ hsame => Agree.done (congrArg Sight.stored hsame)
  | push declared chunks =>
    refine (upload_agree hs ht chunkSize (.pushed declared chunks)).andThen ?_
    exact fun _ _ hsame => Agree.done (congrArg Sight.stored hsame)
  | holds digest hex =>
    exact (holds_agree hex).andThen fun _ _ hsame => Agree.done (congrArg Sight.held hsame)
  | load digest hex =>
    exact (load_agree ht hex).andThen fun _ _ hsame => Agree.done (congrArg Sight.loaded hsame)

/-- All demands, one after the other. -/
theorem meetAll_agree (hs : files.Straight) (ht : SameTypes files bucket terms) (chunkSize : Int)
    (demands : List Demand) :
    Agree files bucket terms Eq
      (Dialogue.inTurn (demands.map (·.meet { store := files.store, terms, chunkSize })))
      (Dialogue.inTurn (demands.map (·.meet { store := bucket.store, terms, chunkSize }))) := by
  induction demands with
  | nil => exact Agree.done rfl
  | cons demand demands ih =>
    refine (meet_agree hs ht chunkSize demand).andThen fun _ _ hfirst => ?_
    refine ih.andThen fun _ _ hrest => Agree.done ?_
    rw [hfirst, hrest]

theorem Mirror.empty (hdisk : files.Bare d) (husable : files.Usable d.tree) (hservice : bucket.Bare s)
    (hhonest : s.prepared = []) : Mirror files bucket terms d s := by
  refine ⟨hdisk.ready, husable, hhonest, fun digest _ => ?_⟩
  rw [hservice.empty, hdisk.objects]
  rfl

/-- **The stores agree.** From an empty root and an empty bucket on, a pipeline over files and one over
the bucket, with the same terms and the same size of reads, meet all demands alike. -/
theorem backends_agree (hs : files.Straight) (ht : SameTypes files bucket terms) (chunkSize : Int)
    (hdisk : files.Bare d) (husable : files.Usable d.tree) (hservice : bucket.Bare s)
    (hhonest : s.prepared = []) (demands : List Demand) :
    ((Dialogue.inTurn (demands.map (·.meet { store := files.store, terms, chunkSize }))).run
        Disk.answer d).1 =
      ((Dialogue.inTurn (demands.map (·.meet { store := bucket.store, terms, chunkSize }))).run
        MemoryService.answer s).1 :=
  (meetAll_agree hs ht chunkSize demands d s (.empty hdisk husable hservice hhonest)).1

/-- A text, which is not admitted. -/
def someText : Bytes := Bytes.ofText "no image"

/-- The digest of the text. -/
def textDigest : String := "453361fd925712bb2f4ef496dfa3480f0d7a1e22fc15dc69e72aeb8086c135ce"

theorem isHex_gifDigest : IsHex 64 gifDigest :=
  ⟨by decide +kernel, List.all_eq_true.1 (by decide +kernel)⟩

theorem isHex_textDigest : IsHex 64 textDigest :=
  ⟨by decide +kernel, List.all_eq_true.1 (by decide +kernel)⟩

/-- The image is streamed, pushed once more, found and read; the text is pushed, and looked for. -/
def sixDemands : List Demand :=
  [.ingest none fun size => Read.ofBytes size gifImage, .push (some 6) [gifImage.take 3, gifImage.drop 3],
   .holds gifDigest isHex_gifDigest, .load gifDigest isHex_gifDigest, .push none [someText],
   .load textDigest isHex_textDigest]

/-- They are met over a store, one after the other. -/
def sixMet {σ : Type} (store : Store Q A) (answer : (q : Q) → σ → A q × σ) (s : σ) :
    List Sight × σ :=
  (Dialogue.inTurn (sixDemands.map (·.meet { store, terms := gifTerms, chunkSize := 4 }))).run answer s

/-- The image is stored once, and the text not at all. -/
def sixSights : List Sight :=
  [.stored (.ok { hash := gifDigest, mime := "image/gif", size := 6, duplicate := false }),
   .stored (.ok { hash := gifDigest, mime := "image/gif", size := 6, duplicate := true }),
   .held (.ok true), .loaded (.ok (some (gifImage, "image/gif"))),
   .stored (.error (.told (.unsupportedType "application/octet-stream"))), .loaded (.ok none)]

theorem sixMet_files : (sixMet depotFiles.store Disk.answer emptyDisk).1 = sixSights := by
  decide +kernel

/-- Over files and over a bucket. -/
theorem backends_agree_six :
    depotFiles.Straight ∧ SameTypes depotFiles depotBucket gifTerms ∧ depotFiles.Bare emptyDisk ∧
      depotFiles.Usable emptyDisk.tree ∧ depotBucket.Bare emptyService ∧ emptyService.prepared = [] ∧
      (sixMet depotFiles.store Disk.answer emptyDisk).1 = sixSights ∧
      (sixMet depotFiles.store Disk.answer emptyDisk).1 =
        (sixMet depotBucket.store MemoryService.answer emptyService).1 := by
  have hs : depotFiles.Straight := FileStore.straight_of_not_mem (by decide)
  have ht : SameTypes depotFiles depotBucket gifTerms := ⟨by decide, rfl, rfl, rfl, rfl⟩
  have husable : depotFiles.Usable emptyDisk.tree :=
    ⟨by decide +kernel, by decide +kernel, by decide +kernel⟩
  exact ⟨hs, ht, bare_emptyDisk, husable, bare_emptyService, rfl, sixMet_files,
    backends_agree hs ht 4 bare_emptyDisk husable bare_emptyService rfl sixDemands⟩

end Agreement

end UploadDepot.Upload

/-
Scenes of rival commits to a store of files, and what all commits keep true.

The turns taken tell which commit was given which name, and whose link was
made. Every commit writes under a name of its own, so its quarantine file
holds all its bytes or is gone (`Coherent.held`), and a link puts these bytes
where no object was. Therefore the objects are those of the beginning and
those that were published (`Coherent.stored`). Each turn keeps it so, and so
does what is swept away in between.
-/
import UploadDepot.Proofs.Interleaving
import UploadDepot.Proofs.Store.Inside

namespace UploadDepot.Store

open Files (Path Place Node)
open Files.Tree (leadsTo Keeps)

namespace FileStore

/-! ## The disk that commits share -/

/-- The next name is borne by nothing else. -/
structure Fresh (files : FileStore) (d : Disk) : Prop where
  given : ∀ k, k < d.named → d.names k ≠ d.names d.named
  free : d.tree.node? (files.home ++ [quarantineName, d.names d.named]) = none

/-- The answers of a disk, of which the names it gives out are fresh. -/
inductive SharedDisk (files : FileStore) : World DiskRequest DiskRequest.Reply Disk
  | answers (q : DiskRequest) (d : Disk) : (q = .freshName → files.Fresh d) →
      SharedDisk files q d (Disk.answer q d).1 (Disk.answer q d).2

/-- A file of the quarantine is swept away, if it is there. -/
def Sweeps (files : FileStore) (d d' : Disk) : Prop :=
  ∃ name, Files.Plain name ∧ d' = (Disk.answer (.remove (files.quarantine.join name)) d).2

/-- In the places of objects there are files only, and nothing goes wrong but for what is on the disk. -/
structure Orderly (files : FileStore) (d : Disk) : Prop where
  slots : ∀ digest node, IsHex 64 digest → d.tree.node? (files.home ++ slot digest) = some node →
    ∃ data, node = .file data
  names : ∀ n, IsHex 32 (d.names n)
  sound : d.Sound

theorem Ready.orderly {files : FileStore} {d : Disk} (h : files.Ready d) : files.Orderly d :=
  ⟨fun _ _ _ hn => h.tidy.node?_object hn, h.names, h.sound⟩

theorem Orderly.publish {files : FileStore} {d : Disk} (h : files.Orderly d) (digest : String)
    (content : Bytes) :
    files.Orderly { d with tree := d.tree.set (files.home ++ slot digest) (.file content) } := by
  have hne : files.home ++ slot digest ≠ [] := place_ne
  refine ⟨fun digest' node hdigest hn => ?_, h.names, h.sound⟩
  by_cases hd : digest' = digest
  · subst hd
    rw [Files.Tree.node?_set_self hne] at hn
    cases hn
    exact ⟨content, rfl⟩
  · rw [Files.Tree.node?_set_other fun he => hd (slot_injective (List.append_cancel_left he))] at hn
    exact h.slots digest' node hdigest hn

/-- What one commit is to store. -/
structure Order where
  digest : String
  hex : IsHex 64 digest
  spool : Spool

/-- The commit of an order. -/
def Order.commit (files : FileStore) (o : Order) : DiskTalk (Log.Logged (Except Fault Bool)) :=
  files.commit o.digest o.spool

/-! ## What the turns tell -/

/-- The scenes of commits. -/
abbrev CommitScene (ι : Type) := Scene ι DiskRequest DiskRequest.Reply Disk

variable {ι : Type} {files : FileStore} {orders : ι → Order} {d₀ : Disk} {s s' : CommitScene ι}
  {i j : ι} {name : String}

/-- A name was given to this commit. -/
def Named (s : CommitScene ι) (i : ι) (name : String) : Prop :=
  (⟨i, .freshName, name⟩ : Turn ι DiskRequest DiskRequest.Reply) ∈ s.turns

/-- A link of this commit was answered. -/
def Answered (s : CommitScene ι) (i : ι) (path : Path) (reply : Except Files.Fault Unit) : Prop :=
  ∃ new, (⟨i, .link path new, reply⟩ : Turn ι DiskRequest DiskRequest.Reply) ∈ s.turns

/-- A link of this commit was made. -/
def Published (s : CommitScene ι) (i : ι) : Prop := ∃ path, Answered s i path (.ok ())

/-- No link of this commit has been answered yet. -/
def Unlinked (s : CommitScene ι) (i : ι) : Prop := ∀ path reply, ¬ Answered s i path reply

/-- There was an object with these bytes in the beginning, or one was published. -/
def Stored (files : FileStore) (orders : ι → Order) (d₀ : Disk) (s : CommitScene ι) (digest : String)
    (data : Bytes) : Prop :=
  files.objects d₀ (slot digest) = some data ∨
    ∃ i, Published s i ∧ (orders i).digest = digest ∧ (orders i).spool.content = data

/-- Questions after which no more is known of names and links. -/
def isQuiet : DiskRequest → Bool
  | .freshName | .link _ _ => false
  | _ => true

/-- No name was given, and no link answered, from one scene to a later one. -/
structure Quiet (s s' : CommitScene ι) : Prop where
  turns : s.turns ⊆ s'.turns
  quiet : ∀ t ∈ s'.turns, t ∈ s.turns ∨ isQuiet t.question = true

theorem Quiet.turn {q : DiskRequest} (hq : isQuiet q = true) (s : CommitScene ι) (i : ι)
    (reply : q.Reply) (w : Disk) : Quiet s (s.turn i q reply w) := by
  refine ⟨fun t ht => Scene.mem_turn.2 (.inl ht), fun t ht => ?_⟩
  refine (Scene.mem_turn.1 ht).imp_right ?_
  rintro rfl
  exact hq

theorem Quiet.put (s : CommitScene ι) (w : Disk) : Quiet s (s.put w) := ⟨fun _ => id, fun _ => .inl⟩

theorem Quiet.named (h : Quiet s s') {name : String} : Named s' i name ↔ Named s i name :=
  ⟨fun hn => (h.quiet _ hn).resolve_right nofun, fun hn => h.turns hn⟩

theorem Quiet.answered (h : Quiet s s') {path : Path} {reply : Except Files.Fault Unit} :
    Answered s' i path reply ↔ Answered s i path reply :=
  ⟨fun ⟨new, hl⟩ => ⟨new, (h.quiet _ hl).resolve_right nofun⟩, fun ⟨new, hl⟩ => ⟨new, h.turns hl⟩⟩

theorem Quiet.published (h : Quiet s s') : Published s' i ↔ Published s i :=
  exists_congr fun _ => h.answered

theorem Quiet.stored (h : Quiet s s') {digest : String} {data : Bytes} :
    Stored files orders d₀ s' digest data ↔ Stored files orders d₀ s digest data :=
  or_congr_right (exists_congr fun _ => and_congr_left' h.published)

theorem named_fresh {name name' : String} {w : Disk} :
    Named (s.turn i .freshName name w) j name' ↔ Named s j name' ∨ (i = j ∧ name = name') := by
  refine Scene.mem_turn.trans (or_congr_right ⟨fun h => ?_, ?_⟩)
  · cases h
    exact ⟨rfl, rfl⟩
  · rintro ⟨rfl, rfl⟩
    rfl

theorem answered_fresh {name : String} {w : Disk} {path : Path} {reply : Except Files.Fault Unit} :
    Answered (s.turn i .freshName name w) j path reply ↔ Answered s j path reply :=
  exists_congr fun _ => Scene.mem_turn.trans (or_iff_left nofun)

theorem named_link {path new : Path} {reply : Except Files.Fault Unit} {w : Disk} {name : String} :
    Named (s.turn i (.link path new) reply w) j name ↔ Named s j name :=
  Scene.mem_turn.trans (or_iff_left nofun)

theorem answered_link {path path' new : Path} {reply reply' : Except Files.Fault Unit} {w : Disk} :
    Answered (s.turn i (.link path new) reply w) j path' reply' ↔
      Answered s j path' reply' ∨ (i = j ∧ path = path' ∧ reply = reply') := by
  constructor
  · rintro ⟨new', h⟩
    rcases Scene.mem_turn.1 h with h | h
    · exact .inl ⟨new', h⟩
    · cases h
      exact .inr ⟨rfl, rfl, rfl⟩
  · rintro (⟨new', h⟩ | ⟨rfl, rfl, rfl⟩)
    · exact ⟨new', Scene.mem_turn.2 (.inl h)⟩
    · exact ⟨new, Scene.mem_turn.2 (.inr rfl)⟩

/-- Nothing more is published by a link that was refused. -/
theorem published_refused {path new : Path} {fault : Files.Fault} {w : Disk} :
    Published (s.turn i (.link path new) (.error fault) w) j ↔ Published s j := by
  refine exists_congr fun path' => answered_link.trans (or_iff_left ?_)
  rintro ⟨_, _, h⟩
  cases h

theorem published_link {path new : Path} {w : Disk} :
    Published (s.turn i (.link path new) (.ok ()) w) j ↔ Published s j ∨ i = j := by
  constructor
  · rintro ⟨path', h⟩
    exact (answered_link.1 h).imp (fun h => ⟨path', h⟩) And.left
  · rintro (⟨path', h⟩ | rfl)
    · exact ⟨path', answered_link.2 (.inl h)⟩
    · exact ⟨path, answered_link.2 (.inr ⟨rfl, rfl, rfl⟩)⟩

/-! ## What all keep true -/

/-- What is true in every scene. -/
structure Coherent (files : FileStore) (orders : ι → Order) (d₀ : Disk) (s : CommitScene ι) : Prop where
  orderly : files.Orderly s.world
  given : ∀ i name, Named s i name → ∃ k, k < s.world.named ∧ s.world.names k = name
  owner : ∀ i j name, Named s i name → Named s j name → i = j
  /-- A quarantine file holds all the bytes of its commit. -/
  held : ∀ i name node, Named s i name →
    s.world.tree.node? (files.home ++ [quarantineName, name]) = some node →
    node = .file (orders i).spool.content
  single : ∀ i path path' reply reply', Answered s i path reply → Answered s i path' reply' → reply = reply'
  /-- There are the objects of the beginning, and those that were published. -/
  stored : ∀ digest data, IsHex 64 digest →
    (files.objects s.world (slot digest) = some data ↔ Stored files orders d₀ s digest data)
  once : ∀ i j, Published s i → Published s j → (orders i).digest = (orders j).digest → i = j
  new : ∀ i, Published s i → files.objects d₀ (slot (orders i).digest) = none

/-- What the others leave to a commit. -/
structure Spares (files : FileStore) (i : ι) (s s' : CommitScene ι) : Prop where
  keeps : Keeps s.world.tree s'.world.tree
  turns : s.turns ⊆ s'.turns
  own : ∀ t ∈ s'.turns, t.who = i → t ∈ s.turns
  /-- Nobody else writes into its quarantine file. -/
  gone : ∀ name, Named s i name →
    s.world.tree.node? (files.home ++ [quarantineName, name]) = none →
    s'.world.tree.node? (files.home ++ [quarantineName, name]) = none

theorem Coherent.name_isHex (h : Coherent files orders d₀ s) {name : String} (hn : Named s i name) :
    IsHex 32 name := by
  obtain ⟨k, _, rfl⟩ := h.given i name hn
  exact h.orderly.names k

/-- Where something stands in the place of an object, there is one. -/
theorem Coherent.present (h : Coherent files orders d₀ s) {digest : String} {node : Node Bytes}
    (hdigest : IsHex 64 digest) (hn : s.world.tree.node? (files.home ++ slot digest) = some node) :
    ∃ data, Stored files orders d₀ s digest data := by
  obtain ⟨data, rfl⟩ := h.orderly.slots digest node hdigest hn
  exact ⟨data, (h.stored digest data hdigest).1 ((objects_iff hdigest _).2 hn)⟩

section Quietly

variable {written : String → Node Bytes → Prop} {tree : Files.Tree Bytes}

theorem Coherent.altered (h : Coherent files orders d₀ s) (hquiet : Quiet s s')
    (hworld : s'.world = { s.world with tree }) (ha : files.Alters written s.world.tree tree)
    (hwritten : ∀ name node, written name node →
      ∃ i, Named s i name ∧ node = .file (orders i).spool.content) :
    Coherent files orders d₀ s' := by
  have hobjects : ∀ digest data, IsHex 64 digest →
      (files.objects s'.world (slot digest) = some data ↔
        files.objects s.world (slot digest) = some data) := by
    intro digest data hdigest
    rw [objects_iff hdigest, objects_iff hdigest, hworld, ha.slots digest hdigest]
  constructor
  case orderly =>
    rw [hworld]
    refine ⟨fun digest node hdigest hn => ?_, h.orderly.names, h.orderly.sound⟩
    rw [ha.slots digest hdigest] at hn
    exact h.orderly.slots digest node hdigest hn
  case given =>
    rw [hworld]
    exact fun i name hn => h.given i name (hquiet.named.1 hn)
  case owner => exact fun i j name hi hj => h.owner i j name (hquiet.named.1 hi) (hquiet.named.1 hj)
  case held =>
    rw [hworld]
    intro i name node hi hn
    rcases ha.quarantine name node hn with hold | hnew
    · exact h.held i name node (hquiet.named.1 hi) hold
    · obtain ⟨j, hj, hnode⟩ := hwritten name node hnew
      rw [hnode, h.owner i j name (hquiet.named.1 hi) hj]
  case single =>
    exact fun i path path' reply reply' hl hl' =>
      h.single i path path' reply reply' (hquiet.answered.1 hl) (hquiet.answered.1 hl')
  case stored =>
    exact fun digest data hdigest =>
      (hobjects digest data hdigest).trans ((h.stored digest data hdigest).trans hquiet.stored.symm)
  case once => exact fun i j hi hj => h.once i j (hquiet.published.1 hi) (hquiet.published.1 hj)
  case new => exact fun i hi => h.new i (hquiet.published.1 hi)

theorem Spares.altered (hquiet : Quiet s s') (hown : ∀ t ∈ s'.turns, t.who = j → t ∈ s.turns)
    (hworld : s'.world = { s.world with tree }) (ha : files.Alters written s.world.tree tree)
    (hwritten : ∀ name node, written name node → ¬ Named s j name) : Spares files j s s' := by
  rw [show tree = s'.world.tree by rw [hworld]] at ha
  refine ⟨ha.keeps, hquiet.turns, hown, fun name hj hnone => ?_⟩
  cases hn : s'.world.tree.node? (files.home ++ [quarantineName, name]) with
  | none => rfl
  | some node =>
    rcases ha.quarantine name node hn with hold | hnew
    · rw [hnone] at hold
      cases hold
    · exact absurd hj (hwritten name node hnew)

/-- The turns of others are none of one's own. -/
theorem own_turn {q : DiskRequest} {reply : q.Reply} {w : Disk} (hj : j ≠ i) :
    ∀ t ∈ (s.turn i q reply w).turns, t.who = j → t ∈ s.turns := by
  intro t ht hwho
  rcases Scene.mem_turn.1 ht with ht | rfl
  · exact ht
  · exact absurd hwho.symm hj

/-- A turn that gives no name and makes no link. -/
theorem Coherent.turn (h : Coherent files orders d₀ s) {q : DiskRequest} (hq : isQuiet q = true)
    (reply : q.Reply) (ha : files.Alters written s.world.tree tree)
    (hwritten : ∀ name node, written name node →
      Named s i name ∧ node = .file (orders i).spool.content) :
    Coherent files orders d₀ (s.turn i q reply { s.world with tree }) ∧
      ∀ j, j ≠ i → Spares files j s (s.turn i q reply { s.world with tree }) := by
  have hquiet := Quiet.turn hq s i reply { s.world with tree }
  refine ⟨h.altered hquiet rfl ha fun name node hw => ⟨i, hwritten name node hw⟩, fun j hj => ?_⟩
  refine Spares.altered hquiet (own_turn hj) rfl ha fun name node hw hnamed => ?_
  exact hj (h.owner j i name hnamed (hwritten name node hw).1)

end Quietly

/-- A fresh name. -/
theorem Coherent.fresh (h : Coherent files orders d₀ s) (hfresh : files.Fresh s.world) :
    let s' := s.turn i .freshName (s.world.names s.world.named) { s.world with named := s.world.named + 1 }
    Coherent files orders d₀ s' ∧ ∀ j, j ≠ i → Spares files j s s' := by
  intro s'
  have hgiven : ∀ j, ¬ Named s j (s.world.names s.world.named) := by
    intro j hj
    obtain ⟨k, hk, hname⟩ := h.given j _ hj
    exact hfresh.given k hk hname
  have hpublished : ∀ j, Published s' j ↔ Published s j := fun j => exists_congr fun _ => answered_fresh
  refine ⟨?_, fun j hj => ⟨fun _ => id, fun t ht => Scene.mem_turn.2 (.inl ht), own_turn hj,
    fun _ _ => id⟩⟩
  constructor
  case orderly => exact ⟨h.orderly.slots, h.orderly.names, h.orderly.sound⟩
  case given =>
    intro j name hj
    rcases named_fresh.1 hj with hj | ⟨_, rfl⟩
    · obtain ⟨k, hk, hname⟩ := h.given j name hj
      exact ⟨k, Nat.lt_succ_of_lt hk, hname⟩
    · exact ⟨s.world.named, Nat.lt_succ_self _, rfl⟩
  case owner =>
    intro j k name hj hk
    rcases named_fresh.1 hj with hj | ⟨rfl, rfl⟩
    · rcases named_fresh.1 hk with hk | ⟨rfl, rfl⟩
      · exact h.owner j k name hj hk
      · exact absurd hj (hgiven j)
    · rcases named_fresh.1 hk with hk | ⟨rfl, _⟩
      · exact absurd hk (hgiven k)
      · rfl
  case held =>
    intro j name node hj hn
    rcases named_fresh.1 hj with hj | ⟨_, rfl⟩
    · exact h.held j name node hj hn
    · cases hn.symm.trans hfresh.free
  case single =>
    exact fun j path path' reply reply' hl hl' =>
      h.single j path path' reply reply' (answered_fresh.1 hl) (answered_fresh.1 hl')
  case stored =>
    exact fun digest data hdigest => (h.stored digest data hdigest).trans
      (or_congr_right (exists_congr fun j => and_congr_left' (hpublished j).symm))
  case once => exact fun j k hj hk => h.once j k ((hpublished j).1 hj) ((hpublished k).1 hk)
  case new => exact fun j hj => h.new j ((hpublished j).1 hj)

section Link

variable (new : Path)

/-- No commit links twice. -/
theorem Coherent.single_link (h : Coherent files orders d₀ s) (hunlinked : Unlinked s i) {path : Path}
    {reply : Except Files.Fault Unit} {w : Disk} :
    let s' := s.turn i (.link path new) reply w
    ∀ j path path' reply reply', Answered s' j path reply → Answered s' j path' reply' → reply = reply' := by
  intro s' j path path' reply reply' hl hl'
  rcases answered_link.1 hl with hl | ⟨rfl, _, rfl⟩
  · rcases answered_link.1 hl' with hl' | ⟨rfl, _, _⟩
    · exact h.single j path path' reply reply' hl hl'
    · exact absurd hl (hunlinked path reply)
  · rcases answered_link.1 hl' with hl' | ⟨_, _, rfl⟩
    · exact absurd hl' (hunlinked path' reply')
    · rfl

/-- A link that was refused. -/
theorem Coherent.refused (h : Coherent files orders d₀ s) (hunlinked : Unlinked s i) (path : Path)
    (fault : Files.Fault) :
    let s' := s.turn i (.link path new) (.error fault) s.world
    Coherent files orders d₀ s' ∧ ∀ j, j ≠ i → Spares files j s s' := by
  intro s'
  refine ⟨?_, fun j hj => ⟨fun _ => id, fun t ht => Scene.mem_turn.2 (.inl ht), own_turn hj,
    fun _ _ => id⟩⟩
  exact {
    orderly := h.orderly
    given := fun j name' hj => h.given j name' (named_link.1 hj)
    owner := fun j k name' hj hk => h.owner j k name' (named_link.1 hj) (named_link.1 hk)
    held := fun j name' node hj => h.held j name' node (named_link.1 hj)
    single := h.single_link new hunlinked
    stored := fun digest data hdigest => (h.stored digest data hdigest).trans
      (or_congr_right (exists_congr fun j => and_congr_left' published_refused.symm))
    once := fun j k hj hk => h.once j k (published_refused.1 hj) (published_refused.1 hk)
    new := fun j hj => h.new j (published_refused.1 hj) }

/-- A link that was made, where there was no object before. -/
theorem Coherent.made (h : Coherent files orders d₀ s) (hunlinked : Unlinked s i) (path : Path)
    (hfree : s.world.tree.node? (files.home ++ slot (orders i).digest) = none) :
    let s' := s.turn i (.link path new) (.ok ())
      { s.world with
        tree := s.world.tree.set (files.home ++ slot (orders i).digest) (.file (orders i).spool.content) }
    Coherent files orders d₀ s' ∧ ∀ j, j ≠ i → Spares files j s s' := by
  intro s'
  have hobjects : files.objects s'.world = Function.update (files.objects s.world)
      (slot (orders i).digest) (some (orders i).spool.content) := objectsIn_set (orders i).hex _ _
  have hquarantine : ∀ name, s'.world.tree.node? (files.home ++ [quarantineName, name]) =
      s.world.tree.node? (files.home ++ [quarantineName, name]) := fun name =>
    Files.Tree.node?_set_other (slot_ne_quarantine files name (orders i).hex).symm _
  -- Before this link there was no object of its digest, nor had one been published.
  have hnone : ∀ data, ¬ Stored files orders d₀ s (orders i).digest data := by
    intro data hstored
    rw [← h.stored _ _ (orders i).hex, objects_iff (orders i).hex, hfree] at hstored
    cases hstored
  have hfirst : ∀ j, Published s j → (orders j).digest ≠ (orders i).digest := fun j hj he =>
    hnone _ (.inr ⟨j, hj, he, rfl⟩)
  refine ⟨?_, fun j hj => ⟨?_, fun t ht => Scene.mem_turn.2 (.inl ht), own_turn hj,
    fun name _ hgone => (hquarantine name).trans hgone⟩⟩
  rotate_left
  · exact Files.Tree.keeps_set (by rw [hfree]; nofun)
  constructor
  case orderly => exact h.orderly.publish _ _
  case given => exact fun j name hj => h.given j name (named_link.1 hj)
  case owner => exact fun j k name hj hk => h.owner j k name (named_link.1 hj) (named_link.1 hk)
  case held =>
    exact fun j name node hj hnode => h.held j name node (named_link.1 hj) (hquarantine name ▸ hnode)
  case single => exact h.single_link new hunlinked
  case stored =>
    intro digest data hdigest
    have hstored : Stored files orders d₀ s' digest data ↔ Stored files orders d₀ s digest data ∨
        ((orders i).digest = digest ∧ (orders i).spool.content = data) := by
      simp only [Stored, s', published_link, or_and_right, exists_or, exists_eq_left', or_assoc]
    rw [hstored, hobjects]
    by_cases hd : digest = (orders i).digest
    · subst hd
      rw [Function.update_self, Option.some.injEq]
      exact ⟨fun he => .inr ⟨rfl, he⟩, fun ho => (ho.resolve_left (hnone data)).2⟩
    · rw [Function.update_of_ne fun he => hd (slot_injective he), h.stored digest data hdigest]
      exact (or_iff_left fun he => hd he.1.symm).symm
  case once =>
    intro j k hj hk he
    rcases published_link.1 hj with hj | rfl
    · rcases published_link.1 hk with hk | rfl
      · exact h.once j k hj hk he
      · exact absurd he (hfirst j hj)
    · rcases published_link.1 hk with hk | rfl
      · exact absurd he.symm (hfirst k hk)
      · rfl
  case new =>
    intro j hj
    rcases published_link.1 hj with hj | rfl
    · exact h.new j hj
    · cases hd : files.objects d₀ (slot (orders i).digest) with
      | none => rfl
      | some data => exact absurd (.inl hd) (hnone data)

end Link

end FileStore

end UploadDepot.Store

/-
Rival commits to a store of files.

Any number of commits ask one disk in turns, in any order, and files are
swept out of the quarantine at any moment. Each commit is walked through
alone, question by question, with what the others spare it (`commit_sustains`);
among them all, every object is created once (`commits_create_once`).
-/
import UploadDepot.Proofs.Store.FileScenes

namespace UploadDepot.Store

open Files (Path Node)
open Files.Tree (leadsTo Keeps)

namespace FileStore

variable {ι : Type} {files : FileStore} {orders : ι → Order} {d₀ : Disk} {s s' : CommitScene ι}
  {i j : ι} {name : String}

/-- What a commit asks: it writes only where there is nothing, and it makes one link, of the file that has
the name given to it. -/
def Asks (files : FileStore) (i : ι) : DiskRequest → CommitScene ι → Prop
  | .write path _, s => s.world.tree.node? (leadsTo [] path.parts) = none
  | .link path _, s => (∃ name, Named s i name ∧ path = files.quarantined name) ∧ Unlinked s i
  | _, _ => True

/-- How rival commits get along. -/
def rivals (files : FileStore) (orders : ι → Order) (d₀ : Disk) :
    Accord ι DiskRequest DiskRequest.Reply Disk where
  world := SharedDisk files
  outside := files.Sweeps
  Sound := Coherent files orders d₀
  Asks := Asks files
  Spares := Spares files
  refl := fun _ _ => ⟨fun _ => id, fun _ => id, fun _ ht _ => ht, fun _ _ => id⟩
  trans := fun h h' =>
    ⟨h.keeps.trans h'.keeps, fun _ ht => h'.turns (h.turns ht),
      fun t ht hwho => h.own t (h'.own t ht hwho) hwho,
      fun name hn hgone => h'.gone name (h.turns hn) (h.gone name hn hgone)⟩
  leaves := by
    rintro s _ h ⟨name, hname, rfl⟩
    obtain ⟨tree, hworld, ha⟩ := remove_alters (fun _ _ => False) hname s.world
    rw [quarantined_eq hname, hworld]
    exact ⟨h.altered (Quiet.put s _) rfl ha nofun,
      fun _ => Spares.altered (Quiet.put s _) (fun _ ht _ => ht) rfl ha nofun⟩

/-! ## A commit among its rivals -/

/-- The quarantine file of a commit has been written. -/
structure Written (files : FileStore) (s : CommitScene ι) (i : ι) (name : String) : Prop where
  named : Named s i name
  placed : s.world.tree.resolve (files.quarantined name).parts =
    .ok (files.home ++ [quarantineName, name])

/-- What is known of a commit, or of a part of it, that has come to its end. `fails` says which failures
a link that was refused may lead to. -/
structure Ended (files : FileStore) (orders : ι → Order) (d₀ : Disk) {ε : Type} (fails : ε → Prop) (i : ι)
    (value : Except ε Bool) (s : CommitScene ι) : Prop where
  created : value = .ok true ↔ Published s i
  present : value = .ok false → ∃ data, Stored files orders d₀ s (orders i).digest data
  refused : ∀ path fault, Answered s i path (.error fault) → fault.isAlreadyThere = false →
    ∃ e, value = .error e ∧ fails e

/-- What one's own turns tell stays as it is. -/
theorem Spares.answered (h : Spares files i s s') {path : Path} {reply : Except Files.Fault Unit} :
    Answered s' i path reply ↔ Answered s i path reply :=
  ⟨fun ⟨new, ht⟩ => ⟨new, h.own _ ht rfl⟩, fun ⟨new, ht⟩ => ⟨new, h.turns ht⟩⟩

theorem Written.later (h : Written files s i name) (hs : Spares files i s s') :
    Written files s' i name :=
  ⟨hs.turns h.named, hs.keeps.resolve h.placed⟩

theorem Stored.later {digest : String} {data : Bytes} (h : Stored files orders d₀ s digest data)
    (hturns : s.turns ⊆ s'.turns) : Stored files orders d₀ s' digest data :=
  h.imp_right fun ⟨j, ⟨path, new, ht⟩, hd⟩ => ⟨j, ⟨path, new, hturns ht⟩, hd⟩

section Ended

variable {ε : Type} {fails : ε → Prop} {value : Except ε Bool}

theorem Ended.later (h : Ended files orders d₀ fails i value s) (hturns : s.turns ⊆ s'.turns)
    (hanswered : ∀ path reply, Answered s' i path reply ↔ Answered s i path reply) :
    Ended files orders d₀ fails i value s' := by
  refine ⟨h.created.trans (exists_congr fun path => (hanswered path _).symm), fun hv => ?_,
    fun path fault ha => h.refused path fault ((hanswered path _).1 ha)⟩
  obtain ⟨data, hstored⟩ := h.present hv
  exact ⟨data, hstored.later hturns⟩

/-- A commit that came to no link. -/
theorem Unlinked.ended (h : Unlinked s i) (hvalue : value ≠ .ok true)
    (hpresent : value = .ok false → ∃ data, Stored files orders d₀ s (orders i).digest data) :
    Ended files orders d₀ fails i value s :=
  ⟨⟨fun hv => absurd hv hvalue, fun ⟨path, ha⟩ => absurd ha (h path _)⟩, hpresent,
    fun path _ ha => absurd ha (h path _)⟩

theorem Unlinked.failed (h : Unlinked s i) (fault : ε) :
    Ended files orders d₀ fails i (.error fault) s := h.ended nofun nofun

variable {ε' : Type} {fails' : ε' → Prop}

theorem Ended.error {e : ε} {e' : ε'} (h : Ended files orders d₀ fails i (.error e) s)
    (hfails : fails e → fails' e') : Ended files orders d₀ fails' i (.error e') s := by
  refine ⟨⟨nofun, fun hp => (nomatch h.created.2 hp)⟩, nofun, fun path fault ha hfault => ?_⟩
  obtain ⟨_, he, hf⟩ := h.refused path fault ha hfault
  cases he
  exact ⟨e', rfl, hfails hf⟩

theorem Ended.ok {created : Bool} (h : Ended files orders d₀ fails i (.ok created) s) :
    Ended files orders d₀ fails' i (.ok created) s := by
  refine ⟨?_, fun hv => h.present ?_, fun path fault ha hfault => ?_⟩
  · rw [← h.created, Except.ok.injEq, Except.ok.injEq]
  · cases hv
    rfl
  · obtain ⟨_, he, _⟩ := h.refused path fault ha hfault
    cases he

end Ended

/-- A question after which no more is known of names and links. -/
theorem quiet_sustains {q : DiskRequest} (hq : isQuiet q = true)
    {post : q.Reply → CommitScene ι → Prop}
    (h : ∀ s', Coherent files orders d₀ s' → Spares files i s s' → Asks files i q s' ∧
      ∃ tree written, (Disk.answer q s'.world).2 = { s'.world with tree } ∧
        files.Alters written s'.world.tree tree ∧
        (∀ name node, written name node → Named s' i name ∧ node = .file (orders i).spool.content) ∧
        post (Disk.answer q s'.world).1
          (s'.turn i q (Disk.answer q s'.world).1 { s'.world with tree })) :
    (Dialogue.ask q .done : DiskTalk q.Reply).Sustains (rivals files orders d₀) i post s := by
  intro s' hs' hspares
  obtain ⟨hasks, tree, written, hworld, ha, hwritten, hpost⟩ := h s' hs' hspares
  refine ⟨hasks, fun reply w hw => ?_⟩
  cases hw with
  | answers =>
    rw [hworld]
    obtain ⟨hsound, hothers⟩ := Coherent.turn hs' hq (Disk.answer q s'.world).1 ha hwritten
    exact ⟨hsound, hothers, hpost⟩

theorem Unlinked.quiet (h : Unlinked s i) (hs : Spares files i s s') {q : DiskRequest}
    (hq : isQuiet q = true) (reply : q.Reply) (w : Disk) : Unlinked (s'.turn i q reply w) i :=
  fun path _ ha => h path _ (hs.answered.1 ((Quiet.turn hq s' i reply w).answered.1 ha))

theorem holds_sustains (h : Unlinked s i) :
    (DiskTalk.holds (files.pathOf (orders i).digest)).Sustains (rivals files orders d₀) i
      (fun reply s => Unlinked s i ∧
        (reply = .ok true → ∃ data, Stored files orders d₀ s (orders i).digest data)) s := by
  refine quiet_sustains rfl fun s' hs' hspares => ?_
  refine ⟨trivial, s'.world.tree, fun _ _ => False, look_snd _ _ _, Alters.refl _, nofun,
    h.quiet hspares rfl _ _, fun hreply => ?_⟩
  rw [Disk.answer] at hreply
  unfold Disk.look at hreply
  split at hreply
  · cases hreply
  split at hreply
  · rename_i hholds
    cases hreply
    obtain ⟨place, node, hr, hn⟩ := Files.Tree.holds_true hholds
    rw [Files.Tree.resolve_leadsTo hr, leadsTo_pathOf (orders i).hex] at hn
    obtain ⟨data, hstored⟩ := hs'.present (orders i).hex hn
    exact ⟨data, hstored.later (Quiet.turn rfl s' i _ _).turns⟩
  · cases hreply

theorem makeDirectories_sustains (hs : files.Straight) (hname : Files.Plain name) (h : Unlinked s i) :
    (DiskTalk.makeDirectories { files.root with parts := files.root.parts ++ [name] }).Sustains
      (rivals files orders d₀) i
      (fun reply s => Unlinked s i ∧ (reply = .ok () → files.root.hasNul = false)) s := by
  refine quiet_sustains rfl fun s' hs' hspares => ?_
  obtain ⟨tree, hworld, ha⟩ := makeDirectories_alters (fun _ _ => False) hs hname s'.world
  exact ⟨trivial, tree, fun _ _ => False, hworld, ha, nofun, h.quiet hspares rfl _ _,
    makeDirectories_noNul hname⟩

theorem freshName_sustains (h : Unlinked s i) :
    DiskTalk.freshName.Sustains (rivals files orders d₀) i
      (fun name s => Unlinked s i ∧ IsHex 32 name ∧ Named s i name ∧
        s.world.tree.node? (files.home ++ [quarantineName, name]) = none) s := by
  refine fun s' hs' hspares => ⟨trivial, fun reply w hw => ?_⟩
  cases hw with
  | answers _ _ hfresh =>
    obtain ⟨hsound, hothers⟩ := Coherent.fresh (i := i) hs' (hfresh rfl)
    refine ⟨hsound, hothers, fun path reply ha => ?_, hs'.orderly.names _,
      named_fresh.2 (.inr ⟨rfl, rfl⟩), (hfresh rfl).free⟩
    exact h path reply (hspares.answered.1 (answered_fresh.1 ha))

theorem write_sustains {content : Bytes} (hname : Files.Plain name)
    (hcontent : content = (orders i).spool.content) (h : Unlinked s i) (hn : Named s i name)
    (hfree : s.world.tree.node? (files.home ++ [quarantineName, name]) = none) :
    (DiskTalk.write (files.quarantined name) content).Sustains (rivals files orders d₀) i
      (fun reply s => Unlinked s i ∧ (reply = .ok () → Written files s i name)) s := by
  refine quiet_sustains rfl fun s' hs' hspares => ?_
  obtain ⟨tree, hworld, ha, hplaced⟩ := write_alters hname content hs'.orderly.sound
  refine ⟨?_, tree, _, hworld, ha, ?_, h.quiet hspares rfl _ _, fun hok =>
    ⟨(Quiet.turn rfl s' i _ _).turns (hspares.turns hn), hplaced hok⟩⟩
  · rw [Asks, leadsTo_quarantined hname]
    exact hspares.gone name hn hfree
  · rintro _ _ ⟨rfl, rfl⟩
    exact ⟨hspares.turns hn, by rw [hcontent]⟩

/-- After a link that was refused. -/
theorem Coherent.refused_ended (h : Coherent files orders d₀ s) (hunlinked : Unlinked s i)
    {path new : Path} {refusal : Files.Refusal} {paths : List Path}
    (hthere : refusal = .alreadyThere →
      ∃ node, s.world.tree.node? (files.home ++ slot (orders i).digest) = some node) :
    Ended files orders d₀ (fun fault => fault.isSystem = true) i
      (linkOutcome (.error (.refused refusal paths)))
      (s.turn i (.link path new) (.error (.refused refusal paths)) s.world) := by
  have hnot : ¬ Published (s.turn i (.link path new) (.error (.refused refusal paths)) s.world) i :=
    fun hp => (published_refused.1 hp).elim fun path' ha => hunlinked path' _ ha
  rw [linkOutcome]
  split
  · rename_i halready
    refine ⟨⟨fun hvalue => ?_, fun hp => absurd hp hnot⟩, fun _ => ?_, fun path' fault ha hfault => ?_⟩
    · cases hvalue
    · obtain ⟨node, hn⟩ := hthere (of_decide_eq_true halready)
      obtain ⟨data, hstored⟩ := h.present (orders i).hex hn
      exact ⟨data, hstored.later fun t ht => Scene.mem_turn.2 (.inl ht)⟩
    · rcases answered_link.1 ha with ha | ⟨_, _, he⟩
      · exact absurd ha (hunlinked path' _)
      · cases he
        rw [halready] at hfault
        cases hfault
  · refine ⟨⟨fun hvalue => ?_, fun hp => absurd hp hnot⟩, fun hvalue => ?_, fun _ _ _ _ => ⟨_, rfl, rfl⟩⟩
    · cases hvalue
    · cases hvalue

/-- After a link that was made. -/
theorem Unlinked.made_ended (h : Unlinked s i) {path new : Path} {w : Disk} :
    Ended files orders d₀ (fun fault => fault.isSystem = true) i (linkOutcome (.ok ()))
      (s.turn i (.link path new) (.ok ()) w) := by
  refine ⟨⟨fun _ => published_link.2 (.inr rfl), fun _ => rfl⟩, nofun, fun path' fault ha _ => ?_⟩
  rcases answered_link.1 ha with ha | ⟨_, _, he⟩
  · exact absurd ha (h path' _)
  · cases he

/-- The link. It publishes the object, or there is one, or it is refused. -/
theorem link_sustains (hname : Files.Plain name) (hnul : files.root.hasNul = false)
    (h : Unlinked s i) (hw : Written files s i name) :
    (DiskTalk.link (files.quarantined name) (files.pathOf (orders i).digest)).Sustains
      (rivals files orders d₀) i
      (fun reply s => Ended files orders d₀ (fun fault => fault.isSystem = true) i (linkOutcome reply) s ∧
        Written files s i name) s := by
  intro s' hs' hspares
  have hunlinked : Unlinked s' i := fun path _ ha => h path _ (hspares.answered.1 ha)
  have hwritten := hw.later hspares
  refine ⟨⟨⟨name, hwritten.named, rfl⟩, hunlinked⟩, fun reply w hanswer => ?_⟩
  cases hanswer with
  | answers =>
    rcases link_cases hname (orders i).hex hnul hs'.orderly.sound.2 with
      ⟨refusal, paths, hrefused, hthere⟩ | ⟨content, hmade, hcontent, hfree⟩
    · rw [hrefused]
      obtain ⟨hsound, hothers⟩ := Coherent.refused (files.pathOf (orders i).digest) hs' hunlinked
        (files.quarantined name) (.refused refusal paths)
      exact ⟨hsound, hothers, Coherent.refused_ended hs' hunlinked hthere,
        named_link.2 hwritten.named, hwritten.placed⟩
    · obtain rfl : content = (orders i).spool.content :=
        Node.file.inj (hs'.held i name _ hwritten.named hcontent)
      rw [hmade]
      obtain ⟨hsound, hothers⟩ := Coherent.made (files.pathOf (orders i).digest) hs' hunlinked
        (files.quarantined name) hfree
      have hkeeps : Keeps s'.world.tree (s'.world.tree.set (files.home ++ slot (orders i).digest)
          (.file (orders i).spool.content)) := Files.Tree.keeps_set (by rw [hfree]; nofun)
      exact ⟨hsound, hothers, hunlinked.made_ended, named_link.2 hwritten.named,
        hkeeps.resolve hwritten.placed⟩

theorem linkThrough_sustains (hname : Files.Plain name) (hnul : files.root.hasNul = false)
    (h : Unlinked s i) (hn : Named s i name)
    (hfree : s.world.tree.node? (files.home ++ [quarantineName, name]) = none) :
    (linkThrough (files.quarantined name) (files.pathOf (orders i).digest) (orders i).spool).Sustains
      (rivals files orders d₀) i
      (fun outcome s => Ended files orders d₀ (fun fault => fault.isSystem = true) i outcome s ∧
        (Unlinked s i ∨ Written files s i name)) s := by
  refine Dialogue.Sustains.bind ((write_sustains hname rfl h hn hfree).imp ?_)
  rintro (fault | _) s ⟨hunlinked, hwritten⟩
  · exact ⟨hunlinked.failed fault, .inl hunlinked⟩
  · refine Dialogue.Sustains.bind ((link_sustains hname hnul hunlinked (hwritten rfl)).imp ?_)
    rintro (fault | _) s ⟨hended, hwritten⟩
    · exact ⟨hended, .inr hwritten⟩
    · exact ⟨hended, .inr hwritten⟩

/-- A quarantine file that was written is removed, or was swept away; so the outcome stays. -/
theorem remove_sustains {outcome : Except Files.Fault Bool} (hname : Files.Plain name)
    (hnul : files.root.hasNul = false)
    (h : Ended files orders d₀ (fun fault => fault.isSystem = true) i outcome s)
    (hw : Unlinked s i ∨ Written files s i name) :
    (DiskTalk.remove (files.quarantined name)).Sustains (rivals files orders d₀) i
      (fun reply s => Ended files orders d₀ (fun fault => fault.isSystem = true) i
        (removeOutcome outcome reply) s) s := by
  refine quiet_sustains rfl fun s' hs' hspares => ?_
  obtain ⟨tree, hworld, ha⟩ := remove_alters (fun _ _ => False) hname s'.world
  refine ⟨trivial, tree, _, hworld, ha, nofun, ?_⟩
  have hended : ∀ reply, Ended files orders d₀ (fun fault => fault.isSystem = true) i outcome
      (s'.turn i (.remove (files.quarantined name)) reply { s'.world with tree }) := fun reply => by
    have hquiet := Quiet.turn (q := .remove (files.quarantined name)) rfl s' i reply { s'.world with tree }
    exact h.later (fun t ht => hquiet.turns (hspares.turns ht)) fun path reply =>
      hquiet.answered.trans hspares.answered
  rcases hw with hunlinked | hwritten
  · generalize (Disk.answer (.remove (files.quarantined name)) s'.world).1 = reply
    match reply with
    | .ok () => exact hended _
    | .error fault =>
      rw [removeOutcome]
      split
      · exact hended _
      · exact (hunlinked.quiet hspares rfl _ _).failed fault
  · have hwritten := hwritten.later hspares
    rcases remove_reply hname hnul hwritten.placed
      fun node hn => ⟨_, hs'.held i name node hwritten.named hn⟩ with hok | hgone
    · rw [hok]
      exact hended _
    · rw [hgone]
      exact hended _

theorem publish_sustains (hs : files.Straight) (h : Unlinked s i) :
    (files.publish (files.pathOf (orders i).digest) (orders i).spool).Sustains (rivals files orders d₀) i
      (fun value s => Ended files orders d₀ (fun fault => fault.isSystem = true) i value s) s := by
  have hshard := isHex_shard (orders i).hex
  rw [publish, pathOf_parent (orders i).hex, quarantine_eq]
  refine Dialogue.Sustains.bind ((makeDirectories_sustains hs (hshard.plain (by decide)) h).imp ?_)
  rintro (fault | _) s ⟨hunlinked, _⟩
  · exact hunlinked.failed fault
  refine Dialogue.Sustains.bind ((makeDirectories_sustains hs plain_quarantine hunlinked).imp ?_)
  rintro (fault | _) s ⟨hunlinked, hnul⟩
  · exact hunlinked.failed fault
  refine Dialogue.Sustains.bind ((freshName_sustains hunlinked).imp ?_)
  rintro name s ⟨hunlinked, hhex, hnamed, hfree⟩
  have hname := hhex.plain (by decide)
  dsimp only
  rw [← quarantine_eq, quarantined_eq hname]
  refine Dialogue.Sustains.bind ((linkThrough_sustains hname (hnul rfl) hunlinked hnamed hfree).imp ?_)
  rintro outcome s ⟨hended, hstate⟩
  refine Dialogue.Sustains.bind ((remove_sustains hname (hnul rfl) hended hstate).imp ?_)
  rintro (fault | _) s hended
  · exact hended
  · exact hended

/-- **A commit**, whatever its rivals do in between. -/
theorem commit_sustains (hs : files.Straight) (h : Unlinked s i) :
    ((orders i).commit files).Sustains (rivals files orders d₀) i
      (fun committed s => Ended files orders d₀ (fun fault => ∃ f, fault = .storage f) i committed.value s)
      s := by
  refine Dialogue.Sustains.bind ((holds_sustains h).imp ?_)
  rintro (fault | there) s ⟨hunlinked, hthere⟩
  · exact hunlinked.failed _
  cases there with
  | true => exact hunlinked.ended nofun fun _ => hthere rfl
  | false =>
    refine Dialogue.Sustains.bind ((publish_sustains hs hunlinked).imp ?_)
    rintro (fault | created) s hended
    · show Dialogue.Sustains _ _ _ (if fault.isSystem then _ else _) _
      split
      · exact hended.error fun _ => ⟨_, rfl⟩
      · rename_i hsystem
        exact hended.error fun h => absurd h hsystem
    · exact hended.ok

/-! ## All commits -/

/-- The rounds of commits. -/
abbrev CommitRound (ι : Type) :=
  Round ι DiskRequest DiskRequest.Reply (Log.Logged (Except Fault Bool)) Disk

section All

variable {r r' : CommitRound ι} {path new : Path}
  {next : Except Files.Fault Unit → DiskTalk (Log.Logged (Except Fault Bool))}

/-- All is coherent, and every commit comes to its end as it should. -/
abbrev Sustained (files : FileStore) (orders : ι → Order) (d₀ : Disk) (r : CommitRound ι) : Prop :=
  (rivals files orders d₀).Holds
    (fun i committed => Ended files orders d₀ (fun fault => ∃ f, fault = .storage f) i committed.value) r

theorem Sustained.ended (h : Sustained files orders d₀ r) {c : Log.Logged (Except Fault Bool)}
    (hdone : r.talks i = .done c) :
    Ended files orders d₀ (fun fault => ∃ f, fault = .storage f) i c.value r.scene := by
  have hended := h.sustains i
  rwa [hdone] at hended

theorem Sustained.start (hs : files.Straight) (hd : files.Orderly d₀) :
    Sustained files orders d₀ (Round.start (fun i => (orders i).commit files) d₀) := by
  have hunlinked : ∀ i, Unlinked (Round.start (fun i => (orders i).commit files) d₀).scene i := by
    rintro i path reply ⟨new, ht⟩
    cases ht
  have hunnamed : ∀ i name, ¬ Named (Round.start (fun i => (orders i).commit files) d₀).scene i name :=
    fun i name => nofun
  have hunpublished : ∀ i, ¬ Published (Round.start (fun i => (orders i).commit files) d₀).scene i :=
    fun i ⟨path, ha⟩ => hunlinked i path _ ha
  refine ⟨?_, fun i => commit_sustains hs (hunlinked i)⟩
  exact {
    orderly := hd
    given := fun i name hn => absurd hn (hunnamed i name)
    owner := fun i _ name hn _ => absurd hn (hunnamed i name)
    held := fun i name _ hn _ => absurd hn (hunnamed i name)
    single := fun i path _ _ _ ha _ => absurd ha (hunlinked i path _)
    stored := fun _ _ _ => (or_iff_left fun ⟨i, hp, _⟩ => hunpublished i hp).symm
    once := fun i _ hp _ => absurd hp (hunpublished i)
    new := fun i hp => absurd hp (hunpublished i) }

variable [DecidableEq ι]

theorem Sustained.reaches (h : Sustained files orders d₀ r)
    (hreach : Round.Reaches (SharedDisk files) files.Sweeps r r') : Sustained files orders d₀ r' :=
  Accord.Holds.reaches (fun _ _ _ _ _ hspares hended => hended.later hspares.turns
    fun _ _ => hspares.answered) h hreach

/-- The link of a swept file is still to come, or it was refused. -/
theorem Sustained.swept (h : Sustained files orders d₀ r) (htalk : r.talks i = .ask (.link path new) next)
    (hgone : r.scene.world.tree.node? (leadsTo [] path.parts) = none)
    (hreach : Round.Reaches (SharedDisk files) files.Sweeps r r') :
    (r'.talks i = .ask (.link path new) next ∧
      r'.scene.world.tree.node? (leadsTo [] path.parts) = none) ∨
    ∃ fault, Answered r'.scene i path (.error fault) ∧ fault.isAlreadyThere = false := by
  induction hreach with
  | refl => exact .inl ⟨htalk, hgone⟩
  | @tail r'' r' hreach hstep ih =>
    have hs := h.reaches hreach
    rcases ih with ⟨htalk, hgone⟩ | ⟨fault, ⟨new', ha⟩, hfault⟩
    · rcases hs.spares hstep i with ⟨q, next', reply, w, hq, hw, _, hscene⟩ | ⟨hsame, hspares⟩
      · right
        obtain ⟨rfl, hnext⟩ := Dialogue.ask.inj (htalk.symm.trans hq)
        obtain ⟨fault, hanswer, hfault⟩ := link_missing new hs.sound.orderly.sound.2 hgone
        cases hw with
        | answers =>
          rw [hanswer] at hscene
          exact ⟨fault, hscene ▸ answered_link.2 (.inr ⟨rfl, rfl, rfl⟩), hfault⟩
      · left
        obtain ⟨⟨name, hn, rfl⟩, _⟩ := (hs.turn htalk).1
        rw [leadsTo_quarantined ((hs.sound.name_isHex hn).plain (by decide))] at hgone ⊢
        exact ⟨hsame.trans htalk, hspares.gone name hn hgone⟩
    · exact .inr ⟨fault, ⟨new', (Round.Reaches.turns (.single hstep)) ha⟩, hfault⟩

/-- What is true in every round of rival commits. -/
structure CreatedOnce (files : FileStore) (orders : ι → Order) (d₀ : Disk) (r : CommitRound ι) : Prop where
  /-- An object was there in the beginning, or it has all the bytes of a commit of its digest. -/
  complete : ∀ digest data, IsHex 64 digest → files.objects r.scene.world (slot digest) = some data →
    files.objects d₀ (slot digest) = some data ∨
      ∃ i, Published r.scene i ∧ (orders i).digest = digest ∧ (orders i).spool.content = data
  /-- No object is altered or removed, whatever comes. -/
  kept : ∀ r', Round.Reaches (SharedDisk files) files.Sweeps r r' → ∀ digest data, IsHex 64 digest →
    files.objects r.scene.world (slot digest) = some data →
    files.objects r'.scene.world (slot digest) = some data
  /-- Of the commits of one digest one at most publishes, -/
  once : ∀ i j, Published r.scene i → Published r.scene j → (orders i).digest = (orders j).digest → i = j
  /-- and none where there was an object in the beginning; -/
  new : ∀ i, Published r.scene i → files.objects d₀ (slot (orders i).digest) = none
  /-- it is the one whose bytes the object has. -/
  published : ∀ i, Published r.scene i →
    files.objects r.scene.world (slot (orders i).digest) = some (orders i).spool.content
  /-- A commit that has ended says that it has created the object if it has published it, -/
  created : ∀ i c, r.talks i = .done c → (c.value = .ok true ↔ Published r.scene i)
  /-- and says that it has not only where there is one. -/
  present : ∀ i c, r.talks i = .done c → c.value = .ok false →
    ∃ data, files.objects r.scene.world (slot (orders i).digest) = some data
  /-- A commit whose quarantine file is gone before its link publishes nothing, and fails with a failure of
  the storage. -/
  swept : ∀ i path new next, r.talks i = .ask (.link path new) next →
    r.scene.world.tree.node? (leadsTo [] path.parts) = none →
    ∀ r', Round.Reaches (SharedDisk files) files.Sweeps r r' →
      ¬ Published r'.scene i ∧ ∀ c, r'.talks i = .done c → ∃ f, c.value = .error (.storage f)
  /-- A commit writes only where there is nothing, and so never into what has become an object. -/
  free : ∀ i path content next, r.talks i = .ask (.write path content) next →
    r.scene.world.tree.node? (leadsTo [] path.parts) = none
  /-- Every commit ends after seven turns at most. -/
  ends : ∀ i, ∃ left, (r.talks i).Within left ∧ r.scene.taken i + left = 7

theorem Sustained.kept (h : Sustained files orders d₀ r)
    (hreach : Round.Reaches (SharedDisk files) files.Sweeps r r') {digest : String} {data : Bytes}
    (hdigest : IsHex 64 digest) (hdata : files.objects r.scene.world (slot digest) = some data) :
    files.objects r'.scene.world (slot digest) = some data :=
  ((h.reaches hreach).sound.stored digest data hdigest).2
    (((h.sound.stored digest data hdigest).1 hdata).later hreach.turns)

theorem Sustained.swept_fails (h : Sustained files orders d₀ r)
    (htalk : r.talks i = .ask (.link path new) next)
    (hgone : r.scene.world.tree.node? (leadsTo [] path.parts) = none)
    (hreach : Round.Reaches (SharedDisk files) files.Sweeps r r') :
    ¬ Published r'.scene i ∧ ∀ c, r'.talks i = .done c → ∃ f, c.value = .error (.storage f) := by
  have hs := h.reaches hreach
  rcases h.swept htalk hgone hreach with ⟨htalk, hgone⟩ | ⟨fault, ha, hfault⟩
  · refine ⟨fun ⟨path', ha⟩ => (hs.turn htalk).1.2 path' _ ha, fun c hdone => ?_⟩
    cases htalk.symm.trans hdone
  · refine ⟨fun ⟨path', ha'⟩ => ?_, fun c hdone => ?_⟩
    · cases hs.sound.single i path' path _ _ ha' ha
    · obtain ⟨_, he, f, rfl⟩ := (hs.ended hdone).refused path fault ha hfault
      exact ⟨f, he⟩

theorem Sustained.createdOnce (h : Sustained files orders d₀ r)
    (hends : ∀ i, ∃ left, (r.talks i).Within left ∧ r.scene.taken i + left = 7) :
    CreatedOnce files orders d₀ r where
  complete digest data hdigest := (h.sound.stored digest data hdigest).1
  kept _ hreach _ _ hdigest := h.kept hreach hdigest
  once := h.sound.once
  new := h.sound.new
  published i hp := (h.sound.stored _ _ (orders i).hex).2 (.inr ⟨i, hp, rfl, rfl⟩)
  created _ _ hdone := (h.ended hdone).created
  present i _ hdone hvalue := ((h.ended hdone).present hvalue).imp fun data =>
    (h.sound.stored _ data (orders i).hex).2
  swept _ _ _ _ htalk hgone _ hreach := h.swept_fails htalk hgone hreach
  free _ _ _ _ htalk := (h.turn htalk).1
  ends := hends

end All

theorem linkThrough_within (quarantined final : Path) (spool : Spool) :
    (linkThrough quarantined final spool).Within 2 := by
  refine Dialogue.Within.bind (n := 1) (m := 1) (fun _ => trivial) ?_
  rintro (fault | _)
  · trivial
  refine Dialogue.Within.bind (n := 1) (m := 0) (fun _ => trivial) ?_
  rintro (fault | _)
  · trivial
  · trivial

theorem publish_within (files : FileStore) (final : Path) (spool : Spool) :
    (files.publish final spool).Within 6 := by
  refine Dialogue.Within.bind (n := 1) (m := 5) (fun _ => trivial) ?_
  rintro (fault | _)
  · trivial
  refine Dialogue.Within.bind (n := 1) (m := 4) (fun _ => trivial) ?_
  rintro (fault | _)
  · trivial
  refine Dialogue.Within.bind (n := 1) (m := 3) (fun _ => trivial) fun name => ?_
  refine Dialogue.Within.bind (n := 2) (m := 1) (linkThrough_within _ final spool) fun outcome => ?_
  refine Dialogue.Within.bind (n := 1) (m := 0) (fun _ => trivial) ?_
  rintro (fault | _)
  · trivial
  · trivial

/-- A commit asks seven questions at most. -/
theorem commit_within (files : FileStore) (digest : String) (spool : Spool) :
    (files.commit digest spool).Within 7 := by
  refine Dialogue.Within.bind (n := 1) (m := 6) (fun _ => trivial) ?_
  rintro (fault | there)
  · trivial
  cases there with
  | true => trivial
  | false =>
    refine Dialogue.Within.bind (n := 6) (m := 0) (publish_within files _ spool) ?_
    rintro (fault | created)
    · show Dialogue.Within (if fault.isSystem then _ else _) 0
      split
      · trivial
      · trivial
    · trivial

/-- **Commits to a store of files create each object once**, in whatever order they take their turns, and
whatever is swept out of the quarantine meanwhile. -/
theorem commits_create_once [DecidableEq ι] (files : FileStore) (orders : ι → Order) {d : Disk}
    (hs : files.Straight) (hd : files.Orderly d) {r : CommitRound ι}
    (hreach : Round.Reaches (SharedDisk files) files.Sweeps
      (Round.start (fun i => (orders i).commit files) d) r) : CreatedOnce files orders d r := by
  refine ((Sustained.start hs hd).reaches hreach).createdOnce fun i => ?_
  exact hreach.within ⟨7, commit_within files _ _, rfl⟩

instance (files : FileStore) (d : Disk) : Decidable (files.Fresh d) :=
  decidable_of_iff ((∀ k, k < d.named → d.names k ≠ d.names d.named) ∧
      d.tree.node? (files.home ++ [quarantineName, d.names d.named]) = none)
    ⟨fun h => ⟨h.1, h.2⟩, fun h => ⟨h.given, h.free⟩⟩

/-- Two commits of one digest in step with each other: both find no object, and both write their quarantine
files, before one of them makes its link. The quarantine file of a third one is swept away before its link. -/
theorem commits_create_once_three :
    let files : FileStore :=
      { root := { anchor := "/", parts := ["srv", "depot"] }, sniffBytes := 2048, sniff := fun _ => "" }
    let third := "00112233445566778899aabbccddeeff"
    let disk : Disk :=
      { names := fun n =>
          if n = 0 then "0123456789abcdef0123456789abcdef"
          else if n = 1 then "fedcba9876543210fedcba9876543210" else third }
    let orders : Fin 3 → Order := fun i =>
      if i = 2 then
        { digest := String.ofList (List.replicate 64 'c')
          hex := ⟨by decide, List.all_eq_true.1 (by decide)⟩
          spool := { content := [3] } }
      else
        { digest := String.ofList (List.replicate 64 'a')
          hex := ⟨by decide, List.all_eq_true.1 (by decide)⟩
          spool := { content := [UInt8.ofNat i] } }
    let start := Round.start (fun i => (orders i).commit files) disk
    files.Straight ∧ files.Orderly disk ∧
      ∃ r, Round.Reaches (SharedDisk files) files.Sweeps start r ∧
        (r.result? 0).map (·.value.toOption) = some (some true) ∧
        (r.result? 1).map (·.value.toOption) = some (some false) ∧
        (r.result? 2).map (·.value.toOption) = some none ∧ CreatedOnce files orders disk r := by
  intro files third disk orders start
  have hstraight : files.Straight := straight_of_not_mem (by decide)
  have hthird : IsHex 32 third := ⟨by decide, List.all_eq_true.1 (by decide)⟩
  have horderly : files.Orderly disk := by
    refine Ready.orderly (Bare.ready ⟨fun rest hne => ?_, fun n => ?_, rfl, rfl⟩)
    · exact if_neg (List.append_ne_nil_of_right_ne_nil _ hne)
    · show IsHex 32 (if n = 0 then _ else if n = 1 then _ else _)
      split
      · exact ⟨by decide, List.all_eq_true.1 (by decide)⟩
      split
      · exact ⟨by decide, List.all_eq_true.1 (by decide)⟩
      · exact hthird
  let play := Round.play? (ι := Fin 3) (α := Log.Logged (Except Fault Bool)) Disk.answer
    fun q d => decide (q = .freshName → files.Fresh d)
  have hplayed : ∀ {order r r'}, play order r = some r' →
      Round.Reaches (SharedDisk files) files.Sweeps r r' := fun h =>
    Round.play?_reaches (fun q d hq => .answers q d (of_decide_eq_true hq)) h
  let swept (r : CommitRound (Fin 3)) : CommitRound (Fin 3) :=
    { r with
      scene := r.scene.put (Disk.answer (.remove (files.quarantine.join third)) r.scene.world).2 }
  have hswept : ∀ r, Round.Steps (SharedDisk files) files.Sweeps r (swept r) := fun r =>
    .outside ⟨third, hthird.plain (by decide), rfl⟩
  let firstTurns : List (Fin 3) := (List.replicate 7 [0, 1]).flatten ++ List.replicate 5 2
  have hplay : ((play firstTurns start).bind fun r => play [2, 2] (swept r)).map
      (fun r => ([0, 1, 2] : List (Fin 3)).map fun i => (r.result? i).map (·.value.toOption)) =
      some [some (some true), some (some false), some none] := by decide +kernel
  obtain ⟨r, hr, hvalues⟩ := Option.map_eq_some_iff.1 hplay
  obtain ⟨before, hbefore, hafter⟩ := Option.bind_eq_some_iff.1 hr
  simp only [List.map_cons, List.map_nil, List.cons.injEq, and_true] at hvalues
  obtain ⟨hfirst, hsecond, hlast⟩ := hvalues
  have hreach : Round.Reaches (SharedDisk files) files.Sweeps start r :=
    ((hplayed hbefore).tail (hswept before)).trans (hplayed hafter)
  exact ⟨hstraight, horderly, r, hreach, hfirst, hsecond, hlast,
    commits_create_once files orders hstraight horderly hreach⟩

end FileStore

end UploadDepot.Store

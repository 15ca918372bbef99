/-
Rival commits to a bucket.

Any number of commits ask one service in turns, in any order, and any request
may fail with any fault. A write that was taken created its object, and its
commit alone says so (`Created`); a commit that says that there was an object
has been told so by the service. So no commit reports an object that is not
there (`rivals_truthful`).
-/
import UploadDepot.Proofs.Interleaving
import UploadDepot.Proofs.Store.BucketStore

namespace UploadDepot.Store

/-- The answers of a service of which any request may fail, with any fault and without an effect. Only
that a write is refused because there is an object is never said where there is none. -/
inductive FailingService : World Request Request.Reply MemoryService
  | serves (request : Request) (s : MemoryService) :
      FailingService request s (MemoryService.serve request s).1 (MemoryService.serve request s).2
  | fails (request : Request) {fault : ServiceFault} (s : MemoryService) :
      (∀ put, request = .putObject put → fault.saysPresent = true →
        s.objects.has (put.bucket, put.key) = true) →
      FailingService request s (.error fault) s

namespace BucketStore

/-- What one commit is to store. -/
structure Order where
  digest : String
  mime : String
  spool : Spool
  size : Int

variable {ι : Type} {b : BucketStore} {orders : ι → Order}

/-- The scenes of commits. -/
abbrev CommitScene (ι : Type) := Scene ι Request Request.Reply MemoryService

/-- The commit of an order. -/
def Order.commit (b : BucketStore) (o : Order) : ServiceTalk (Log.Logged (Except Fault Bool)) :=
  b.commit o.digest o.mime o.spool o.size

/-- Whether a turn was a write that was taken. -/
def isWrite : Turn ι Request Request.Reply → Bool
  | ⟨_, .putObject _, .ok _⟩ => true
  | _ => false

/-- A write of this commit has been taken. -/
def Created (s : CommitScene ι) (i : ι) : Prop := ∃ t ∈ s.turns, t.who = i ∧ isWrite t = true

/-- What the rivals keep true. -/
structure Coherent (b : BucketStore) (orders : ι → Order) (s : CommitScene ι) : Prop where
  written : ∀ i, Created s i →
    b.objects s.world (b.keyOf (orders i).digest) = some (orders i).spool.content
  once : ∀ i j, Created s i → Created s j → (orders i).digest = (orders j).digest → i = j

/-- What is never lost. -/
structure Later (b : BucketStore) (s s' : CommitScene ι) : Prop where
  objects : ∀ key data, b.objects s.world key = some data → b.objects s'.world key = some data
  created : ∀ i, Created s i → Created s' i

theorem created_turn {s : CommitScene ι} {i j : ι} {q : Request} {reply : q.Reply} {w : MemoryService} :
    Created (s.turn i q reply w) j ↔
      Created s j ∨ (i = j ∧ isWrite (⟨i, q, reply⟩ : Turn ι Request Request.Reply) = true) := by
  simp only [Created, Scene.turn, List.mem_append, List.mem_singleton, or_and_right, exists_or,
    exists_eq_left]

/-- A turn that writes nothing. -/
theorem Coherent.quiet {s : CommitScene ι} (h : Coherent b orders s) (i : ι) (q : Request)
    (reply : q.Reply) (hquiet : isWrite (⟨i, q, reply⟩ : Turn ι Request Request.Reply) = false) :
    Coherent b orders (s.turn i q reply s.world) ∧ Later b s (s.turn i q reply s.world) := by
  have hcreated : ∀ j, Created (s.turn i q reply s.world) j ↔ Created s j := by
    intro j
    rw [created_turn, hquiet]
    simp
  refine ⟨⟨fun j hj => h.written j ((hcreated j).1 hj), fun j k hj hk => ?_⟩,
    fun _ _ => id, fun j => (hcreated j).2⟩
  exact h.once j k ((hcreated j).1 hj) ((hcreated k).1 hk)

/-- A write that was taken, where there was no object before. -/
theorem Coherent.write {s : CommitScene ι} (h : Coherent b orders s) {i : ι} {put : Put}
    {w : MemoryService} (hkey : put.key = b.keyOf (orders i).digest)
    (hbody : put.body = (orders i).spool.content) (hnone : b.objects s.world put.key = none)
    (hw : b.objects w = Function.update (b.objects s.world) put.key (some put.body)) :
    Coherent b orders (s.turn i (.putObject put) (.ok ()) w) ∧
      Later b s (s.turn i (.putObject put) (.ok ()) w) := by
  have hcreated : ∀ j, Created (s.turn i (.putObject put) (.ok ()) w) j ↔ Created s j ∨ i = j := by
    intro j
    rw [created_turn]
    simp [isWrite]
  have hobjects : ∀ key data, b.objects s.world key = some data → b.objects w key = some data := by
    intro key data hk
    have hne : key ≠ put.key := by
      rintro rfl
      rw [hnone] at hk
      cases hk
    rw [hw, Function.update_of_ne hne, hk]
  -- Before this write, no other commit of the digest can have written.
  have hfirst : ∀ j, Created s j → (orders j).digest ≠ (orders i).digest := by
    intro j hj he
    have hthere := h.written j hj
    rw [he, ← hkey, hnone] at hthere
    cases hthere
  refine ⟨⟨fun j hj => ?_, fun j k hj hk he => ?_⟩, hobjects, fun j hj => (hcreated j).2 (.inl hj)⟩
  · rcases (hcreated j).1 hj with hj | rfl
    · exact hobjects _ _ (h.written j hj)
    · show b.objects w _ = _
      rw [hw, ← hkey, Function.update_self, hbody]
  · rcases (hcreated j).1 hj with hj | rfl
    · rcases (hcreated k).1 hk with hk | rfl
      · exact h.once j k hj hk he
      · exact absurd he (hfirst j hj)
    · rcases (hcreated k).1 hk with hk | rfl
      · exact absurd he.symm (hfirst k hk)
      · rfl

/-- How rival commits get along. -/
def rivals (b : BucketStore) (orders : ι → Order) : Accord ι Request Request.Reply MemoryService where
  world := FailingService
  outside := fun _ _ => False
  Sound := Coherent b orders
  Asks := fun _ _ _ => True
  Spares := fun _ => Later b
  refl := fun _ _ => ⟨fun _ _ => id, fun _ => id⟩
  trans := fun h h' => ⟨fun key data hk => h'.objects key data (h.objects key data hk),
    fun i hi => h'.created i (h.created i hi)⟩
  leaves := fun _ => False.elim

/-- What is known of a commit that has ended. -/
def Ended (b : BucketStore) (orders : ι → Order) (i : ι)
    (committed : Log.Logged (Except Fault Bool)) (s : CommitScene ι) : Prop :=
  match committed.value with
  | .ok true => Created s i
  | .ok false => ∃ data, b.objects s.world (b.keyOf (orders i).digest) = some data
  | .error fault => ∃ f, fault = .storage f

theorem ended_lasts (i : ι) : (rivals b orders).Lasts i (Ended b orders i) := by
  rintro ⟨lines, value⟩ s s' _ ⟨hobjects, hcreated⟩ h
  match value with
  | .ok true => exact hcreated i h
  | .ok false =>
    obtain ⟨data, hdata⟩ := h
    exact ⟨data, hobjects _ _ hdata⟩
  | .error fault => exact h

/-! ## A commit among its rivals -/

variable {i : ι} {s : CommitScene ι} {digest : String}

/-- The question for an object is not answered with yes for nothing. -/
theorem holds_sustains :
    (b.holds digest).Sustains (rivals b orders) i
      (fun answer s => answer = .ok true → ∃ data, b.objects s.world (b.keyOf digest) = some data) s := by
  refine Dialogue.Sustains.bind ?_
  refine fun s' hs' _ => ⟨trivial, fun reply w hw => ?_⟩
  have hsame : w = s'.world := by
    cases hw with
    | serves =>
      rw [MemoryService.serve]
      split <;> rfl
    | fails => rfl
  have hpresent : reply = .ok () → ∃ data, b.objects s'.world (b.keyOf digest) = some data := by
    intro hok
    cases hw with
    | serves =>
      rw [MemoryService.serve] at hok
      split at hok
      · exact present_of_has (by assumption)
      · cases hok
    | fails => cases hok
  subst hsame
  obtain ⟨hsound, hlater⟩ := Coherent.quiet hs' i (.headObject b.bucket (b.keyOf digest)) reply rfl
  refine ⟨hsound, fun _ _ => hlater, ?_⟩
  rcases reply with (r | _ | _) | _
  · show Dialogue.Sustains _ _ _ (if r.codeText ∈ missingCodes then _ else _) _
    split
    · intro hok
      cases hok
    · intro hok
      cases hok
  · intro hok
    cases hok
  · intro hok
    cases hok
  · exact fun _ => hpresent rfl

/-- A conditional write. -/
theorem putObject_sustains {put : Put} (hbucket : put.bucket = b.bucket) (hcond : put.onlyIfAbsent = true)
    (hkey : put.key = b.keyOf (orders i).digest) (hbody : put.body = (orders i).spool.content) :
    (ServiceTalk.putObject put).Sustains (rivals b orders) i
      (fun reply s =>
        match reply with
        | .ok () => Created s i
        | .error fault => fault.saysPresent = true → ∃ data, b.objects s.world put.key = some data) s := by
  refine fun s' hs' _ => ⟨trivial, fun reply w hw => ?_⟩
  -- A write that is refused, or fails, is one more turn that writes nothing.
  have hrefused : ∀ fault : ServiceFault,
      (fault.saysPresent = true → ∃ data, b.objects s'.world put.key = some data) →
      (rivals b orders).Sound (s'.turn i (.putObject put) (.error fault) s'.world) ∧
        (∀ j, j ≠ i →
          (rivals b orders).Spares j s' (s'.turn i (.putObject put) (.error fault) s'.world)) ∧
        (fault.saysPresent = true → ∃ data, b.objects s'.world put.key = some data) := by
    intro fault hpresent
    obtain ⟨hsound, hlater⟩ := Coherent.quiet hs' i (.putObject put) (.error fault) rfl
    exact ⟨hsound, fun _ _ => hlater, hpresent⟩
  cases hw with
  | fails _ _ hthere => exact hrefused _ fun hsays => present_of_has (hbucket ▸ hthere put rfl hsays)
  | serves =>
    rcases serve_putObject hbucket hcond s'.world with ⟨fault, hserve, hthere⟩ |
      ⟨w, hserve, hnone, hobjects⟩
    · rw [hserve]
      exact hrefused fault fun _ => hthere
    · rw [hserve]
      obtain ⟨hsound, hlater⟩ := Coherent.write hs' hkey hbody hnone hobjects
      exact ⟨hsound, fun _ _ => hlater, created_turn.2 (.inr ⟨rfl, rfl⟩)⟩

/-- **A commit**, whatever its rivals do in between. -/
theorem commit_sustains :
    ((orders i).commit b).Sustains (rivals b orders) i (Ended b orders i) s := by
  refine Dialogue.Sustains.bind (holds_sustains.imp ?_)
  rintro (fault | there) s hthere
  · exact ⟨fault, rfl⟩
  cases there with
  | true => exact hthere rfl
  | false =>
    refine Dialogue.Sustains.bind ((putObject_sustains (b := b) rfl rfl rfl rfl).imp ?_)
    rintro (fault | _) s hput
    · match fault with
      | .unreachable _ => exact ⟨_, rfl⟩
      | .unspecified => exact ⟨_, rfl⟩
      | .refused r =>
        show Dialogue.Sustains _ _ _ (if r.codeText ∈ presentCodes then _ else _) _
        split
        · rename_i hcode
          exact hput (decide_eq_true hcode)
        · split
          -- A rival write: the question is asked again.
          · refine Dialogue.Sustains.bind (holds_sustains.imp ?_)
            rintro (fault | there) s hthere
            · exact ⟨fault, rfl⟩
            cases there with
            | true => exact hthere rfl
            | false => exact ⟨_, rfl⟩
          · exact ⟨_, rfl⟩
    · exact hput

/-! ## All commits -/

/-- What is true in every round of rival commits. -/
structure Truthful (b : BucketStore) (orders : ι → Order)
    (r : Round ι Request Request.Reply (Log.Logged (Except Fault Bool)) MemoryService) : Prop where
  /-- Of the commits of one digest, one at most says that it has created the object. -/
  unique : ∀ i j c c', r.talks i = .done c → r.talks j = .done c' → c.value = .ok true →
    c'.value = .ok true → (orders i).digest = (orders j).digest → i = j
  /-- The object has all the bytes of that commit. -/
  content : ∀ i c, r.talks i = .done c → c.value = .ok true →
    b.objects r.scene.world (b.keyOf (orders i).digest) = some (orders i).spool.content
  /-- A commit that did not fail has ended while there was an object. -/
  present : ∀ i c created, r.talks i = .done c → c.value = .ok created →
    ∃ data, b.objects r.scene.world (b.keyOf (orders i).digest) = some data
  /-- Every other one has failed with a failure of the storage. -/
  failed : ∀ i c fault, r.talks i = .done c → c.value = .error fault → ∃ f, fault = .storage f

/-- **Commits to a bucket do not report what is not there**, in whatever order they take their turns, and
whichever of their requests fail. -/
theorem rivals_truthful [DecidableEq ι] (b : BucketStore) (orders : ι → Order) (service : MemoryService)
    {r : Round ι Request Request.Reply (Log.Logged (Except Fault Bool)) MemoryService}
    (hreach : Round.Reaches FailingService (fun _ _ => False)
      (Round.start (fun i => (orders i).commit b) service) r) : Truthful b orders r := by
  have hstart : (rivals b orders).Holds (Ended b orders)
      (Round.start (fun i => (orders i).commit b) service) := by
    refine ⟨⟨?_, ?_⟩, fun i => commit_sustains⟩
    · rintro i ⟨t, ht, _⟩
      cases ht
    · rintro i j ⟨t, ht, _⟩
      cases ht
  obtain ⟨hsound, hsustains⟩ := hstart.reaches ended_lasts hreach
  have hended : ∀ i c, r.talks i = .done c → Ended b orders i c r.scene := by
    intro i c hdone
    have h := hsustains i
    rwa [hdone] at h
  have hcreated : ∀ i c, r.talks i = .done c → c.value = .ok true → Created r.scene i := by
    intro i c hdone hvalue
    have h := hended i c hdone
    rwa [Ended, hvalue] at h
  refine ⟨fun i j c c' hi hj hc hc' => ?_, fun i c hi hc => ?_, fun i c created hi hc => ?_,
    fun i c fault hi hc => ?_⟩
  · exact hsound.once i j (hcreated i c hi hc) (hcreated j c' hj hc')
  · exact hsound.written i (hcreated i c hi hc)
  · cases created with
    | true => exact ⟨_, hsound.written i (hcreated i c hi hc)⟩
    | false =>
      have h := hended i c hi
      rwa [Ended, hc] at h
  · have h := hended i c hi
    rwa [Ended, hc] at h

/-- Two commits of one digest, each of which finds no object before the first of them writes. -/
theorem rivals_truthful_two :
    let b : BucketStore :=
      { bucket := "depot", folder := "images", region := none, sniffBytes := 2048, sniff := fun _ => "" }
    let orders : Bool → Order := fun first =>
      { digest := "d1", mime := "image/gif", size := 1, spool := { content := if first then [1] else [2] } }
    let start := Round.start (fun i => (orders i).commit b) { buckets := ["depot"] }
    ∃ r, Round.Reaches FailingService (fun _ _ => False) start r ∧
      (r.result? true).map (·.value.toOption) = some (some true) ∧
      (r.result? false).map (·.value.toOption) = some (some false) ∧ Truthful b orders r := by
  intro b orders start
  have hplay : (Round.play? MemoryService.serve (fun _ _ => true) [true, false, true, false] start).map
      (fun r => ((r.result? true).map (·.value.toOption), (r.result? false).map (·.value.toOption))) =
      some (some (some true), some (some false)) := by decide +kernel
  obtain ⟨r, hr, hvalues⟩ := Option.map_eq_some_iff.1 hplay
  obtain ⟨hfirst, hsecond⟩ := Prod.mk.inj hvalues
  have hreach : Round.Reaches FailingService (fun _ _ => False) start r :=
    Round.play?_reaches (fun q s _ => .serves q s) hr
  exact ⟨r, hreach, hfirst, hsecond, rivals_truthful b orders _ hreach⟩

end BucketStore

end UploadDepot.Store

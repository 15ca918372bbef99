/-
What a commit does to files, whatever stands inside the root.

Nothing is asked here of the inside of the root: there may be a file where a
directory belongs, or a directory in an object's place. A commit that makes an
object adds its file and nothing else. Any other commit leaves all files as
they were, for the file it wrote to the quarantine is taken away again
(`publish_frame`, `commit_frame`). Directories that were made stay, and are no
files. What a commit comes to is told from the faults that it met
(`Explains`).
-/
import UploadDepot.Proofs.Store.Inside

namespace UploadDepot.Store

open Dialogue (Exchange)
open Files (Path Place Node)
open Files.Tree (leadsTo Keeps Grown)

/-- More mishaps may happen. -/
theorem DiskWorld.mono {mishaps mishaps' : Mishap → Prop} {q : DiskRequest} {d d' : Disk} {reply : q.Reply}
    (h : DiskWorld mishaps q d reply d') (hm : ∀ m, mishaps m → mishaps' m) :
    DiskWorld mishaps' q d reply d' := by
  cases h with
  | answers => exact .answers q d
  | writeBreaks path content _ hbreaks => exact .writeBreaks path content d (hm _ hbreaks)
  | linkFails path new _ hfails => exact .linkFails path new d (hm _ hfails)

/-- The fault in an answer, if it has one. -/
def faultIn {α : Type} : Except Files.Fault α → Option Files.Fault
  | .ok _ => none
  | .error fault => some fault

theorem mem_faultIn {α : Type} {reply : Except Files.Fault α} {fault : Files.Fault} :
    fault ∈ faultIn reply ↔ reply = .error fault := by
  cases reply <;> simp [faultIn]

namespace DiskRequest

/-- The fault that a question is answered with. A file that is gone need not be removed. -/
def fault? : (q : DiskRequest) → q.Reply → Option Files.Fault
  | .holds _, reply => faultIn reply
  | .isFile _, reply => faultIn reply
  | .makeDirectories _, reply => faultIn reply
  | .freshName, _ => none
  | .write _ _, reply => faultIn reply
  | .link _ _, reply => faultIn reply
  | .remove _, reply => (faultIn reply).filter fun fault => !fault.isNotFound
  | .read _, reply => faultIn reply

/-- What a fault makes of an upload: a link that found something in its way makes it a duplicate, and
anything else has failed. -/
def verdict : DiskRequest → Files.Fault → Except Files.Fault Bool
  | .link _ _, fault => if fault.isAlreadyThere then .ok false else .error fault
  | _, fault => .error fault

end DiskRequest

/-- A result that every fault on the way accounts for, and one of them if it is not a new object. -/
structure Explains (told : List (Exchange DiskRequest.Reply)) (outcome : Except Files.Fault Bool) :
    Prop where
  met : ∀ e ∈ told, ∀ fault ∈ e.1.fault? e.2, outcome = e.1.verdict fault
  cause : outcome = .ok true ∨
    ∃ e ∈ told, ∃ fault ∈ e.1.fault? e.2, outcome = e.1.verdict fault

namespace Explains

variable {told : List (Exchange DiskRequest.Reply)} {outcome : Except Files.Fault Bool}
  {q : DiskRequest} {reply : q.Reply}

theorem nil : Explains [] (.ok true) := ⟨fun _ he => absurd he List.not_mem_nil, .inl rfl⟩

/-- What was answered without a fault does not matter. -/
theorem quiet (hq : q.fault? reply = none) (h : Explains told outcome) :
    Explains (⟨q, reply⟩ :: told) outcome where
  met := List.forall_mem_cons.2 ⟨fun _ hfault => absurd (hq ▸ hfault) (Option.not_mem_none _), h.met⟩
  cause := h.cause.imp_right fun ⟨e, he, hfault⟩ => ⟨e, List.mem_cons_of_mem _ he, hfault⟩

theorem snoc (hq : ∀ fault ∈ q.fault? reply, outcome = q.verdict fault) (h : Explains told outcome) :
    Explains (told ++ [⟨q, reply⟩]) outcome where
  met := List.forall_mem_append.2 ⟨h.met, List.forall_mem_singleton.2 hq⟩
  cause := h.cause.imp_right fun ⟨e, he, hfault⟩ => ⟨e, List.mem_append_left _ he, hfault⟩

theorem fault {fault : Files.Fault} (h : q.fault? reply = some fault) :
    Explains [⟨q, reply⟩] (q.verdict fault) := by
  refine ⟨List.forall_mem_singleton.2 fun other hother => ?_, .inr ⟨_, List.mem_singleton_self _, _, h, rfl⟩⟩
  rw [Option.mem_def, h] at hother
  cases hother
  rfl

end Explains

namespace FileStore

variable {s : FileStore} {digest name : String} {content : Bytes} {t t' t'' : Files.Tree Bytes}
  {d : Disk} {mishaps : Mishap → Prop}

/-- A root under which paths can be followed: none of the store's paths is refused for its form. -/
structure Addressable (s : FileStore) : Prop where
  noNul : s.root.hasNul = false
  /-- There is room for the longest path, that of an object. -/
  short : Files.Tree.weight s.root.parts + 68 ≤ Files.Tree.pathLimit
  names : ∀ name ∈ s.root.parts, name.utf8ByteSize ≤ Files.Tree.nameLimit

/-- The faults of a root that is no path, or too long a one: no commit answers for them. -/
inductive Unaddressed (s : FileStore) (t : Files.Tree Bytes) (digest : String) : Files.Fault → Prop
  | tooLong : t.resolve (s.pathOf digest).parts = .error .nameTooLong →
      Unaddressed s t digest (.refused .nameTooLong [s.pathOf digest])
  | noPath : s.root.hasNul = true → Unaddressed s t digest .nulInPath

/-- A root whose paths are well formed, with room for the longest of them, that of an object. What
its own names are, the disk may find out. -/
structure Roomy (s : FileStore) : Prop where
  noNul : s.root.hasNul = false
  short : Files.Tree.weight s.root.parts + 68 ≤ Files.Tree.pathLimit

/-- The next name given out is of thirty-two hexadecimal digits, and nothing in the quarantine
bears it. -/
structure Unclaimed (s : FileStore) (d : Disk) : Prop where
  hex : IsHex 32 (d.names d.named)
  free : d.tree.node? (s.home ++ [quarantineName, d.names d.named]) = none

/-- Why a disk does not do what it is asked for. -/
inductive Fails (s : FileStore) (mishaps : Mishap → Prop) : Files.Fault → Prop
  | refused (refusal : Files.Refusal) (paths : List Path) : Fails s mishaps (.refused refusal paths)
  | mishap {m : Mishap} : mishaps m → Fails s mishaps (.mishap m)
  | noPath : s.root.hasNul = true → Fails s mishaps .nulInPath

/-- How a commit reports it: a failure of the system as one of the storage, and others as they are, as
well as what it finds out first about the path of the object. -/
inductive Reports (s : FileStore) (mishaps : Mishap → Prop) (digest : String) (t : Files.Tree Bytes) :
    Fault → Prop
  | storage {path : Path} {fault : Files.Fault} :
      s.Fails mishaps fault → fault.isSystem = true →
      Reports s mishaps digest t (.storage (.writing path fault))
  | stray {m : Mishap} : mishaps m → m.isSystem = false →
      Reports s mishaps digest t (.stray (.mishap m))
  | unaddressed {fault : Files.Fault} : s.Unaddressed t digest fault →
      Reports s mishaps digest t (.stray fault)

/-- Files before and after a commit, by what it came to. -/
inductive Framed {ε : Type} (s : FileStore) (mishaps : Mishap → Prop) (why : ε → Prop) (digest : String)
    (content : Bytes) (t t' : Files.Tree Bytes) : Except ε Bool → Prop
  | created : t.files (s.home ++ slot digest) = none →
      t'.files = Function.update t.files (s.home ++ slot digest) (some content) →
      Framed s mishaps why digest content t t' (.ok true)
  /-- Something is in the object's place, or the link was told so. -/
  | found : ((∃ node, t'.node? (s.home ++ slot digest) = some node) ∨
        ∃ m, mishaps m ∧ m.kind = .alreadyThere) →
      t'.files = t.files → Framed s mishaps why digest content t t' (.ok false)
  | failed {fault : ε} : why fault → t'.files = t.files →
      Framed s mishaps why digest content t t' (.error fault)

theorem Framed.since {ε : Type} {why : ε → Prop} {value : Except ε Bool}
    (h : Framed s mishaps why digest content t' t'' value) (hfiles : t'.files = t.files) :
    Framed s mishaps why digest content t t'' value := by
  cases h with
  | created hnone hnew => exact .created (hfiles ▸ hnone) (hfiles ▸ hnew)
  | found hthere hsame => exact .found hthere (hsame.trans hfiles)
  | failed hwhy hsame => exact .failed hwhy (hsame.trans hfiles)

theorem Framed.files {ε : Type} {why : ε → Prop} {value : Except ε Bool}
    (h : Framed s mishaps why digest content t t' value) :
    (value = .ok true → t.files (s.home ++ slot digest) = none ∧
      t'.files = Function.update t.files (s.home ++ slot digest) (some content)) ∧
    (value ≠ .ok true → t'.files = t.files) := by
  cases h with
  | created hnone hnew => exact ⟨fun _ => ⟨hnone, hnew⟩, fun hnot => absurd rfl hnot⟩
  | found _ hsame => exact ⟨nofun, fun _ => hsame⟩
  | failed _ hsame => exact ⟨nofun, fun _ => hsame⟩

theorem Framed.imp {ε : Type} {why why' : ε → Prop} {value : Except ε Bool}
    (h : Framed s mishaps why digest content t t' value) (hwhy : ∀ fault, why fault → why' fault) :
    Framed s mishaps why' digest content t t' value := by
  cases h with
  | created hnone hnew => exact .created hnone hnew
  | found hthere hsame => exact .found hthere hsame
  | failed hfails hsame => exact .failed (hwhy _ hfails) hsame

/-! ## Paths -/

/-- The place of a path two steps below the root. -/
theorem Roomy.resolve {top : String} (h : s.Roomy)
    (hdir : t.isDirectory (s.root.parts ++ [top]) = true) (htop : top ≠ "..") (hname : name ≠ "..")
    (hsize : top.utf8ByteSize + name.utf8ByteSize ≤ 66) :
    t.resolve (s.root.parts ++ [top] ++ [name]) = .ok (s.home ++ [top, name]) := by
  have hshort := h.short
  have hlen : name.utf8ByteSize ≤ Files.Tree.nameLimit := by
    simp only [Files.Tree.nameLimit]
    omega
  have hweight : Files.Tree.weight (s.root.parts ++ [top] ++ [name]) ≤ Files.Tree.pathLimit := by
    simp only [Files.Tree.weight_snoc]
    omega
  exact resolve_within hdir htop hname hlen hweight

theorem Roomy.resolve_quarantined (h : s.Roomy) (hname : IsHex 32 name)
    (hdir : t.isDirectory (s.root.parts ++ [quarantineName]) = true) :
    t.resolve (s.quarantined name).parts = .ok (s.home ++ [quarantineName, name]) := by
  have hsize : quarantineName.utf8ByteSize + name.utf8ByteSize ≤ 66 := by
    rw [hname.utf8ByteSize]
    decide
  exact h.resolve hdir plain_quarantine.up (hname.plain (by decide)).up hsize

/-- The path of an object is not too long to be followed. -/
theorem Addressable.resolve_ne (h : s.Addressable) (hdigest : IsHex 64 digest) :
    t.resolve (s.pathOf digest).parts ≠ .error .nameTooLong := by
  have hshort := h.short
  have hsize := hdigest.utf8ByteSize
  have hshard := (isHex_shard hdigest).utf8ByteSize
  rw [pathOf_eq hdigest, Files.Tree.resolve_eq]
  · refine Files.Tree.follow_ne_nameTooLong fun name hname => ?_
    simp only [List.mem_append, List.mem_singleton] at hname
    obtain (hroot | rfl) | rfl := hname
    · exact h.names name hroot
    · simp [hshard, Files.Tree.nameLimit]
    · simp [hsize, Files.Tree.nameLimit]
  · simp only [Files.Tree.weight_snoc]
    omega

/-- An addressable root has none of these faults. -/
theorem Addressable.not_unaddressed (h : s.Addressable) (hdigest : IsHex 64 digest) (fault : Files.Fault) :
    ¬ s.Unaddressed t digest fault := by
  rintro (hlong | hnul)
  · exact h.resolve_ne hdigest hlong
  · exact absurd (h.noNul.symm.trans hnul) Bool.false_ne_true

/-! ## One question each -/

/-- A question that no mishap comes between has one answer. -/
theorem answered_always {q : DiskRequest} {post : q.Reply → Disk → Prop}
    (hq : q.atRisk = false) (hpost : post (Disk.answer q d).1 (Disk.answer q d).2) :
    (Dialogue.ask q .done : DiskTalk q.Reply).Always (DiskWorld mishaps) (fun _ _ => True) post d :=
  always_answers hq trivial hpost

/-- What the first question of a commit finds out, below any root: whether there is something in the
object's place, unless the path cannot be followed for its length, or that of a name. -/
theorem holds_found (hdigest : IsHex 64 digest) (d : Disk) :
    (∃ fault, Disk.answer (.holds (s.pathOf digest)) d = (.error fault, d) ∧
      s.Unaddressed d.tree digest fault) ∨
    (Disk.answer (.holds (s.pathOf digest)) d = (.ok false, d) ∧ (s.root.hasNul = true ∨ s.Roomy)) ∨
    (Disk.answer (.holds (s.pathOf digest)) d = (.ok true, d) ∧
      ∃ node, d.tree.node? (s.home ++ slot digest) = some node) := by
  simp only [Disk.answer, Disk.look, hasNul_pathOf hdigest]
  cases hnul : s.root.hasNul with
  | true => exact .inr (.inl ⟨rfl, .inl rfl⟩)
  | false =>
    simp only [Bool.false_eq_true, if_false]
    cases hholds : d.tree.holds (s.pathOf digest).parts with
    | error e =>
      obtain ⟨rfl, hlong⟩ := Files.Tree.holds_error hholds
      exact .inl ⟨_, rfl, .tooLong hlong⟩
    | ok there =>
      cases there with
      | false =>
        have hweight := Files.Tree.weight_of_holds hholds
        have hsize := hdigest.utf8ByteSize
        have hshard := (isHex_shard hdigest).utf8ByteSize
        rw [pathOf_eq hdigest] at hweight
        simp only [Files.Tree.weight_snoc] at hweight
        exact .inr (.inl ⟨rfl, .inr ⟨hnul, by omega⟩⟩)
      | true =>
        obtain ⟨place, node, hr, hn⟩ := Files.Tree.holds_true hholds
        rw [Files.Tree.resolve_leadsTo hr, leadsTo_pathOf hdigest] at hn
        exact .inr (.inr ⟨rfl, node, hn⟩)

/-- A directory right under the root is made, or refused. What is new then are directories. -/
theorem makeDirectories_frame {post : Except Files.Fault Unit → Disk → Prop} (h : s.Roomy)
    (hname : Files.Plain name)
    (hok : ∀ t', Grown (s.root.parts ++ [name]) d.tree t' →
      t'.isDirectory (s.root.parts ++ [name]) = true → post (.ok ()) { d with tree := t' })
    (hrefused : ∀ t' refusal paths, Grown (s.root.parts ++ [name]) d.tree t' →
      post (.error (.refused refusal paths)) { d with tree := t' }) :
    (DiskTalk.makeDirectories { s.root with parts := s.root.parts ++ [name] }).Always
      (DiskWorld mishaps) (fun _ _ => True) post d := by
  have hnul := (hasNul_child (s := s) hname).trans h.noNul
  obtain ⟨hgrown, hdir⟩ := Files.Tree.makeDirectories_grown d.tree (s.root.parts ++ [name])
  refine answered_always rfl ?_
  simp only [Disk.answer, hnul, Bool.false_eq_true, if_false]
  generalize d.tree.makeDirectories (s.root.parts ++ [name]) = made at hgrown hdir
  obtain ⟨_ | _, tree⟩ := made
  · exact hrefused tree _ _ hgrown
  · exact hok tree hgrown (hdir rfl)

/-- A file is written to the quarantine, or the write breaks off: then there is no file, or a part of
one. -/
theorem write_frame {post : Except Files.Fault Unit → Disk → Prop} (h : s.Roomy) (hname : IsHex 32 name)
    (hmay : ∀ m, d.MayMeet m → mishaps m)
    (hdir : d.tree.isDirectory (s.root.parts ++ [quarantineName]) = true)
    (hfree : d.tree.node? (s.home ++ [quarantineName, name]) = none)
    (hok : post (.ok ())
      { d with tree := d.tree.set (s.home ++ [quarantineName, name]) (.file content) })
    (hbroken : ∀ m t', mishaps m →
      (t' = d.tree ∨ ∃ part, t' = d.tree.set (s.home ++ [quarantineName, name]) (.file part)) →
      post (.error (.mishap m)) { d with tree := t' }) :
    (DiskTalk.write (s.quarantined name) content).Always (DiskWorld mishaps) (fun _ _ => True) post d := by
  have hnul := noNul_quarantined (hname.plain (by decide)) h.noNul
  have hplace := h.resolve_quarantined hname hdir
  have hbreaks (b : BrokenWrite) (hb : mishaps b.mishap) :
      post (d.breakOff (s.quarantined name) content b).1 (d.breakOff (s.quarantined name) content b).2 := by
    obtain ⟨t', hbroke, hleft⟩ := Disk.breakOff_free hnul hplace hfree content b
    rw [hbroke]
    exact hbroken _ t' hb hleft
  refine always_write trivial ?_ fun b hb => ⟨trivial, hbreaks b hb⟩
  cases hd : d.writeBreaks with
  | some b =>
    simp only [Disk.answer, hd]
    exact hbreaks b (hmay _ (.inl ⟨b, hd, rfl⟩))
  | none =>
    rw [Disk.write_eq hd, Disk.change_eq d hnul, Files.Tree.write_eq hplace, hfree]
    exact hok

/-- What writing and linking have come to, and the tree then. -/
inductive Placed (s : FileStore) (mishaps : Mishap → Prop) (name digest : String) (content : Bytes)
    (t : Files.Tree Bytes) : Except Files.Fault Bool → Files.Tree Bytes → Prop
  /-- A directory bears the name. -/
  | blocked : t.node? (s.home ++ [quarantineName, name]) = some .directory →
      Placed s mishaps name digest content t (.error (.refused .isDirectory [s.quarantined name])) t
  | unwritten {m : Mishap} : mishaps m → t.node? (s.home ++ [quarantineName, name]) = none →
      Placed s mishaps name digest content t (.error (.mishap m)) t
  /-- The quarantine file may hold a part of the content only. -/
  | unlinked {fault : Files.Fault} {part : Bytes} : s.Fails mishaps fault →
      t.node? (s.home ++ [quarantineName, name]) = none →
      Placed s mishaps name digest content t (.error fault)
        (t.set (s.home ++ [quarantineName, name]) (.file part))
  | present : ((∃ node, t.node? (s.home ++ slot digest) = some node) ∨
        ∃ m, mishaps m ∧ m.kind = .alreadyThere) →
      t.node? (s.home ++ [quarantineName, name]) = none →
      Placed s mishaps name digest content t (.ok false)
        (t.set (s.home ++ [quarantineName, name]) (.file content))
  | linked : t.node? (s.home ++ slot digest) = none →
      t.node? (s.home ++ [quarantineName, name]) = none →
      Placed s mishaps name digest content t (.ok true) (s.linked name digest content t)

/-- The tree after a link that was refused, or failed. -/
theorem Fails.placed {fault : Files.Fault} (h : s.Fails mishaps fault)
    (hfree : t.node? (s.home ++ [quarantineName, name]) = none)
    (hthere : fault.isAlreadyThere = true → (∃ node, t.node? (s.home ++ slot digest) = some node) ∨
      ∃ m, mishaps m ∧ m.kind = .alreadyThere) :
    Placed s mishaps name digest content t (linkOutcome (.error fault))
      (t.set (s.home ++ [quarantineName, name]) (.file content)) := by
  rw [linkOutcome]
  split
  · rename_i halready
    exact .present (hthere halready) hfree
  · exact .unlinked h hfree

/-- The link of a file that was written to the quarantine. -/
theorem link_placed (h : s.Roomy) (hname : IsHex 32 name) (hdigest : IsHex 64 digest)
    (hmay : ∀ m, d.MayMeet m → mishaps m)
    (hfree : d.tree.node? (s.home ++ [quarantineName, name]) = none) :
    (DiskTalk.link (s.quarantined name) (s.pathOf digest)).Always (DiskWorld mishaps) (fun _ _ => True)
      (fun reply d' => ∃ t', d' = { d with tree := t' } ∧
        Placed s mishaps name digest content d.tree (linkOutcome reply) t')
      { d with tree := d.tree.set (s.home ++ [quarantineName, name]) (.file content) } := by
  have hmishap : ∀ m, mishaps m → Placed s mishaps name digest content d.tree
      (linkOutcome (.error (.mishap m)))
      (d.tree.set (s.home ++ [quarantineName, name]) (.file content)) := by
    intro m hm
    refine Fails.placed (.mishap hm) hfree fun halready => .inr ⟨m, hm, ?_⟩
    simpa [Files.Fault.isAlreadyThere] using halready
  refine always_link trivial ?_ fun m hm => ⟨trivial, _, rfl, hmishap m hm⟩
  rcases Option.eq_none_or_eq_some d.linkFails with hfails | ⟨m, hfails⟩
  case inr =>
    simp only [Disk.answer, hfails]
    exact ⟨_, rfl, hmishap m (hmay m (.inr hfails))⟩
  case inl =>
    have hne := slot_ne_quarantine s name hdigest
    rcases link_cases (d := { d with
        tree := d.tree.set (s.home ++ [quarantineName, name]) (.file content) })
      (hname.plain (by decide)) hdigest h.noNul hfails with
      ⟨refusal, paths, hanswer, hthere⟩ | ⟨linked, hanswer, hread, hnone⟩
    · rw [Files.Tree.node?_set_other hne] at hthere
      refine ⟨_, by rw [hanswer], ?_⟩
      rw [hanswer]
      refine Fails.placed (.refused refusal paths) hfree fun halready => .inl (hthere ?_)
      simpa [Files.Fault.isAlreadyThere] using halready
    · rw [Files.Tree.node?_set_other hne] at hnone
      rw [Files.Tree.node?_set_self place_ne] at hread
      cases hread
      rw [hanswer]
      exact ⟨_, rfl, .linked hnone hfree⟩

theorem linkThrough_placed {spool : Spool} (h : s.Roomy) (hname : IsHex 32 name)
    (hdigest : IsHex 64 digest) (hmay : ∀ m, d.MayMeet m → mishaps m)
    (hdir : d.tree.isDirectory (s.root.parts ++ [quarantineName]) = true)
    (hnode : d.tree.node? (s.home ++ [quarantineName, name]) = none ∨
      d.tree.node? (s.home ++ [quarantineName, name]) = some .directory) :
    (linkThrough (s.quarantined name) (s.pathOf digest) spool).Tells (DiskWorld mishaps)
      (fun told outcome d' => Explains told outcome ∧ ∃ t', d' = { d with tree := t' } ∧
        Placed s mishaps name digest spool.content d.tree outcome t') d := by
  have hnul := noNul_quarantined (hname.plain (by decide)) h.noNul
  have hplace := h.resolve_quarantined hname hdir
  refine Dialogue.Tells.bind (Dialogue.Tells.asked (DiskRequest.write _ _) ?_)
  rcases hnode with hfree | hdirectory
  · refine write_frame h hname hmay hdir hfree ?_ fun m t' hm hleft => ?_
    rotate_left
    · refine ⟨.fault rfl, t', rfl, ?_⟩
      rcases hleft with rfl | ⟨part, rfl⟩
      · exact .unwritten hm hfree
      · exact .unlinked (.mishap hm) hfree
    refine Dialogue.Tells.bind (Dialogue.Tells.asked (DiskRequest.link _ _)
      ((link_placed h hname hdigest hmay hfree).imp ?_))
    rintro (fault | _) d' hplaced
    · exact ⟨.quiet rfl (.fault rfl), hplaced⟩
    · exact ⟨.quiet rfl (.quiet rfl .nil), hplaced⟩
  · have hrefused : ∀ part, d.tree.write (s.quarantined name).parts part = .error .isDirectory := by
      intro part
      rw [Files.Tree.write_eq hplace, hdirectory]
    refine always_write trivial ?_ fun b _ => ⟨trivial, ?_⟩
    · rw [Disk.write_refused hnul hrefused]
      exact ⟨.fault rfl, d.tree, rfl, .blocked hdirectory⟩
    · rw [Disk.breakOff_refused hnul hrefused]
      exact ⟨.fault rfl, d.tree, rfl, .blocked hdirectory⟩

/-- A quarantine file that was written is taken away. -/
theorem remove_answer (h : s.Roomy) (hname : IsHex 32 name)
    (hdir : d.tree.isDirectory (s.root.parts ++ [quarantineName]) = true)
    (hn : d.tree.node? (s.home ++ [quarantineName, name]) = some (.file content)) :
    Disk.answer (.remove (s.quarantined name)) d =
      (.ok (), { d with tree := d.tree.erase (s.home ++ [quarantineName, name]) }) := by
  rw [Disk.answer, Disk.change_eq d (noNul_quarantined (hname.plain (by decide)) h.noNul),
    Files.Tree.remove_eq (h.resolve_quarantined hname hdir), hn]

/-- The quarantine file is taken away, if it is there. If a directory is in its place, it is refused
once more. -/
theorem remove_frame {outcome : Except Files.Fault Bool} (h : s.Roomy) (hname : IsHex 32 name)
    (hdigest : IsHex 64 digest) (hdir : d.tree.isDirectory (s.root.parts ++ [quarantineName]) = true)
    (hplaced : Placed s mishaps name digest content d.tree outcome t') :
    (DiskTalk.remove (s.quarantined name)).Always (DiskWorld mishaps) (fun _ _ => True)
      (fun reply d' => removeOutcome outcome reply = outcome ∧
        (∀ fault, reply = .error fault → fault.isNotFound = false → outcome = .error fault) ∧
        Framed s mishaps (s.Fails mishaps) digest content d.tree d'.tree outcome)
      { d with tree := t' } := by
  have hqne : s.home ++ [quarantineName, name] ≠ [] := place_ne
  refine answered_always rfl ?_
  cases hplaced with
  | blocked hdirectory =>
    rw [Disk.answer, Disk.change_eq _ (noNul_quarantined (hname.plain (by decide)) h.noNul),
      Files.Tree.remove_eq (h.resolve_quarantined hname hdir), hdirectory]
    exact ⟨rfl, fun _ he _ => (by cases he; rfl), .failed (.refused _ _) rfl⟩
  | unwritten hm hfree =>
    rw [Disk.answer, Disk.change_eq _ (noNul_quarantined (hname.plain (by decide)) h.noNul),
      Files.Tree.remove_eq (h.resolve_quarantined hname hdir), hfree]
    exact ⟨rfl, fun _ he hthere => (by cases he; cases hthere), .failed (.mishap hm) rfl⟩
  | unlinked hfails hfree =>
    rw [remove_answer h hname ((keeps_written _ hfree).isDirectory hdir) (Files.Tree.node?_set_self hqne _)]
    exact ⟨rfl, fun _ he _ => (by cases he),
      .failed hfails (Files.Tree.files_congr (node?_erase_set _ hfree))⟩
  | present hthere hfree =>
    have hsame := node?_erase_set content hfree
    rw [remove_answer h hname ((keeps_written content hfree).isDirectory hdir) (Files.Tree.node?_set_self hqne _)]
    refine ⟨rfl, fun _ he _ => (by cases he),
      .found (hthere.imp_left ?_) (Files.Tree.files_congr hsame)⟩
    rintro ⟨node, hn⟩
    exact ⟨node, by rw [hsame, hn]⟩
  | linked hnone hfree =>
    have hkeeps := (keeps_written content hfree).trans (keeps_linked name content hdigest hnone)
    rw [remove_answer h hname (hkeeps.isDirectory hdir) (node?_linked name content hdigest d.tree)]
    have hnew := Files.Tree.files_update (node?_erase_linked content hdigest hfree)
    refine ⟨rfl, fun _ he _ => (by cases he), .created ?_ hnew⟩
    rw [Files.Tree.files, hnone]
    rfl

/-! ## A commit -/

/-- Both directories are made, if they can be, and then the object. No file may bear the next name in
the quarantine; a directory may. A root that is no path is refused when the first directory is to be
made. -/
theorem publish_frame {spool : Spool} (hroot : s.root.hasNul = true ∨ s.Roomy) (hdigest : IsHex 64 digest)
    (hmay : ∀ m, d.MayMeet m → mishaps m) (hhex : IsHex 32 (d.names d.named))
    (hvacant : d.tree.node? (s.home ++ [quarantineName, d.names d.named]) = none ∨
      d.tree.node? (s.home ++ [quarantineName, d.names d.named]) = some .directory) :
    (s.publish (s.pathOf digest) spool).Tells (DiskWorld mishaps)
      (fun told value d' => Explains told value ∧
        Framed s mishaps (s.Fails mishaps) digest spool.content d.tree d'.tree value) d := by
  rw [publish, pathOf_parent hdigest, quarantine_eq]
  refine Dialogue.Tells.bind (Dialogue.Tells.asked (DiskRequest.makeDirectories _) ?_)
  rcases hroot with hnul | h
  · have hpath := (hasNul_child (s := s) ((isHex_shard hdigest).plain (by decide))).trans hnul
    refine answered_always rfl ?_
    simp only [Disk.answer, hpath, if_true]
    exact ⟨.fault rfl, .failed (.noPath hnul) rfl⟩
  refine makeDirectories_frame h ((isHex_shard hdigest).plain (by decide)) (fun t' hgrown _ => ?_)
    fun t' refusal paths hgrown => ⟨.fault rfl, .failed (.refused refusal paths) hgrown.files_eq⟩
  refine Dialogue.Tells.bind (Dialogue.Tells.asked (DiskRequest.makeDirectories _) ?_)
  refine makeDirectories_frame h plain_quarantine (fun t'' hgrown' hdir => ?_)
    fun t'' refusal paths hgrown' => ⟨.quiet rfl (.fault rfl),
      .failed (.refused refusal paths) (hgrown'.files_eq.trans hgrown.files_eq)⟩
  refine Dialogue.Tells.bind (Dialogue.Tells.asked DiskRequest.freshName (answered_always rfl ?_))
  -- On the way to the root itself a directory of the same name may have been made.
  have hnode := hgrown'.vacant (hgrown.vacant hvacant)
  have hpath : ({ s.root with parts := s.root.parts ++ [quarantineName] } : Path).join
      (d.names d.named) = s.quarantined (d.names d.named) :=
    Path.join_plain _ (hhex.plain (by decide))
  simp only [Disk.answer, hpath]
  refine Dialogue.Tells.bind ((linkThrough_placed (d := { d with tree := t'', named := d.named + 1 })
    h hhex hdigest hmay hdir hnode).imp ?_)
  rintro told outcome _ ⟨hexplains, written, rfl, hplaced⟩
  refine Dialogue.Tells.bind (Dialogue.Tells.asked (DiskRequest.remove _)
    ((remove_frame h hhex hdigest hdir hplaced).imp ?_))
  rintro reply d' ⟨houtcome, hfault, hframed⟩
  have hremoved : Explains (told ++ [⟨.remove (s.quarantined (d.names d.named)), reply⟩])
      (removeOutcome outcome reply) := by
    rw [houtcome]
    refine hexplains.snoc fun fault hmem => ?_
    obtain ⟨hreply, hthere⟩ := Option.mem_filter_iff.1 hmem
    exact hfault fault (mem_faultIn.1 hreply) (by simpa using hthere)
  have hframed : Framed s mishaps (s.Fails mishaps) digest spool.content d.tree d'.tree
      (removeOutcome outcome reply) := by
    rw [houtcome]
    exact hframed.since (hgrown'.files_eq.trans hgrown.files_eq)
  cases reply with
  | ok => exact ⟨.quiet rfl (.quiet rfl (.quiet rfl hremoved)), hframed⟩
  | error fault => exact ⟨.quiet rfl (.quiet rfl (.quiet rfl hremoved)), hframed⟩

/-- **The frame of a commit**, below any root. The file of the object is added, or all files are as they
were; and what fails, the disk has refused, or a mishap has stopped. -/
theorem commit_frame {spool : Spool} (hdigest : IsHex 64 digest) (hmay : ∀ m, d.MayMeet m → mishaps m)
    (hd : s.Unclaimed d) :
    (s.commit digest spool).Always (DiskWorld mishaps) (fun _ _ => True)
      (fun committed d' => Framed s mishaps (s.Reports mishaps digest d.tree) digest spool.content d.tree
        d'.tree committed.value) d := by
  refine Dialogue.Always.bind (answered_always rfl ?_)
  rcases holds_found hdigest d with ⟨fault, hanswer, hfault⟩ | ⟨hanswer, hroot⟩ | ⟨hanswer, hthere⟩
  · rw [hanswer]
    exact .failed (.unaddressed hfault) rfl
  · rw [hanswer]
    refine Dialogue.Always.bind (Dialogue.Tells.always
      ((publish_frame hroot hdigest hmay hd.hex (.inl hd.free)).imp ?_))
    rintro told value d' ⟨-, hframed⟩
    cases hframed with
    | created hnone hnew => exact .created hnone hnew
    | found hthere hsame => exact .found hthere hsame
    | failed hfails hsame =>
      rename_i fault
      show Dialogue.Always _ _ _ (if fault.isSystem then _ else _) d'
      split
      · rename_i hsystem
        exact .failed (.storage hfails hsystem) hsame
      · rename_i hsystem
        cases hfails with
        | refused => exact absurd rfl hsystem
        | mishap hm => exact .failed (.stray hm (Bool.eq_false_iff.2 hsystem)) hsame
        | noPath hnul => exact .failed (.unaddressed (.noPath hnul)) hsame
  · rw [hanswer]
    exact .found (.inl hthere) rfl

end FileStore

end UploadDepot.Store

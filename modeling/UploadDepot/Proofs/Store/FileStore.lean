/-
The store of files, of which a commit is walked through question by question.

Between two commits the inside of the root is `Tidy`: directories right under
it, and in them the objects, each under its digest. A commit keeps it so,
whatever the disk answers, and leaves the objects as `Commits` says. Where
the root can be made and paths are short enough (`Usable`), a disk without
mishaps refuses nothing.
-/
import UploadDepot.Proofs.Digest.Hex
import UploadDepot.Proofs.Files.Tree
import UploadDepot.Proofs.Store.Shelf
import UploadDepot.Store.FileStore

namespace UploadDepot.Store

open Files (Path Place Node)
open Files.Tree (leadsTo Keeps Grown)
open Sha256 (hexOf)

/-- The answers of a disk, on which a mishap may also break off a write, or come in place of a link. -/
inductive DiskWorld (mishaps : Mishap → Prop) : World DiskRequest DiskRequest.Reply Disk
  | answers (q : DiskRequest) (d : Disk) :
      DiskWorld mishaps q d (Disk.answer q d).1 (Disk.answer q d).2
  | writeBreaks {b : BrokenWrite} (path : Path) (content : Bytes) (d : Disk) :
      mishaps b.mishap → DiskWorld mishaps (.write path content) d (d.breakOff path content b).1
        (d.breakOff path content b).2
  | linkFails {m : Mishap} (path new : Path) (d : Disk) :
      mishaps m → DiskWorld mishaps (.link path new) d (.error (.mishap m)) d

/-- The answers of a disk without mishaps. -/
theorem exactly_disk (q : DiskRequest) (d : Disk) (reply : q.Reply) (d' : Disk)
    (h : Dialogue.exactly Disk.answer q d reply d') : DiskWorld (fun _ => False) q d reply d' := by
  obtain ⟨rfl, rfl⟩ : (Disk.answer q d).1 = reply ∧ (Disk.answer q d).2 = d' := Prod.ext_iff.1 h
  exact .answers q d

/-- Questions in whose place a mishap may come. -/
def DiskRequest.atRisk : DiskRequest → Bool
  | .write _ _ | .link _ _ => true
  | _ => false

namespace Disk

/-- Nothing goes wrong but what the tree refuses. -/
def Sound (d : Disk) : Prop := d.writeBreaks = none ∧ d.linkFails = none

/-- What may go wrong besides. -/
def MayMeet (d : Disk) (m : Mishap) : Prop :=
  (∃ b, d.writeBreaks = some b ∧ b.mishap = m) ∨ d.linkFails = some m

theorem change_eq (d : Disk) {paths : List Path} (hnul : paths.any Path.hasNul = false)
    (result : Except Files.Refusal (Files.Tree Bytes)) :
    d.change paths result =
      match result with
      | .ok tree => (.ok (), { d with tree })
      | .error refusal => (.error (.refused refusal paths), d) := by
  unfold change
  rw [hnul]
  rfl

theorem write_eq {d : Disk} (h : d.writeBreaks = none) (path : Path) (content : Bytes) :
    Disk.answer (.write path content) d = d.change [path] (d.tree.write path.parts content) := by
  simp only [answer, h]

theorem link_eq {d : Disk} (h : d.linkFails = none) (path new : Path) :
    Disk.answer (.link path new) d = d.change [path, new] (d.tree.link path.parts new.parts) := by
  simp only [answer, h]

/-- A write that is refused is not begun. -/
theorem breakOff_refused {d : Disk} {path : Path} {refusal : Files.Refusal}
    (hnul : [path].any Path.hasNul = false)
    (hwrite : ∀ part, d.tree.write path.parts part = .error refusal) (content : Bytes) (b : BrokenWrite) :
    d.breakOff path content b = (.error (.refused refusal [path]), d) := by
  rw [breakOff, change_eq d hnul, hwrite]

/-- Whether it would break off or not. -/
theorem write_refused {d : Disk} {path : Path} {refusal : Files.Refusal}
    (hnul : [path].any Path.hasNul = false)
    (hwrite : ∀ part, d.tree.write path.parts part = .error refusal) (content : Bytes) :
    Disk.answer (.write path content) d = (.error (.refused refusal [path]), d) := by
  cases hbreaks : d.writeBreaks with
  | none => rw [write_eq hbreaks, change_eq d hnul, hwrite]
  | some b => simp only [answer, hbreaks, breakOff_refused hnul hwrite]

/-- A write to a free place that breaks off leaves no file there, or a part of one. -/
theorem breakOff_free {d : Disk} {path : Path} {place : Place} (hnul : [path].any Path.hasNul = false)
    (hplace : d.tree.resolve path.parts = .ok place) (hfree : d.tree.node? place = none)
    (content : Bytes) (b : BrokenWrite) :
    ∃ tree, d.breakOff path content b = (.error (.mishap b.mishap), { d with tree }) ∧
      (tree = d.tree ∨ ∃ part, tree = d.tree.set place (.file part)) := by
  rw [breakOff, change_eq d hnul, Files.Tree.write_eq hplace, hfree]
  dsimp only
  split
  · exact ⟨_, rfl, .inr ⟨_, rfl⟩⟩
  · exact ⟨_, rfl, .inl rfl⟩

end Disk

/-! ## Names and places -/

/-- The name of the directory of a digest. -/
def shard (digest : String) : String := String.ofList (digest.toList.take 2)

/-- The place of the object of a digest, from the root on. -/
def slot (digest : String) : Place := [shard digest, digest]

theorem slot_injective {digest digest' : String} (h : slot digest = slot digest') :
    digest = digest' := by
  simp only [slot, List.cons.injEq, and_true] at h
  exact h.2

theorem isHex_shard {digest : String} (h : IsHex 64 digest) : IsHex 2 (shard digest) := h.take 2

theorem plain_quarantine : Files.Plain quarantineName := by
  refine ⟨?_, ?_, ?_, ?_, ?_⟩ <;> decide

theorem shard_ne_quarantine {digest : String} (h : IsHex 64 digest) :
    shard digest ≠ quarantineName := (isHex_shard h).ne (by decide)

namespace FileStore

variable {s : FileStore} {digest name : String} {t t' : Files.Tree Bytes} {rest : Place}

/-- The place of the root. -/
def home (s : FileStore) : Place := leadsTo [] s.root.parts

/-- The way to the root does not lead through the inside of the root. -/
def Straight (s : FileStore) : Prop :=
  ∀ above rest, above <+: s.root.parts → leadsTo [] above = s.home ++ rest → rest = []

theorem leadsTo_of_not_mem {start : Place} {names : List String} (h : ".." ∉ names) :
    leadsTo start names = start ++ names := by
  induction names generalizing start with
  | nil => exact (List.append_nil start).symm
  | cons name names ih =>
    rw [List.mem_cons, not_or] at h
    rw [leadsTo, if_neg (Ne.symm h.1), ih h.2, List.append_assoc]
    rfl

/-- A root without `..` in its path is straight. -/
theorem straight_of_not_mem (h : ".." ∉ s.root.parts) : s.Straight := by
  intro above rest habove hplace
  have hnot : ".." ∉ above := fun hm => h (habove.subset hm)
  rw [home, leadsTo_of_not_mem hnot, leadsTo_of_not_mem h, List.nil_append, List.nil_append] at hplace
  have hle := habove.length_le
  rw [hplace, List.length_append] at hle
  exact List.length_eq_zero_iff.1 (by omega)

theorem pathOf_eq (h : IsHex 64 digest) :
    s.pathOf digest = { s.root with parts := s.root.parts ++ [shard digest] ++ [digest] } := by
  rw [pathOf, ← shard, Path.join_plain _ ((isHex_shard h).plain (by decide)),
    Path.join_plain _ (h.plain (by decide))]

theorem pathOf_parent (h : IsHex 64 digest) :
    (s.pathOf digest).parent = { s.root with parts := s.root.parts ++ [shard digest] } := by
  rw [pathOf_eq h, Path.parent]
  simp only [List.dropLast_concat]

theorem hasNul_pathOf (h : IsHex 64 digest) : (s.pathOf digest).hasNul = s.root.hasNul := by
  rw [pathOf, ← shard, Path.hasNul_join _ (h.plain (by decide)),
    Path.hasNul_join _ ((isHex_shard h).plain (by decide))]

theorem hasNul_child (hname : Files.Plain name) :
    ({ s.root with parts := s.root.parts ++ [name] } : Path).hasNul = s.root.hasNul := by
  rw [← Path.join_plain _ hname, Path.hasNul_join _ hname]

theorem quarantine_eq :
    s.quarantine = { s.root with parts := s.root.parts ++ [quarantineName] } :=
  Path.join_plain _ plain_quarantine

theorem home_child (hname : name ≠ "..") : leadsTo [] (s.root.parts ++ [name]) = s.home ++ [name] :=
  Files.Tree.leadsTo_snoc _ _ hname

theorem leadsTo_pathOf (h : IsHex 64 digest) :
    leadsTo [] (s.pathOf digest).parts = s.home ++ slot digest := by
  rw [pathOf_eq h, Files.Tree.leadsTo_snoc _ _ (h.plain (by decide)).up,
    home_child ((isHex_shard h).plain (by decide)).up, List.append_assoc]
  rfl

/-! ## The inside of the root -/

/-- What belongs inside the root between commits: directories, and objects in them. -/
inductive Belongs (s : FileStore) (t : Files.Tree Bytes) : Place → Node Bytes → Prop
  | shard (name : String) : Belongs s t [name] .directory
  | object {data : Bytes} :
      t.resolve (s.pathOf (hexOf data)).parts = .ok (s.home ++ slot (hexOf data)) →
      Belongs s t (slot (hexOf data)) (.file data)

/-- Nothing is inside the root that does not belong there. -/
def Tidy (s : FileStore) (t : Files.Tree Bytes) : Prop :=
  ∀ rest node, rest ≠ [] → t.node? (s.home ++ rest) = some node → s.Belongs t rest node

theorem Belongs.keeps {node : Node Bytes} (h : s.Belongs t rest node) (hk : Keeps t t') :
    s.Belongs t' rest node := by
  cases h with
  | shard name => exact .shard name
  | object hr => exact .object (hk.resolve hr)

theorem Tidy.step (h : s.Tidy t) (hk : Keeps t t')
    (hnew : ∀ rest node, rest ≠ [] → t'.node? (s.home ++ rest) = some node →
      t.node? (s.home ++ rest) = some node ∨ s.Belongs t' rest node) : s.Tidy t' := by
  intro rest node hne hnode
  rcases hnew rest node hne hnode with hold | hbelongs
  · exact (h rest node hne hold).keeps hk
  · exact hbelongs

/-- Making a directory right under the root adds nothing else inside it. -/
theorem grown_inside (hs : s.Straight) (hname : name ≠ "..")
    (hg : Grown (s.root.parts ++ [name]) t t') (hrest : rest ≠ []) :
    t'.node? (s.home ++ rest) = t.node? (s.home ++ rest) ∨
      (rest = [name] ∧ t.node? (s.home ++ rest) = none ∧
        t'.node? (s.home ++ rest) = some .directory) := by
  rcases hg (s.home ++ rest) with hsame | ⟨hnone, hdir, above, habove, hplace⟩
  · exact .inl hsame
  · rcases List.prefix_concat_iff.1 habove with rfl | hpre
    · rw [home_child hname] at hplace
      exact .inr ⟨List.append_cancel_left hplace, hnone, hdir⟩
    · exact absurd (hs above rest hpre hplace.symm) hrest

/-- Directories made on the way to a directory right under the root. -/
theorem Tidy.grown (h : s.Tidy t) (hs : s.Straight) (hname : name ≠ "..")
    (hg : Grown (s.root.parts ++ [name]) t t') : s.Tidy t' := by
  refine h.step hg.keeps fun rest node hne hnode => ?_
  rcases grown_inside hs hname hg hne with hsame | ⟨rfl, _, hdir⟩
  · exact .inl (hsame ▸ hnode)
  · rw [hdir] at hnode
    cases hnode
    exact .inr (.shard name)

/-- The objects in a tree, by their places from the root on. What is in the quarantine is none. -/
def objectsIn (s : FileStore) (t : Files.Tree Bytes) : Place → Option Bytes
  | [] => none
  | top :: rest =>
    if top = quarantineName then none
    else
      match t.node? (s.home ++ top :: rest) with
      | some (.file content) => some content
      | _ => none

/-- The objects on a disk. -/
def objects (s : FileStore) (d : Disk) : Place → Option Bytes := s.objectsIn d.tree

theorem objectsIn_slot (h : IsHex 64 digest) (t : Files.Tree Bytes) :
    s.objectsIn t (slot digest) =
      match t.node? (s.home ++ slot digest) with
      | some (.file content) => some content
      | _ => none := if_neg (shard_ne_quarantine h)

/-- The node at the place of an object. -/
theorem objects_iff {data : Bytes} (h : IsHex 64 digest) (d : Disk) :
    s.objects d (slot digest) = some data ↔
      d.tree.node? (s.home ++ slot digest) = some (.file data) := by
  rw [objects, objectsIn_slot h]
  split
  · rename_i content hn
    rw [hn, Option.some.injEq, Option.some.injEq, Node.file.injEq]
  · rename_i hnot
    exact ⟨nofun, fun hn => absurd hn (hnot data)⟩

theorem objectsIn_grown {path : List String} (hg : Grown path t t') :
    s.objectsIn t' = s.objectsIn t := by
  funext place
  cases place with
  | nil => rfl
  | cons top rest =>
    rw [objectsIn, objectsIn]
    split
    · rfl
    rcases hg (s.home ++ top :: rest) with hsame | ⟨hnone, hdir, _⟩
    · rw [hsame]
    · rw [hnone, hdir]

theorem objectsIn_quarantine {n : Option (Node Bytes)}
    (h : t'.node? = Function.update t.node? (s.home ++ quarantineName :: rest) n) :
    s.objectsIn t' = s.objectsIn t := by
  funext place
  cases place with
  | nil => rfl
  | cons top below =>
    rw [objectsIn, objectsIn]
    by_cases htop : top = quarantineName
    · rw [if_pos htop, if_pos htop]
    · have hne : s.home ++ top :: below ≠ s.home ++ quarantineName :: rest := fun he =>
        htop (List.cons.inj (List.append_cancel_left he)).1
      rw [if_neg htop, if_neg htop, h, Function.update_of_ne hne]

theorem place_ne {top : String} : s.home ++ top :: rest ≠ [] :=
  List.append_ne_nil_of_right_ne_nil _ (List.cons_ne_nil _ _)

theorem objectsIn_set (h : IsHex 64 digest) (t : Files.Tree Bytes) (content : Bytes) :
    s.objectsIn (t.set (s.home ++ slot digest) (.file content)) =
      Function.update (s.objectsIn t) (slot digest) (some content) := by
  have hne : s.home ++ slot digest ≠ [] := place_ne
  funext place
  by_cases hp : place = slot digest
  · subst hp
    rw [objectsIn_slot h, Function.update_self, Files.Tree.node?_set hne, Function.update_self]
  rw [Function.update_of_ne hp]
  cases place with
  | nil => rfl
  | cons top below =>
    rw [objectsIn, objectsIn, Files.Tree.node?_set hne, Function.update_of_ne]
    exact fun he => hp (List.append_cancel_left he)

/-- Right under a tidy root there are directories only. -/
theorem Tidy.node?_child (h : s.Tidy t) {node : Node Bytes}
    (hn : t.node? (s.home ++ [name]) = some node) : node = .directory := by
  have hb := h [name] node (List.cons_ne_nil _ _) hn
  generalize hplace : [name] = place at hb
  cases hb with
  | shard => rfl
  | object => simp [slot] at hplace

/-- A tidy root has objects at their own places only. -/
theorem Tidy.node?_slot (h : s.Tidy t) {node : Node Bytes}
    (hn : t.node? (s.home ++ slot digest) = some node) :
    ∃ data, node = .file data ∧ digest = hexOf data := by
  have hb := h (slot digest) node (List.cons_ne_nil _ _) hn
  generalize hplace : slot digest = place at hb
  cases hb with
  | shard name => simp [slot] at hplace
  | object => exact ⟨_, rfl, slot_injective hplace⟩

theorem Tidy.node?_object (h : s.Tidy t) {node : Node Bytes}
    (hn : t.node? (s.home ++ slot digest) = some node) : ∃ data, node = .file data :=
  (h.node?_slot hn).imp fun _ => And.left

/-- An object is at the place of its digest. -/
theorem Tidy.objectsIn_slot (h : s.Tidy t) {data : Bytes}
    (hobject : s.objectsIn t (slot digest) = some data) :
    digest = hexOf data := by
  rw [slot, objectsIn] at hobject
  split at hobject
  · cases hobject
  split at hobject
  · rename_i hn
    obtain ⟨data', hfile, hdigest⟩ := h.node?_slot hn
    cases hfile
    cases hobject
    exact hdigest
  · cases hobject

/-- Nothing is in the quarantine of a tidy root. -/
theorem Tidy.node?_quarantine (h : s.Tidy t) (name : String) :
    t.node? (s.home ++ [quarantineName, name]) = none := by
  cases hn : t.node? (s.home ++ [quarantineName, name]) with
  | none => rfl
  | some node =>
    have hb := h [quarantineName, name] node (List.cons_ne_nil _ _) hn
    generalize hplace : [quarantineName, name] = place at hb
    cases hb with
    | shard name => simp at hplace
    | object =>
      simp only [slot, List.cons.injEq] at hplace
      exact absurd hplace.1.symm (shard_ne_quarantine (isHex_hexOf _))

/-! ## A root that can be used -/

/-- The root can be made, and the paths below it are short enough. -/
structure Usable (s : FileStore) (t : Files.Tree Bytes) : Prop where
  noNul : s.root.hasNul = false
  /-- There is room for the longest path, that of an object. -/
  short : Files.Tree.weight s.root.parts + 68 ≤ Files.Tree.pathLimit
  made : (t.makeDirectories s.root.parts).1 = .ok ()

theorem Usable.keeps (h : s.Usable t) (hdir : t'.isDirectory s.root.parts = true) : s.Usable t' :=
  ⟨h.noNul, h.short, by rw [Files.Tree.makeDirectories_of_isDirectory hdir]⟩

theorem Usable.makes (h : s.Usable t)
    (hchild : ∀ node, t.node? (s.home ++ [name]) = some node → node = .directory)
    (hname : Files.Plain name) (hsize : name.utf8ByteSize ≤ 11) :
    (t.makeDirectories (s.root.parts ++ [name])).1 = .ok () := by
  have hshort := h.short
  refine Files.Tree.makeDirectories_child h.made hname.up (hsize.trans (by decide)) ?_ ?_
  · rw [Files.Tree.weight_snoc]
    omega
  · cases hn : t.node? (s.home ++ [name]) with
    | none => exact .inl hn
    | some node => exact .inr (hchild node hn ▸ hn)

/-- The place of a path two steps below the root. -/
theorem resolve_within {top : String} (hdir : t.isDirectory (s.root.parts ++ [top]) = true)
    (htop : top ≠ "..") (hname : name ≠ "..") (hlen : name.utf8ByteSize ≤ Files.Tree.nameLimit)
    (hweight : Files.Tree.weight (s.root.parts ++ [top] ++ [name]) ≤ Files.Tree.pathLimit) :
    t.resolve (s.root.parts ++ [top] ++ [name]) = .ok (s.home ++ [top, name]) := by
  rw [Files.Tree.resolve_child hdir hname hlen hweight, home_child htop, List.append_assoc]
  rfl

/-- The place of a path two steps below the root, unless the path is too long. -/
theorem resolve_below {top : String} (hdir : t.isDirectory (s.root.parts ++ [top]) = true)
    (htop : top ≠ "..") (hname : name ≠ "..") (hlen : name.utf8ByteSize ≤ Files.Tree.nameLimit)
    (hsize : top.utf8ByteSize + name.utf8ByteSize ≤ 66) :
    t.resolve (s.root.parts ++ [top] ++ [name]) = .ok (s.home ++ [top, name]) ∨
      (t.resolve (s.root.parts ++ [top] ++ [name]) = .error .nameTooLong ∧ ¬ s.Usable t) := by
  by_cases hweight : Files.Tree.weight (s.root.parts ++ [top] ++ [name]) ≤ Files.Tree.pathLimit
  · exact .inl (resolve_within hdir htop hname hlen hweight)
  · right
    refine ⟨if_pos (Nat.not_le.1 hweight), fun hu => hweight ?_⟩
    have := hu.short
    rw [Files.Tree.weight_snoc, Files.Tree.weight_snoc]
    omega

/-- The path of an object can be followed, or something on its way is missing. -/
theorem Usable.resolve_pathOf (h : s.Usable t)
    (hparent : ∀ node, t.node? (s.home ++ [shard digest]) = some node → node = .directory)
    (hdigest : IsHex 64 digest) :
    t.resolve (s.pathOf digest).parts = .ok (s.home ++ slot digest) ∨
      t.resolve (s.pathOf digest).parts = .error .notFound := by
  have hshort := h.short
  have hshard := isHex_shard hdigest
  have hsize := hdigest.utf8ByteSize
  have hssize := hshard.utf8ByteSize
  have hplace := leadsTo_pathOf (s := s) hdigest
  have hweight : Files.Tree.weight (s.root.parts ++ [shard digest]) ≤ Files.Tree.pathLimit := by
    rw [Files.Tree.weight_snoc]
    omega
  rw [pathOf_eq hdigest] at hplace ⊢
  cases hr : t.resolve (s.root.parts ++ [shard digest] ++ [digest]) with
  | ok place =>
    rw [Files.Tree.resolve_leadsTo hr, hplace]
    exact .inl rfl
  | error e =>
    right
    rcases Files.Tree.resolve_child_error hr (hdigest.plain (by decide)).up (by rw [hsize]; decide)
      (by rw [Files.Tree.weight_snoc, Files.Tree.weight_snoc]; omega) with
      he | ⟨place, hok, ⟨content, hfile, _⟩ | rfl⟩
    · rcases Files.Tree.resolve_child_error he (hshard.plain (by decide)).up
        (by rw [hssize]; decide) hweight with he | ⟨place, hok, ⟨content, hfile, _⟩ | rfl⟩
      · rcases Files.Tree.resolve_of_makeDirectories h.made with hroot | ⟨_, hroot, _⟩
        · rw [hroot] at he
          cases he
          rfl
        · rw [hroot] at he
          cases he
      -- The root is no file, or it could not be made.
      · rcases Files.Tree.resolve_of_makeDirectories h.made with hroot | ⟨_, hroot, hnode⟩
        · rw [hroot] at hok
          cases hok
        · rw [hroot] at hok
          cases hok
          rcases hnode with hnode | hnode <;> cases hfile.symm.trans hnode
      · rfl
    -- Nor is what stands right under it.
    · have hchild := Files.Tree.resolve_leadsTo hok
      rw [home_child (hshard.plain (by decide)).up] at hchild
      cases hparent _ (hchild ▸ hfile)
    · rfl

/-! ## Questions to the disk -/

section Questions

variable {mishaps : Mishap → Prop} {G : Disk → Disk → Prop} {d : Disk}

/-- Between two commits. -/
structure Ready (s : FileStore) (d : Disk) : Prop where
  tidy : s.Tidy d.tree
  names : ∀ n, IsHex 32 (d.names n)
  sound : d.Sound

theorem always_answers {q : DiskRequest} {post : q.Reply → Disk → Prop}
    (hq : q.atRisk = false) (hg : G d (Disk.answer q d).2)
    (hpost : post (Disk.answer q d).1 (Disk.answer q d).2) :
    (Dialogue.ask q .done : DiskTalk q.Reply).Always (DiskWorld mishaps) G post d := by
  intro reply d' hw
  cases hw with
  | answers => exact ⟨hg, hpost⟩
  | writeBreaks => cases hq
  | linkFails => cases hq

theorem always_write {path : Path} {content : Bytes} {post : Except Files.Fault Unit → Disk → Prop}
    (hg : G d (Disk.answer (.write path content) d).2)
    (hpost : post (Disk.answer (.write path content) d).1 (Disk.answer (.write path content) d).2)
    (hbreaks : ∀ b : BrokenWrite, mishaps b.mishap → G d (d.breakOff path content b).2 ∧
      post (d.breakOff path content b).1 (d.breakOff path content b).2) :
    (DiskTalk.write path content).Always (DiskWorld mishaps) G post d := by
  intro reply d' hw
  cases hw with
  | answers => exact ⟨hg, hpost⟩
  | writeBreaks _ _ _ hm => exact hbreaks _ hm

theorem always_link {path new : Path} {post : Except Files.Fault Unit → Disk → Prop}
    (hg : G d (Disk.answer (.link path new) d).2)
    (hpost : post (Disk.answer (.link path new) d).1 (Disk.answer (.link path new) d).2)
    (hmishap : ∀ m, mishaps m → G d d ∧ post (.error (.mishap m)) d) :
    (DiskTalk.link path new).Always (DiskWorld mishaps) G post d := by
  intro reply d' hw
  cases hw with
  | answers => exact ⟨hg, hpost⟩
  | linkFails _ _ _ hm => exact hmishap _ hm

theorem look_snd (d : Disk) (path : Path) (result : Except Files.Refusal Bool) :
    (d.look path result).2 = d := by
  unfold Disk.look
  split
  · rfl
  · split <;> rfl

/-- Making a directory right under the root. -/
theorem makeDirectories_always {post : Except Files.Fault Unit → Disk → Prop}
    (hd : s.Ready d) (hs : s.Straight) (hname : Files.Plain name) (hsize : name.utf8ByteSize ≤ 11)
    (hg : ∀ t', s.objectsIn t' = s.objectsIn d.tree → G d { d with tree := t' })
    (hok : ∀ t', s.Tidy t' → s.objectsIn t' = s.objectsIn d.tree → Keeps d.tree t' →
      t'.isDirectory (s.root.parts ++ [name]) = true → s.root.hasNul = false →
      (s.Usable d.tree → s.Usable t') → post (.ok ()) { d with tree := t' })
    (herror : ∀ t' fault, s.Tidy t' → s.objectsIn t' = s.objectsIn d.tree → ¬ s.Usable d.tree →
      post (.error fault) { d with tree := t' }) :
    (DiskTalk.makeDirectories { s.root with parts := s.root.parts ++ [name] }).Always
      (DiskWorld mishaps) G post d := by
  have hnul := hasNul_child (s := s) hname
  obtain ⟨hgrown, hdir⟩ := Files.Tree.makeDirectories_grown d.tree (s.root.parts ++ [name])
  have htidy := hd.tidy.grown hs hname.up hgrown
  have hobjects := objectsIn_grown (s := s) hgrown
  cases hroot : s.root.hasNul with
  | true =>
    have hanswer : Disk.answer (.makeDirectories { s.root with parts := s.root.parts ++ [name] }) d =
        (.error .nulInPath, d) := if_pos (hnul.trans hroot)
    refine always_answers rfl ?_ ?_
    · rw [hanswer]
      exact hg d.tree rfl
    · rw [hanswer]
      exact herror d.tree _ hd.tidy rfl fun hu => by rw [hu.noNul] at hroot; cases hroot
  | false =>
    generalize hmade : d.tree.makeDirectories (s.root.parts ++ [name]) = made at hgrown hdir htidy hobjects
    obtain ⟨result, tree⟩ := made
    cases result with
    | ok =>
      have hanswer : Disk.answer (.makeDirectories { s.root with parts := s.root.parts ++ [name] }) d =
          (.ok (), { d with tree }) := by
        rw [Disk.answer, if_neg (by rw [hnul, hroot]; exact Bool.false_ne_true), hmade]
      have hdir := hdir rfl
      refine always_answers rfl ?_ ?_
      · rw [hanswer]
        exact hg tree hobjects
      · rw [hanswer]
        refine hok tree htidy hobjects hgrown.keeps hdir hroot fun hu => hu.keeps ?_
        obtain ⟨place, hr, _⟩ := Files.Tree.isDirectory_iff.1 hdir
        exact Files.Tree.isDirectory_of_child hr hname.up
    | error e =>
      have hanswer : Disk.answer (.makeDirectories { s.root with parts := s.root.parts ++ [name] }) d =
          (.error (.refused e.1 [{ s.root with parts := e.2 }]), { d with tree }) := by
        rw [Disk.answer, if_neg (by rw [hnul, hroot]; exact Bool.false_ne_true), hmade]
      refine always_answers rfl ?_ ?_
      · rw [hanswer]
        exact hg tree hobjects
      · rw [hanswer]
        refine herror tree _ htidy hobjects fun hu => ?_
        have := hu.makes (fun _ => hd.tidy.node?_child) hname hsize
        rw [hmade] at this
        cases this

/-! ## Writing and linking -/

/-- The path of a quarantine file. -/
def quarantined (s : FileStore) (name : String) : Path :=
  { s.root with parts := s.root.parts ++ [quarantineName] ++ [name] }

/-- What is at hand when both directories have been made. -/
structure Prepared (s : FileStore) (digest : String) (d : Disk) : Prop where
  ready : s.Ready d
  noNul : s.root.hasNul = false
  shard : d.tree.isDirectory (s.root.parts ++ [shard digest]) = true
  quarantine : d.tree.isDirectory (s.root.parts ++ [quarantineName]) = true

/-- What writing and linking have come to, and the tree then. -/
inductive Linked (s : FileStore) (mishaps : Mishap → Prop) (name digest : String) (content : Bytes)
    (t : Files.Tree Bytes) : Except Files.Fault Bool → Files.Tree Bytes → Prop
  | unfollowed {fault : Files.Fault} : ¬ s.Usable t →
      t.resolve (s.quarantined name).parts = .error .nameTooLong →
      Linked s mishaps name digest content t (.error fault) t
  | unwritten {m : Mishap} : mishaps m →
      t.resolve (s.quarantined name).parts = .ok (s.home ++ [quarantineName, name]) →
      Linked s mishaps name digest content t (.error (.mishap m)) t
  /-- The quarantine file may hold a part of the content only. -/
  | unlinked {fault : Files.Fault} {part : Bytes} : (s.Usable t → ∃ m, mishaps m) →
      t.resolve (s.quarantined name).parts = .ok (s.home ++ [quarantineName, name]) →
      Linked s mishaps name digest content t (.error fault)
        (t.set (s.home ++ [quarantineName, name]) (.file part))
  | present {old : Bytes} : t.node? (s.home ++ slot digest) = some (.file old) →
      t.resolve (s.quarantined name).parts = .ok (s.home ++ [quarantineName, name]) →
      Linked s mishaps name digest content t (.ok false)
        (t.set (s.home ++ [quarantineName, name]) (.file content))
  | created : t.node? (s.home ++ slot digest) = none →
      t.resolve (s.quarantined name).parts = .ok (s.home ++ [quarantineName, name]) →
      Files.Tree.resolve (t.set (s.home ++ [quarantineName, name]) (.file content))
        (s.pathOf digest).parts = .ok (s.home ++ slot digest) →
      Linked s mishaps name digest content t (.ok true)
        (Table.set (t.set (s.home ++ [quarantineName, name]) (.file content))
          (s.home ++ slot digest) (.file content))

theorem quarantined_eq (hname : Files.Plain name) : s.quarantine.join name = s.quarantined name := by
  rw [quarantine_eq, Path.join_plain _ hname]
  rfl

theorem noNul_quarantined (hname : Files.Plain name) (h : s.root.hasNul = false) :
    [s.quarantined name].any Path.hasNul = false := by
  rw [List.any_cons, List.any_nil, Bool.or_false, ← quarantined_eq hname, quarantine,
    Path.hasNul_join _ hname, Path.hasNul_join _ plain_quarantine, h]

theorem noNul_link (hname : Files.Plain name) (hdigest : IsHex 64 digest)
    (h : s.root.hasNul = false) :
    [s.quarantined name, s.pathOf digest].any Path.hasNul = false := by
  have hquarantined := noNul_quarantined hname h
  simp only [List.any_cons, List.any_nil, Bool.or_false] at hquarantined ⊢
  rw [hquarantined, hasNul_pathOf hdigest, h, Bool.or_false]

theorem slot_ne_quarantine (s : FileStore) (name : String) (h : IsHex 64 digest) :
    s.home ++ slot digest ≠ s.home ++ [quarantineName, name] := by
  intro he
  have := (List.cons.inj (List.append_cancel_left he)).1
  exact shard_ne_quarantine h this

theorem resolve_quarantined (hdir : t.isDirectory (s.root.parts ++ [quarantineName]) = true)
    (hname : IsHex 32 name) :
    t.resolve (s.quarantined name).parts = .ok (s.home ++ [quarantineName, name]) ∨
      (t.resolve (s.quarantined name).parts = .error .nameTooLong ∧ ¬ s.Usable t) := by
  have hsize := hname.utf8ByteSize
  have hq : quarantineName.utf8ByteSize = 11 := by decide
  exact resolve_below hdir plain_quarantine.up (hname.plain (by decide)).up (by rw [hsize]; decide)
    (by omega)

theorem resolve_pathOf (hdir : t.isDirectory (s.root.parts ++ [shard digest]) = true)
    (hdigest : IsHex 64 digest) :
    t.resolve (s.pathOf digest).parts = .ok (s.home ++ slot digest) ∨
      (t.resolve (s.pathOf digest).parts = .error .nameTooLong ∧ ¬ s.Usable t) := by
  have hsize := hdigest.utf8ByteSize
  have hshard := (isHex_shard hdigest).utf8ByteSize
  rw [pathOf_eq hdigest]
  exact resolve_below hdir ((isHex_shard hdigest).plain (by decide)).up
    (hdigest.plain (by decide)).up (by rw [hsize]; decide) (by omega)

theorem Usable.of_child {top : String} (h : s.Usable t) (htop : Files.Plain top)
    (hdir : t'.isDirectory (s.root.parts ++ [top]) = true) : s.Usable t' := by
  obtain ⟨place, hr, _⟩ := Files.Tree.isDirectory_iff.1 hdir
  exact h.keeps (Files.Tree.isDirectory_of_child hr htop.up)

theorem keeps_written (content : Bytes) (hfree : t.node? (s.home ++ [quarantineName, name]) = none) :
    Keeps t (t.set (s.home ++ [quarantineName, name]) (.file content)) :=
  Files.Tree.keeps_set (by simp [hfree])

/-- What a link says of the object. -/
def linkOutcome : Except Files.Fault Unit → Except Files.Fault Bool
  | .ok () => .ok true
  | .error fault => if fault.isAlreadyThere then .ok false else .error fault

/-- A new object is all that is added. -/
theorem grows_object {content : Bytes} {written : Files.Tree Bytes} (hdigest : digest = hexOf content)
    (hbefore : s.objectsIn written (slot digest) = none) :
    Grows s.objects slot (· = content) { d with tree := written }
      { d with tree := Table.set written (s.home ++ slot digest) (.file content) } := by
  have hhex : IsHex 64 digest := hdigest ▸ isHex_hexOf _
  intro k
  show s.objectsIn (Table.set written _ _) k = s.objectsIn written k ∨ _
  by_cases hk : k = slot digest
  · subst hk
    refine .inr ⟨hbefore, content, ?_, hdigest ▸ rfl, rfl⟩
    show s.objectsIn (Table.set written _ _) _ = _
    rw [objectsIn_set hhex, Function.update_self]
  · rw [objectsIn_set hhex, Function.update_of_ne hk]
    exact .inl rfl

/-- A link that was answered, or that failed with a mishap. -/
theorem link_answered {path new : Path} {content : Bytes} {written : Files.Tree Bytes}
    {reply : Except Files.Fault Unit}
    (hanswer : Disk.answer (.link path new) { d with tree := written } = (reply, { d with tree := t' }))
    (hgrows : Grows s.objects slot (· = content) { d with tree := written } { d with tree := t' })
    (hlinked : Linked s mishaps name digest content d.tree (linkOutcome reply) t')
    (hmishap : ∀ m, mishaps m →
      Linked s mishaps name digest content d.tree (linkOutcome (.error (.mishap m))) written) :
    (DiskTalk.link path new).Always (DiskWorld mishaps) (Grows s.objects slot (· = content))
      (fun reply d' => ∃ t', d' = { d with tree := t' } ∧
        Linked s mishaps name digest content d.tree (linkOutcome reply) t')
      { d with tree := written } := by
  refine always_link ?_ ?_ fun m hmm => ⟨Grows.refl _, written, rfl, hmishap m hmm⟩
  · rw [hanswer]
    exact hgrows
  · rw [hanswer]
    exact ⟨t', rfl, hlinked⟩

/-- The link, after the quarantine file has been written. -/
theorem link_always {spool : Spool} {written : Files.Tree Bytes} (hp : s.Prepared digest d)
    (hname : IsHex 32 name) (hdigest : digest = hexOf spool.content)
    (hm : ∀ m, mishaps m → m.kind ≠ .alreadyThere)
    (hplace : d.tree.resolve (s.quarantined name).parts = .ok (s.home ++ [quarantineName, name]))
    (hwritten : written = d.tree.set (s.home ++ [quarantineName, name]) (.file spool.content)) :
    (DiskTalk.link (s.quarantined name) (s.pathOf digest)).Always (DiskWorld mishaps)
      (Grows s.objects slot (· = spool.content))
      (fun reply d' => ∃ t', d' = { d with tree := t' } ∧
        Linked s mishaps name digest spool.content d.tree (linkOutcome reply) t')
      { d with tree := written } := by
  have hhex : IsHex 64 digest := hdigest ▸ isHex_hexOf _
  have hnul := noNul_link (hname.plain (by decide)) hhex hp.noNul
  have hkeeps : Keeps d.tree written := hwritten ▸ keeps_written _ (hp.ready.tidy.node?_quarantine name)
  have hnode : Files.Tree.node? written = Function.update d.tree.node?
      (s.home ++ [quarantineName, name]) (some (.file spool.content)) :=
    hwritten ▸ Files.Tree.node?_set place_ne _
  have hread : Files.Tree.read written (s.quarantined name).parts = .ok spool.content := by
    rw [Files.Tree.read_eq (hkeeps.resolve hplace), hnode, Function.update_self]
  have hother : Files.Tree.node? written (s.home ++ slot digest) = d.tree.node? (s.home ++ slot digest) := by
    rw [hnode, Function.update_of_ne (slot_ne_quarantine s name hhex)]
  have hanswer : Disk.answer (.link (s.quarantined name) (s.pathOf digest)) { d with tree := written } =
      ({ d with tree := written } : Disk).change [s.quarantined name, s.pathOf digest]
        (Files.Tree.link written (s.quarantined name).parts (s.pathOf digest).parts) :=
    Disk.link_eq (d := { d with tree := written }) hp.ready.sound.2 _ _
  have hmishap : ∀ m, mishaps m →
      Linked s mishaps name digest spool.content d.tree (linkOutcome (.error (.mishap m))) written := by
    intro m hmm
    have hnot : (Files.Fault.mishap m).isAlreadyThere = false := decide_eq_false (hm m hmm)
    rw [linkOutcome, hnot, hwritten]
    exact .unlinked (fun _ => ⟨m, hmm⟩) hplace
  rw [Disk.change_eq _ hnul] at hanswer
  rcases resolve_pathOf (hkeeps.isDirectory hp.shard) hhex with hfinal | ⟨hlong, hunusable⟩
  case inr =>
    have hlink : Files.Tree.link written (s.quarantined name).parts (s.pathOf digest).parts =
        .error .nameTooLong := by
      rw [Files.Tree.link, hread, hlong]
      rfl
    rw [hlink] at hanswer
    refine link_answered hanswer (Grows.refl _) ?_ hmishap
    show Linked s mishaps name digest spool.content d.tree (.error _) written
    rw [hwritten]
    refine .unlinked (fun hu => absurd (hu.of_child plain_quarantine ?_) hunusable) hplace
    exact hkeeps.isDirectory hp.quarantine
  rw [Files.Tree.link_eq hread hfinal, hother] at hanswer
  cases hn : d.tree.node? (s.home ++ slot digest) with
  | some node =>
    obtain ⟨old, rfl, _⟩ := hp.ready.tidy.node?_slot hn
    simp only [hn, Option.isSome_some, if_true] at hanswer
    refine link_answered hanswer (Grows.refl _) ?_ hmishap
    show Linked s mishaps name digest spool.content d.tree (.ok false) written
    rw [hwritten]
    exact .present hn hplace
  | none =>
    simp only [hn, Option.isSome_none, Bool.false_eq_true, if_false] at hanswer
    have hbefore : s.objectsIn written (slot digest) = none := by
      rw [objectsIn_slot hhex, hother, hn]
    refine link_answered hanswer (grows_object hdigest hbefore) ?_ hmishap
    show Linked s mishaps name digest spool.content d.tree (.ok true) (Table.set written _ _)
    rw [hwritten] at hfinal ⊢
    exact .created hn hplace hfinal

theorem linkThrough_always {spool : Spool} (hp : s.Prepared digest d) (hname : IsHex 32 name)
    (hdigest : digest = hexOf spool.content) (hm : ∀ m, mishaps m → m.kind ≠ .alreadyThere) :
    (linkThrough (s.quarantined name) (s.pathOf digest) spool).Always (DiskWorld mishaps)
      (Grows s.objects slot (· = spool.content))
      (fun outcome d' => ∃ t', d' = { d with tree := t' } ∧
        Linked s mishaps name digest spool.content d.tree outcome t') d := by
  have hnul := noNul_quarantined (hname.plain (by decide)) hp.noNul
  refine Dialogue.Always.bind ?_
  rcases resolve_quarantined hp.quarantine hname with hplace | ⟨hlong, hunusable⟩
  · have hfree := hp.ready.tidy.node?_quarantine name
    have hanswer : Disk.answer (.write (s.quarantined name) spool.rewind.rest) d =
        (.ok (), { d with
          tree := d.tree.set (s.home ++ [quarantineName, name]) (.file spool.content) }) := by
      rw [Disk.write_eq hp.ready.sound.1, Disk.change_eq d hnul, Files.Tree.write_eq hplace, hfree]
      rfl
    refine always_write ?_ ?_ fun b hb => ?_
    · rw [hanswer]
      exact Grows.same (objectsIn_quarantine (Files.Tree.node?_set place_ne _))
    · rw [hanswer]
      refine Dialogue.Always.bind ((link_always hp hname hdigest hm hplace rfl).imp ?_)
      rintro (fault | _) d' ⟨t', hd', hlinked⟩
      · exact ⟨t', hd', hlinked⟩
      · exact ⟨t', hd', hlinked⟩
    · obtain ⟨t', hbroken, rfl | ⟨part, rfl⟩⟩ := Disk.breakOff_free hnul hplace hfree spool.rewind.rest b
      · rw [hbroken]
        exact ⟨Grows.refl d, d.tree, rfl, .unwritten hb hplace⟩
      · rw [hbroken]
        exact ⟨Grows.same (objectsIn_quarantine (Files.Tree.node?_set place_ne _)), _, rfl,
          .unlinked (fun _ => ⟨_, hb⟩) hplace⟩
  · have hrefused : ∀ part, d.tree.write (s.quarantined name).parts part = .error .nameTooLong := by
      intro part
      rw [Files.Tree.write, hlong]
      rfl
    refine always_write ?_ ?_ fun b _ => ?_
    · rw [Disk.write_refused hnul hrefused]
      exact Grows.refl d
    · rw [Disk.write_refused hnul hrefused]
      exact ⟨d.tree, rfl, .unfollowed hunusable hlong⟩
    · rw [Disk.breakOff_refused hnul hrefused]
      exact ⟨Grows.refl d, d.tree, rfl, .unfollowed hunusable hlong⟩

/-! ## A commit -/

/-- What is known after a commit that began on a disk. -/
structure Committed (s : FileStore) (mishaps : Mishap → Prop) {ε : Type} (content : Bytes)
    (d : Disk) (value : Except ε Bool) (d' : Disk) : Prop where
  ready : s.Ready d'
  usable : s.Usable d.tree → s.Usable d'.tree
  /-- Only a mishap, or a root that is of no use, makes a commit fail. -/
  succeeds : s.Usable d.tree → (∀ m, ¬ mishaps m) → ∃ created, value = .ok created
  commits : Commits (s.objects d) (s.objects d') (slot (hexOf content)) content value

/-- A commit that goes on from a disk with the same objects. -/
theorem Committed.since {ε : Type} {content : Bytes} {value : Except ε Bool} {d d' d'' : Disk}
    (h : Committed s mishaps content d' value d'') (hobjects : s.objects d' = s.objects d)
    (husable : s.Usable d.tree → s.Usable d'.tree) : Committed s mishaps content d value d'' :=
  ⟨h.ready, fun hu => h.usable (husable hu), fun hu => h.succeeds (husable hu),
    hobjects ▸ h.commits⟩

theorem Committed.error {ε ε' : Type} {content : Bytes} {fault : ε} {fault' : ε'} {d d' : Disk}
    (h : Committed s mishaps content d (.error fault : Except ε Bool) d') :
    Committed s mishaps content d (.error fault' : Except ε' Bool) d' :=
  ⟨h.ready, h.usable, fun hu hnone => (nomatch h.succeeds hu hnone), h.commits.error⟩

theorem Committed.ok {ε ε' : Type} {content : Bytes} {created : Bool} {d d' : Disk}
    (h : Committed s mishaps content d (.ok created : Except ε Bool) d') :
    Committed s mishaps content d (.ok created : Except ε' Bool) d' :=
  ⟨h.ready, h.usable, fun _ _ => ⟨created, rfl⟩, h.commits.ok⟩

/-- A tree with all the nodes it had when the directories were made. -/
theorem Prepared.restored (hp : s.Prepared digest d) (hnode : t'.node? = d.tree.node?) :
    s.Ready { d with tree := t' } ∧ (s.Usable d.tree → s.Usable t') ∧
      s.objectsIn t' = s.objectsIn d.tree := by
  have hkeeps : Keeps d.tree t' := fun p hdir => by rw [hnode, hdir]
  refine ⟨⟨?_, hp.ready.names, hp.ready.sound⟩, fun hu => ?_, ?_⟩
  · exact hp.ready.tidy.step hkeeps fun _ _ _ hn => .inl (by rw [← hnode, hn])
  · exact hu.of_child plain_quarantine (hkeeps.isDirectory hp.quarantine)
  · funext place
    cases place with
    | nil => rfl
    | cons top below => rw [objectsIn, objectsIn, hnode]

/-- A tree with one object more. -/
theorem Prepared.extended {content : Bytes} (hp : s.Prepared digest d) (hdigest : digest = hexOf content)
    (hfree : d.tree.node? (s.home ++ slot digest) = none)
    (hresolve : t'.resolve (s.pathOf digest).parts = .ok (s.home ++ slot digest))
    (hnode : t'.node? = Function.update d.tree.node? (s.home ++ slot digest) (some (.file content))) :
    s.Ready { d with tree := t' } ∧ (s.Usable d.tree → s.Usable t') ∧
      s.objectsIn t' = Function.update (s.objectsIn d.tree) (slot digest) (some content) := by
  have hhex : IsHex 64 digest := hdigest ▸ isHex_hexOf content
  have hkeeps : Keeps d.tree t' := by
    intro p hdir
    have hne : p ≠ s.home ++ slot digest := by
      intro he
      rw [he, hfree] at hdir
      cases hdir
    rw [hnode, Function.update_of_ne hne, hdir]
  have hset : t'.node? = Files.Tree.node? (d.tree.set (s.home ++ slot digest) (.file content)) := by
    have hne : s.home ++ slot digest ≠ [] := place_ne
    rw [hnode, Files.Tree.node?_set hne]
  refine ⟨⟨?_, hp.ready.names, hp.ready.sound⟩, fun hu => ?_, ?_⟩
  · refine hp.ready.tidy.step hkeeps fun rest node _ hn => ?_
    rw [hnode] at hn
    by_cases hplace : rest = slot digest
    · subst hplace
      rw [Function.update_self] at hn
      cases hn
      rw [hdigest] at hresolve ⊢
      exact .inr (.object hresolve)
    · rw [Function.update_of_ne fun he => hplace (List.append_cancel_left he)] at hn
      exact .inl hn
  · exact hu.of_child plain_quarantine (hkeeps.isDirectory hp.quarantine)
  · rw [← objectsIn_set hhex]
    funext place
    cases place with
    | nil => rfl
    | cons top below => rw [objectsIn, objectsIn, hset]

/-- What the removal of the quarantine file leaves of an outcome. -/
def removeOutcome (outcome : Except Files.Fault Bool) : Except Files.Fault Unit → Except Files.Fault Bool
  | .ok () => outcome
  | .error fault => if fault.isNotFound then outcome else .error fault

/-- A quarantine file that was written, or a part of it, is there to be removed. -/
theorem remove_written {content part : Bytes} {outcome : Except Files.Fault Bool}
    (hp : s.Prepared digest d) (hname : IsHex 32 name) (hk : Keeps d.tree t')
    (hplace : d.tree.resolve (s.quarantined name).parts = .ok (s.home ++ [quarantineName, name]))
    (hn : t'.node? (s.home ++ [quarantineName, name]) = some (.file part))
    (hc : Committed s mishaps content d outcome
      { d with tree := t'.erase (s.home ++ [quarantineName, name]) }) :
    (DiskTalk.remove (s.quarantined name)).Always (DiskWorld mishaps)
      (Grows s.objects slot (· = content))
      (fun reply d' => Committed s mishaps content d (removeOutcome outcome reply) d')
      { d with tree := t' } := by
  have hnul := noNul_quarantined (hname.plain (by decide)) hp.noNul
  have hanswer : Disk.answer (.remove (s.quarantined name)) { d with tree := t' } =
      (.ok (), { d with tree := t'.erase (s.home ++ [quarantineName, name]) }) := by
    rw [Disk.answer, Disk.change_eq _ hnul, Files.Tree.remove_eq (hk.resolve hplace), hn]
  refine always_answers rfl ?_ ?_
  · rw [hanswer]
    exact Grows.same (objectsIn_quarantine (Files.Tree.node?_erase place_ne))
  · rw [hanswer]
    exact hc

/-- The tree with a quarantine file and the object made of it. -/
def linked (s : FileStore) (name digest : String) (content : Bytes) (t : Files.Tree Bytes) :
    Files.Tree Bytes :=
  Table.set (t.set (s.home ++ [quarantineName, name]) (.file content)) (s.home ++ slot digest)
    (.file content)

theorem keeps_linked (name : String) (content : Bytes) (hdigest : IsHex 64 digest)
    (hnone : t.node? (s.home ++ slot digest) = none) :
    Keeps (t.set (s.home ++ [quarantineName, name]) (.file content)) (s.linked name digest content t) := by
  refine Files.Tree.keeps_set ?_
  rw [Files.Tree.node?_set_other (slot_ne_quarantine s name hdigest), hnone]
  simp

theorem node?_linked (name : String) (content : Bytes) (hdigest : IsHex 64 digest) (t : Files.Tree Bytes) :
    (s.linked name digest content t).node? (s.home ++ [quarantineName, name]) = some (.file content) := by
  rw [linked, Files.Tree.node?_set_other (slot_ne_quarantine s name hdigest).symm,
    Files.Tree.node?_set_self place_ne]

/-- What was written and taken away again leaves every node as it was. -/
theorem node?_erase_set (content : Bytes) (hfree : t.node? (s.home ++ [quarantineName, name]) = none) :
    Files.Tree.node? (Table.erase (t.set (s.home ++ [quarantineName, name]) (.file content))
      (s.home ++ [quarantineName, name])) = t.node? := by
  have hne : s.home ++ [quarantineName, name] ≠ [] := place_ne
  rw [Files.Tree.node?_erase hne, Files.Tree.node?_set hne, Function.update_idem, ← hfree,
    Function.update_eq_self]

/-- Of an object that was linked, and its quarantine file taken away, the object stays. -/
theorem node?_erase_linked (content : Bytes) (hdigest : IsHex 64 digest)
    (hfree : t.node? (s.home ++ [quarantineName, name]) = none) :
    Files.Tree.node? (Table.erase (s.linked name digest content t) (s.home ++ [quarantineName, name])) =
      Function.update t.node? (s.home ++ slot digest) (some (.file content)) := by
  have hqne : s.home ++ [quarantineName, name] ≠ [] := place_ne
  have hfne : s.home ++ slot digest ≠ [] := place_ne
  rw [linked, Files.Tree.node?_erase hqne, Files.Tree.node?_set hfne, Files.Tree.node?_set hqne,
    Function.update_comm (slot_ne_quarantine s name hdigest), Function.update_idem, ← hfree,
    Function.update_eq_self]

/-- After an object was made, and its quarantine file removed. -/
theorem Prepared.committed {content : Bytes} (hp : s.Prepared digest d) (hdigest : digest = hexOf content)
    (hnone : d.tree.node? (s.home ++ slot digest) = none)
    (hresolve : (s.linked name digest content d.tree).resolve (s.pathOf digest).parts =
      .ok (s.home ++ slot digest))
    (hthere : (s.linked name digest content d.tree).node? (s.home ++ [quarantineName, name]) =
      some (.file content)) :
    Committed s mishaps content d (.ok true : Except Files.Fault Bool)
      { d with tree := (s.linked name digest content d.tree).erase (s.home ++ [quarantineName, name]) } := by
  have hhex : IsHex 64 digest := hdigest ▸ isHex_hexOf _
  have hnode := node?_erase_linked content hhex (hp.ready.tidy.node?_quarantine name)
  have hkeeps := Files.Tree.keeps_erase (by rw [hthere]; nofun :
    (s.linked name digest content d.tree).node? (s.home ++ [quarantineName, name]) ≠ some .directory)
  obtain ⟨hready, husable, hobjects⟩ := hp.extended hdigest hnone (hkeeps.resolve hresolve) hnode
  refine ⟨hready, husable, fun _ _ => ⟨true, rfl⟩, ?_⟩
  rw [← hdigest]
  refine .created ?_ ?_ ?_
  · show s.objectsIn d.tree (slot digest) = none
    rw [objectsIn_slot hhex, hnone]
  · show s.objectsIn _ (slot digest) = _
    rw [hobjects, Function.update_self]
  · intro place hplace
    show s.objectsIn _ place = s.objectsIn d.tree place
    rw [hobjects, Function.update_of_ne hplace]

/-- The quarantine file is removed, if it was written. -/
theorem remove_always {spool : Spool} {outcome : Except Files.Fault Bool}
    (hp : s.Prepared digest d) (hname : IsHex 32 name) (hdigest : digest = hexOf spool.content)
    (hl : Linked s mishaps name digest spool.content d.tree outcome t') :
    (DiskTalk.remove (s.quarantined name)).Always (DiskWorld mishaps)
      (Grows s.objects slot (· = spool.content))
      (fun reply d' => Committed s mishaps spool.content d (removeOutcome outcome reply) d')
      { d with tree := t' } := by
  have hhex : IsHex 64 digest := hdigest ▸ isHex_hexOf _
  have hfree := hp.ready.tidy.node?_quarantine name
  have hqne : s.home ++ [quarantineName, name] ≠ [] := place_ne
  have hnul := noNul_quarantined (hname.plain (by decide)) hp.noNul
  have hwritten (part : Bytes) := keeps_written (s := s) part hfree
  have hsame (part : Bytes) := node?_erase_set (s := s) part hfree
  cases hl with
  | unfollowed hunusable hlong =>
    have hanswer : Disk.answer (.remove (s.quarantined name)) d =
        (.error (.refused .nameTooLong [s.quarantined name]), d) := by
      rw [Disk.answer, Disk.change_eq _ hnul, Files.Tree.remove, hlong]
      rfl
    refine always_answers rfl ?_ ?_
    · rw [hanswer]
      exact Grows.refl d
    · rw [hanswer]
      exact ⟨hp.ready, id, fun hu => absurd hu hunusable, .failed rfl⟩
  | unwritten hmm hplace =>
    have hanswer : Disk.answer (.remove (s.quarantined name)) d =
        (.error (.refused .notFound [s.quarantined name]), d) := by
      rw [Disk.answer, Disk.change_eq _ hnul, Files.Tree.remove_eq hplace, hfree]
    refine always_answers rfl ?_ ?_
    · rw [hanswer]
      exact Grows.refl d
    · rw [hanswer]
      exact ⟨hp.ready, id, fun _ hnone => absurd hmm (hnone _), .failed rfl⟩
  | unlinked hfault hplace =>
    obtain ⟨hready, husable, hobjects⟩ := hp.restored (hsame _)
    refine remove_written hp hname (hwritten _) hplace (Files.Tree.node?_set_self hqne _) ?_
    refine ⟨hready, husable, fun hu hnone => ?_, .failed hobjects⟩
    obtain ⟨m, hmm⟩ := hfault hu
    exact absurd hmm (hnone m)
  | present hold hplace =>
    rename_i old
    obtain ⟨hready, husable, hobjects⟩ := hp.restored (hsame _)
    have hbefore : s.objects d (slot (hexOf spool.content)) = some old := by
      rw [← hdigest, objects_iff hhex, hold]
    refine remove_written hp hname (hwritten _) hplace (Files.Tree.node?_set_self hqne _) ?_
    exact ⟨hready, husable, fun _ _ => ⟨false, rfl⟩, .present hbefore hobjects⟩
  | created hnone hplace hresolve =>
    have hkeeps := keeps_linked name spool.content hhex hnone
    have hthere := node?_linked (s := s) name spool.content hhex d.tree
    refine remove_written hp hname ((hwritten _).trans hkeeps) hplace hthere ?_
    exact hp.committed hdigest hnone (hkeeps.resolve hresolve) hthere

/-- The object is put in its place, whatever the disk answers. -/
theorem publish_always {spool : Spool} (hd : s.Ready d) (hs : s.Straight)
    (hdigest : digest = hexOf spool.content) (hm : ∀ m, mishaps m → m.kind ≠ .alreadyThere) :
    (s.publish (s.pathOf digest) spool).Always (DiskWorld mishaps)
      (Grows s.objects slot (· = spool.content))
      (fun value d' => Committed s mishaps spool.content d value d') d := by
  have hhex : IsHex 64 digest := hdigest ▸ isHex_hexOf _
  have hshard := isHex_shard hhex
  rw [publish, pathOf_parent hhex, quarantine_eq]
  refine Dialogue.Always.bind ?_
  refine makeDirectories_always hd hs (hshard.plain (by decide)) (by rw [hshard.utf8ByteSize]; decide)
    (fun t' hobjects => Grows.same hobjects) ?_ ?_
  rotate_left
  · intro t' fault htidy hobjects hunusable
    exact ⟨⟨htidy, hd.names, hd.sound⟩, fun hu => absurd hu hunusable,
      fun hu => absurd hu hunusable, .failed hobjects⟩
  intro t' htidy hobjects hkeeps hdir hnul husable
  have hd' : s.Ready { d with tree := t' } := ⟨htidy, hd.names, hd.sound⟩
  refine Dialogue.Always.bind ?_
  refine makeDirectories_always hd' hs plain_quarantine (by decide)
    (fun t' hobjects => Grows.same hobjects) ?_ ?_
  rotate_left
  · intro t'' fault htidy' hobjects' hunusable
    exact ⟨⟨htidy', hd.names, hd.sound⟩, fun hu => absurd (husable hu) hunusable,
      fun hu => absurd (husable hu) hunusable, .failed (hobjects'.trans hobjects)⟩
  intro t'' htidy' hobjects' hkeeps' hqdir _ husable'
  refine Dialogue.Always.bind ?_
  refine always_answers rfl (Grows.refl _) ?_
  have hname := hd.names d.named
  have hp : s.Prepared digest { d with tree := t'', named := d.named + 1 } :=
    ⟨⟨htidy', hd.names, hd.sound⟩, hnul, hkeeps'.isDirectory hdir, hqdir⟩
  have hpath : ({ s.root with parts := s.root.parts ++ [quarantineName] } : Path).join
      (d.names d.named) = s.quarantined (d.names d.named) :=
    Path.join_plain _ (hname.plain (by decide))
  simp only [Disk.answer, hpath]
  refine Dialogue.Always.bind ((linkThrough_always hp hname hdigest hm).imp ?_)
  rintro outcome _ ⟨written, rfl, hl⟩
  refine Dialogue.Always.bind ((remove_always hp hname hdigest hl).imp ?_)
  intro reply d' hc
  have hc := hc.since (hobjects'.trans hobjects) fun hu => husable' (husable hu)
  cases reply with
  | ok => exact hc
  | error fault => exact hc

/-- What an answer to the question for an object tells. -/
theorem holds_answer {reply : Except Files.Fault Bool}
    (hparent : ∀ node, d.tree.node? (s.home ++ [shard digest]) = some node → node = .directory)
    (hslot : ∀ node, d.tree.node? (s.home ++ slot digest) = some node → ∃ data, node = .file data)
    (hdigest : IsHex 64 digest)
    (h : (d.look (s.pathOf digest) (d.tree.holds (s.pathOf digest).parts)).1 = reply) :
    (∀ fault, reply = .error fault → ¬ s.Usable d.tree) ∧
      (reply = .ok true → ∃ old, s.objects d (slot digest) = some old) := by
  unfold Disk.look at h
  split at h
  · subst h
    exact ⟨fun _ => nofun, nofun⟩
  cases hholds : d.tree.holds (s.pathOf digest).parts with
  | error e =>
    rw [hholds] at h
    subst h
    refine ⟨fun _ _ hu => ?_, nofun⟩
    have hlong := (Files.Tree.holds_error hholds).2
    rcases hu.resolve_pathOf hparent hdigest with hr | hr
    · cases hlong.symm.trans hr
    · cases hlong.symm.trans hr
  | ok found =>
    rw [hholds] at h
    subst h
    refine ⟨fun _ => nofun, fun hfound => ?_⟩
    cases hfound
    obtain ⟨place, node, hr, hn⟩ := Files.Tree.holds_true hholds
    have hplace := (Files.Tree.resolve_leadsTo hr).trans (leadsTo_pathOf hdigest)
    have hthere : d.tree.node? (s.home ++ slot digest) = some node := hplace ▸ hn
    obtain ⟨data, rfl⟩ := hslot node hthere
    exact ⟨data, (objects_iff hdigest d).2 hthere⟩

/-- **A commit.** The inside of the root stays tidy, and the objects are left as `Commits` says. -/
theorem commit_always {spool : Spool} (hd : s.Ready d) (hs : s.Straight)
    (hdigest : digest = hexOf spool.content) (hm : ∀ m, mishaps m → m.kind ≠ .alreadyThere) :
    (s.commit digest spool).Always (DiskWorld mishaps) (Grows s.objects slot (· = spool.content))
      (fun committed d' => Committed s mishaps spool.content d committed.value d') d := by
  have hhex : IsHex 64 digest := hdigest ▸ isHex_hexOf _
  refine Dialogue.Always.bind ?_
  refine always_answers rfl (Grows.same (by rw [Disk.answer, look_snd])) ?_
  rw [Disk.answer, look_snd]
  generalize hreply : (d.look (s.pathOf digest) (d.tree.holds (s.pathOf digest).parts)).1 = reply
  have hanswer := holds_answer (fun _ => hd.tidy.node?_child) (fun _ => hd.tidy.node?_object) hhex hreply
  match reply with
  | .error fault =>
    have hunusable := hanswer.1 fault rfl
    exact ⟨hd, id, fun hu => absurd hu hunusable, .failed rfl⟩
  | .ok true =>
    obtain ⟨old, hold⟩ := hanswer.2 rfl
    exact ⟨hd, id, fun _ _ => ⟨false, rfl⟩, .present (hdigest ▸ hold) rfl⟩
  | .ok false =>
    refine Dialogue.Always.bind ((publish_always hd hs hdigest hm).imp ?_)
    rintro (fault | created) d' hc
    · show Dialogue.Always _ _ _ (if fault.isSystem then _ else _) d'
      split
      · exact hc.error
      · exact hc.error
    · exact hc.ok

/-- A commit to a disk without mishaps does not fail. -/
theorem commit_exact {spool : Spool} (hd : s.Ready d) (hs : s.Straight) (hu : s.Usable d.tree)
    (hdigest : digest = hexOf spool.content) :
    (s.commit digest spool).Always (Dialogue.exactly Disk.answer) (fun _ _ => True)
      (fun committed d' => ∃ created, committed.value = .ok created ∧ s.Ready d' ∧
        s.Usable d'.tree ∧
        Commits (s.objects d) (s.objects d') (slot (hexOf spool.content)) spool.content
          (.ok created : Except Fault Bool)) d := by
  have hm : ∀ m : Mishap, False → m.kind ≠ .alreadyThere := fun _ => nofun
  have hcommit := commit_always hd hs hdigest hm
  refine Dialogue.Always.weaken ((hcommit.narrow exactly_disk).imp ?_) fun _ _ _ => trivial
  intro committed d' hc
  obtain ⟨created, hvalue⟩ := hc.succeeds hu fun _ => id
  have hcommits := hc.commits
  rw [hvalue] at hcommits
  exact ⟨created, hvalue, hc.ready, hc.usable hu, hcommits⟩

/-! ## Reading an object -/

theorem objects_none (ht : s.Tidy t) (hdigest : IsHex 64 digest)
    (h : t.resolve (s.pathOf digest).parts = .error .notFound) :
    s.objectsIn t (slot digest) = none := by
  rw [objectsIn_slot hdigest]
  cases hn : t.node? (s.home ++ slot digest) with
  | none => rfl
  | some node =>
    have hb := ht (slot digest) node (List.cons_ne_nil _ _) hn
    generalize hplace : slot digest = place at hb
    cases hb with
    | shard name => simp [slot] at hplace
    | object hr =>
      rw [← slot_injective hplace, h] at hr
      cases hr

/-- Whether there is an object is answered from the objects, and changes nothing. -/
theorem holds_always (hd : s.Ready d) (hu : s.Usable d.tree) (hdigest : IsHex 64 digest)
    (hg : G d d) :
    (s.holds digest).Always (DiskWorld mishaps) G
      (fun there d' => d' = d ∧ there = .ok (s.objects d (slot digest)).isSome) d := by
  have hnul : ¬ (s.pathOf digest).hasNul = true := by
    rw [hasNul_pathOf hdigest, hu.noNul]
    exact Bool.false_ne_true
  have hfile : d.tree.isFile (s.pathOf digest).parts = .ok (s.objects d (slot digest)).isSome := by
    rcases hu.resolve_pathOf (fun _ => hd.tidy.node?_child) hdigest with hr | hr
    · rw [Files.Tree.isFile_eq hr, objects, objectsIn_slot hdigest]
      rcases d.tree.node? (s.home ++ slot digest) with _ | (_ | _ | _) <;> rfl
    · rw [objects, objects_none hd.tidy hdigest hr, Files.Tree.isFile, Files.Tree.status, hr]
      rfl
  have hanswer : Disk.answer (.isFile (s.pathOf digest)) d =
      (.ok (s.objects d (slot digest)).isSome, d) := by
    rw [Disk.answer, hfile]
    exact if_neg hnul
  refine Dialogue.Always.bind (always_answers rfl (by rw [hanswer]; exact hg) ?_)
  rw [hanswer]
  exact ⟨rfl, rfl⟩

/-- What is read is the object, with the type that its first bytes tell. -/
theorem load_always (hd : s.Ready d) (hu : s.Usable d.tree) (hdigest : IsHex 64 digest)
    (hg : G d d) :
    (s.load digest).Always (DiskWorld mishaps) G
      (fun loaded d' => d' = d ∧ loaded = .ok ((s.objects d (slot digest)).map fun data =>
        { data, mime := s.sniff (data.upTo s.sniffBytes), sniffed := [data.upTo s.sniffBytes] })) d := by
  have hnul : (s.pathOf digest).hasNul = false := (hasNul_pathOf hdigest).trans hu.noNul
  refine Dialogue.Always.bind ?_
  rcases hu.resolve_pathOf (fun _ => hd.tidy.node?_child) hdigest with hr | hr
  · cases hn : d.tree.node? (s.home ++ slot digest) with
    | none =>
      have hanswer : Disk.answer (.read (s.pathOf digest)) d =
          (.error (.refused .notFound [s.pathOf digest]), d) := by
        rw [Disk.answer, hnul, Files.Tree.read_eq hr, hn]
        rfl
      refine always_answers rfl (by rw [hanswer]; exact hg) ?_
      rw [hanswer, objects, objectsIn_slot hdigest, hn]
      exact ⟨rfl, rfl⟩
    | some node =>
      obtain ⟨data, rfl, _⟩ := hd.tidy.node?_slot hn
      have hanswer : Disk.answer (.read (s.pathOf digest)) d = (.ok data, d) := by
        rw [Disk.answer, hnul, Files.Tree.read_eq hr, hn]
        rfl
      refine always_answers rfl (by rw [hanswer]; exact hg) ?_
      rw [hanswer, objects, objectsIn_slot hdigest, hn]
      exact ⟨rfl, rfl⟩
  · have hanswer : Disk.answer (.read (s.pathOf digest)) d =
        (.error (.refused .notFound [s.pathOf digest]), d) := by
      have hread : d.tree.read (s.pathOf digest).parts = .error .notFound := by
        rw [Files.Tree.read, Files.Tree.status, hr]
        rfl
      rw [Disk.answer, hnul, hread]
      rfl
    refine always_answers rfl (by rw [hanswer]; exact hg) ?_
    rw [hanswer, objects, objects_none hd.tidy hdigest hr]
    exact ⟨rfl, rfl⟩

end Questions

/-- To load an object one file is read. -/
theorem questions_load (d : Disk) :
    (s.load digest).questions Disk.answer d = [.read (s.pathOf digest)] := by
  unfold load
  refine (Dialogue.questions_andThen Disk.answer _ _ d).trans ?_
  generalize Dialogue.run Disk.answer _ d = reply
  obtain ⟨_ | fault, d'⟩ := reply
  · dsimp only
    split
    · rfl
    split <;> rfl
  · rfl

/-- A disk on which nothing is inside the root yet. -/
structure Bare (s : FileStore) (d : Disk) : Prop where
  bare : ∀ rest, rest ≠ [] → d.tree.node? (s.home ++ rest) = none
  /-- Fresh names are of thirty-two hexadecimal digits. -/
  names : ∀ n, IsHex 32 (d.names n)
  sound : d.Sound

theorem Bare.ready {d : Disk} (h : s.Bare d) : s.Ready d := by
  refine ⟨fun rest node hne hn => ?_, h.names, h.sound⟩
  rw [h.bare rest hne] at hn
  cases hn

theorem Bare.objects {d : Disk} (h : s.Bare d) (place : Place) : s.objects d place = none := by
  cases place with
  | nil => rfl
  | cons top rest =>
    rw [FileStore.objects, objectsIn, h.bare _ (List.cons_ne_nil _ _)]
    split <;> rfl

/-- The store of files as a shelf. Its writes may break off and its links may fail, but not for something
in their way that is not there. -/
def shelf (s : FileStore) (hs : s.Straight) (mishaps : Mishap → Prop)
    (hm : ∀ m, mishaps m → m.kind ≠ .alreadyThere) :
    Shelf DiskRequest DiskRequest.Reply Disk Place where
  store := s.store
  world := DiskWorld mishaps
  objects := s.objects
  home := slot
  home_injective := slot_injective
  Ready := s.Ready
  commits hd _ _ _ := (commit_always hd hs rfl hm).imp fun _ _ hc => ⟨hc.ready, hc.commits⟩

end FileStore

end UploadDepot.Store

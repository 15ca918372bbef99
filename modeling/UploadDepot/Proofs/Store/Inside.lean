/-
What one answer of a disk does inside the root, whatever else goes on there.

While commits are under way the root is not tidy: the quarantine holds their
files, and any of these may be gone at any moment. But for a link, what a
commit asks leaves the places of objects as they are, and brings into the
quarantine nothing but the file that it writes (`Alters`). A link is refused,
or it puts in the object's place what stands in the quarantine file
(`link_cases`).
-/
import UploadDepot.Proofs.Store.FileStore

namespace UploadDepot.Store

open Files (Path Place Node)
open Files.Tree (leadsTo Keeps Grown)

/-- A change is refused, and nothing is changed, or it is made. -/
theorem Disk.change_cases (d : Disk) (paths : List Path)
    (result : Except Files.Refusal (Files.Tree Bytes)) :
    (d.change paths result = (.error .nulInPath, d) ∧ paths.any Path.hasNul = true) ∨
    (∃ refusal, result = .error refusal ∧ d.change paths result = (.error (.refused refusal paths), d)) ∨
    (∃ tree, result = .ok tree ∧ d.change paths result = (.ok (), { d with tree })) := by
  unfold change
  split
  · rename_i hnul
    exact .inl ⟨rfl, hnul⟩
  · cases result with
    | error refusal => exact .inr (.inl ⟨refusal, rfl, rfl⟩)
    | ok tree => exact .inr (.inr ⟨tree, rfl, rfl⟩)

namespace FileStore

variable {s : FileStore} {digest name : String} {t t' : Files.Tree Bytes} {d : Disk}
  {written : String → Node Bytes → Prop}

/-- Directories stay, the places of objects are as they were, and all that came into the quarantine
was written. -/
structure Alters (s : FileStore) (written : String → Node Bytes → Prop) (t t' : Files.Tree Bytes) :
    Prop where
  keeps : Keeps t t'
  slots : ∀ digest, IsHex 64 digest → t'.node? (s.home ++ slot digest) = t.node? (s.home ++ slot digest)
  quarantine : ∀ name node, t'.node? (s.home ++ [quarantineName, name]) = some node →
    t.node? (s.home ++ [quarantineName, name]) = some node ∨ written name node

theorem Alters.refl (t : Files.Tree Bytes) : s.Alters written t t :=
  ⟨fun _ => id, fun _ _ => rfl, fun _ _ => .inl⟩

/-- Directories on the way to one right under the root. -/
theorem Alters.grown (hs : s.Straight) (hname : name ≠ "..")
    (hg : Grown (s.root.parts ++ [name]) t t') : s.Alters written t t' := by
  -- What stands two steps below the root is none of them.
  have hsame : ∀ top below : String,
      t'.node? (s.home ++ [top, below]) = t.node? (s.home ++ [top, below]) := by
    intro top below
    rcases grown_inside hs hname hg (List.cons_ne_nil top [below]) with hsame | ⟨hplace, _⟩
    · exact hsame
    · cases hplace
  exact ⟨hg.keeps, fun _ _ => hsame _ _, fun _ _ hn => .inl (hsame _ _ ▸ hn)⟩

/-- A quarantine file that is written or removed. -/
theorem Alters.update {n : Option (Node Bytes)}
    (hnode : t'.node? = Function.update t.node? (s.home ++ [quarantineName, name]) n)
    (hfile : t.node? (s.home ++ [quarantineName, name]) ≠ some .directory)
    (hwritten : ∀ node, n = some node → written name node) : s.Alters written t t' := by
  refine ⟨fun p hp => ?_, fun digest hdigest => ?_, fun name' node hn => ?_⟩
  · have hne : p ≠ s.home ++ [quarantineName, name] := fun he => hfile (he ▸ hp)
    rw [hnode, Function.update_of_ne hne, hp]
  · rw [hnode, Function.update_of_ne (slot_ne_quarantine s name hdigest)]
  · rw [hnode] at hn
    by_cases hname : name' = name
    · subst hname
      rw [Function.update_self] at hn
      exact .inr (hwritten node hn)
    · refine .inl ?_
      rwa [Function.update_of_ne] at hn
      intro he
      have := List.append_cancel_left he
      simp only [List.cons.injEq, and_true, true_and] at this
      exact hname this

/-! ## The answers -/

theorem leadsTo_quarantined (hname : Files.Plain name) :
    leadsTo [] (s.quarantined name).parts = s.home ++ [quarantineName, name] := by
  rw [quarantined, Files.Tree.leadsTo_snoc _ _ hname.up, home_child plain_quarantine.up,
    List.append_assoc]
  rfl

theorem makeDirectories_alters (written : String → Node Bytes → Prop) (hs : s.Straight)
    (hname : Files.Plain name) (d : Disk) :
    ∃ tree, (Disk.answer (.makeDirectories { s.root with parts := s.root.parts ++ [name] }) d).2 =
      { d with tree } ∧ s.Alters written d.tree tree := by
  have hgrown := (Files.Tree.makeDirectories_grown d.tree (s.root.parts ++ [name])).1
  rw [Disk.answer]
  split
  · exact ⟨d.tree, rfl, Alters.refl _⟩
  · split
    all_goals
      rename_i hmade
      rw [hmade] at hgrown
      exact ⟨_, rfl, Alters.grown hs hname.up hgrown⟩

/-- No directory is made on a path with a NUL character. -/
theorem makeDirectories_noNul (hname : Files.Plain name)
    (h : (Disk.answer (.makeDirectories { s.root with parts := s.root.parts ++ [name] }) d).1 = .ok ()) :
    s.root.hasNul = false := by
  rw [Disk.answer] at h
  split at h
  · cases h
  · rename_i hnul
    rw [hasNul_child hname, Bool.not_eq_true] at hnul
    exact hnul

theorem write_alters (hname : Files.Plain name) (content : Bytes) (hsound : d.Sound) :
    ∃ tree, (Disk.answer (.write (s.quarantined name) content) d).2 = { d with tree } ∧
      s.Alters (fun name' node => name' = name ∧ node = .file content) d.tree tree ∧
      ((Disk.answer (.write (s.quarantined name) content) d).1 = .ok () →
        tree.resolve (s.quarantined name).parts = .ok (s.home ++ [quarantineName, name])) := by
  rw [Disk.write_eq hsound.1]
  rcases d.change_cases [s.quarantined name] (d.tree.write (s.quarantined name).parts content) with
    ⟨hchange, _⟩ | ⟨_, _, hchange⟩ | ⟨tree, hwrite, hchange⟩
  · rw [hchange]
    exact ⟨d.tree, rfl, Alters.refl _, fun hok => by cases hok⟩
  · rw [hchange]
    exact ⟨d.tree, rfl, Alters.refl _, fun hok => by cases hok⟩
  rw [hchange]
  cases hr : d.tree.resolve (s.quarantined name).parts with
  | error e =>
    rw [Files.Tree.write, hr] at hwrite
    cases hwrite
  | ok place =>
    obtain rfl := (Files.Tree.resolve_leadsTo hr).trans (leadsTo_quarantined hname)
    rw [Files.Tree.write_eq hr] at hwrite
    have hfile : d.tree.node? (s.home ++ [quarantineName, name]) ≠ some .directory := by
      intro hdir
      rw [hdir] at hwrite
      cases hwrite
    have htree : tree = d.tree.set (s.home ++ [quarantineName, name]) (.file content) := by
      split at hwrite
      · cases hwrite
      · cases hwrite
        rfl
    have halters : s.Alters (fun name' node => name' = name ∧ node = .file content) d.tree tree := by
      refine Alters.update (htree ▸ Files.Tree.node?_set place_ne _) hfile ?_
      rintro node hnode
      cases hnode
      exact ⟨rfl, rfl⟩
    exact ⟨tree, rfl, halters, fun _ => halters.keeps.resolve hr⟩

theorem remove_alters (written : String → Node Bytes → Prop) (hname : Files.Plain name) (d : Disk) :
    ∃ tree, (Disk.answer (.remove (s.quarantined name)) d).2 = { d with tree } ∧
      s.Alters written d.tree tree := by
  rw [Disk.answer]
  rcases d.change_cases [s.quarantined name] (d.tree.remove (s.quarantined name).parts) with
    ⟨hchange, _⟩ | ⟨_, _, hchange⟩ | ⟨tree, hremove, hchange⟩
  · rw [hchange]
    exact ⟨d.tree, rfl, Alters.refl _⟩
  · rw [hchange]
    exact ⟨d.tree, rfl, Alters.refl _⟩
  rw [hchange]
  refine ⟨tree, rfl, ?_⟩
  cases hr : d.tree.resolve (s.quarantined name).parts with
  | error e =>
    rw [Files.Tree.remove, hr] at hremove
    cases hremove
  | ok place =>
    obtain rfl := (Files.Tree.resolve_leadsTo hr).trans (leadsTo_quarantined hname)
    rw [Files.Tree.remove_eq hr] at hremove
    have hfile : d.tree.node? (s.home ++ [quarantineName, name]) ≠ some .directory := by
      intro hdir
      rw [hdir] at hremove
      cases hremove
    split at hremove
    · cases hremove
    · cases hremove
    · cases hremove
      exact Alters.update (Files.Tree.node?_erase place_ne) hfile fun _ hnode => by cases hnode

/-- A quarantine file that was written is removed, or is gone already. -/
theorem remove_reply (hname : Files.Plain name) (hnul : s.root.hasNul = false)
    (hr : d.tree.resolve (s.quarantined name).parts = .ok (s.home ++ [quarantineName, name]))
    (hn : ∀ node, d.tree.node? (s.home ++ [quarantineName, name]) = some node →
      ∃ content, node = .file content) :
    (Disk.answer (.remove (s.quarantined name)) d).1 = .ok () ∨
      (Disk.answer (.remove (s.quarantined name)) d).1 =
        .error (.refused .notFound [s.quarantined name]) := by
  rw [Disk.answer, Disk.change_eq _ (noNul_quarantined hname hnul), Files.Tree.remove_eq hr]
  cases hnode : d.tree.node? (s.home ++ [quarantineName, name]) with
  | none => exact .inr rfl
  | some node =>
    obtain ⟨content, rfl⟩ := hn node hnode
    exact .inl rfl

/-- The answer to a link: it is refused, if for what stands in its way then for a node at the place of the
object, or the object is made of what stands in the quarantine file. -/
theorem link_cases (hname : Files.Plain name) (hdigest : IsHex 64 digest)
    (hnul : s.root.hasNul = false) (hsound : d.linkFails = none) :
    (∃ refusal paths, Disk.answer (.link (s.quarantined name) (s.pathOf digest)) d =
        (.error (.refused refusal paths), d) ∧
      (refusal = .alreadyThere → ∃ node, d.tree.node? (s.home ++ slot digest) = some node)) ∨
    (∃ content, Disk.answer (.link (s.quarantined name) (s.pathOf digest)) d =
        (.ok (), { d with tree := d.tree.set (s.home ++ slot digest) (.file content) }) ∧
      d.tree.node? (s.home ++ [quarantineName, name]) = some (.file content) ∧
      d.tree.node? (s.home ++ slot digest) = none) := by
  rw [Disk.link_eq hsound, Disk.change_eq _ (noNul_link hname hdigest hnul)]
  rcases Files.Tree.link_cases d.tree (s.quarantined name).parts (s.pathOf digest).parts with
    ⟨e, hlink, he⟩ | ⟨node, hlink, hn⟩ | ⟨content, hlink, hread, hn⟩
  · rw [hlink]
    exact .inl ⟨e, _, rfl, fun halready => absurd halready he⟩
  · rw [hlink]
    rw [leadsTo_pathOf hdigest] at hn
    exact .inl ⟨_, _, rfl, fun _ => ⟨node, hn⟩⟩
  · rw [hlink]
    rw [leadsTo_pathOf hdigest] at hn ⊢
    rw [leadsTo_quarantined hname] at hread
    exact .inr ⟨content, rfl, hread, hn⟩

/-- A link to a file that is gone is refused, but not for what stands in its way. -/
theorem link_missing {path : Path} (new : Path) (hsound : d.linkFails = none)
    (h : d.tree.node? (leadsTo [] path.parts) = none) :
    ∃ fault, Disk.answer (.link path new) d = (.error fault, d) ∧ fault.isAlreadyThere = false := by
  rw [Disk.link_eq hsound]
  obtain ⟨e, hlink, he⟩ := Files.Tree.link_missing new.parts h
  rcases d.change_cases [path, new] (d.tree.link path.parts new.parts) with
    ⟨hchange, _⟩ | ⟨refusal, hrefused, hchange⟩ | ⟨tree, hdone, _⟩
  · exact ⟨_, hchange, rfl⟩
  · rw [hlink] at hrefused
    cases hrefused
    exact ⟨_, hchange, decide_eq_false he⟩
  · rw [hlink] at hdone
    cases hdone

end FileStore

end UploadDepot.Store

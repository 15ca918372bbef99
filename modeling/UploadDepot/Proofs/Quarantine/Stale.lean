/-
A sweep takes the stale files out of the quarantine, and nothing else.

Others use the quarantine too: between any two questions of a sweep they may
take files away (`Shared.Vanishes`). Whatever they take and whenever, in the
end the quarantine has its entries of before without those that vanished and
without the stale files, everything else in the tree is as it was, and the
sweep tells as many deletions as it made itself (`Swept`, `sweep_exact`). A
second sweep has nothing to do. The paths of the entries have to be short
enough for that: one that is too long to be followed stops the sweep, with
part of its work done (`Cut`, `sweep_stops`).
-/
import Mathlib.Data.Set.Card
import Mathlib.Order.Defs.LinearOrder
import UploadDepot.Proofs.Dialogue
import UploadDepot.Proofs.Files.Path
import UploadDepot.Proofs.Files.Tree
import UploadDepot.Proofs.Table
import UploadDepot.Quarantine.Sweep

namespace UploadDepot.Quarantine

open Files (Path Place Node)

/-! ## A quarantine that others use -/

/-- A tree, and the names of the files that others took out of its quarantine. -/
structure Shared (τ : Type) where
  tree : Files.Tree τ
  vanished : List String := []

namespace Shared

variable {τ : Type}

/-- A file of the quarantine is taken away by somebody else. -/
inductive Vanishes (place : Place) : Shared τ → Shared τ → Prop
  | taken {s : Shared τ} {name : String} {instant : τ} :
      s.tree.node? (place ++ [name]) = some (.file instant) →
      Vanishes place s { tree := s.tree.erase (place ++ [name]), vanished := name :: s.vanished }

/-- Before a question is answered any number of files may vanish; then the tree answers. -/
inductive Answers (place : Place) : World Request (Request.Reply τ) (Shared τ)
  | answered (q : Request) {s u : Shared τ} : Relation.ReflTransGen (Vanishes place) s u →
      Answers place q s (Yard.answer q { tree := u.tree }).1
        { u with tree := (Yard.answer q { tree := u.tree }).2.tree }

/-- A question that others may forestall, and what is done with the answer. -/
theorem asked {β : Type} {place : Place} {q : Request} {f : q.Reply τ → Talk τ β}
    {post : β → Shared τ → Prop} {s : Shared τ}
    (h : ∀ u, Relation.ReflTransGen (Vanishes place) s u →
      (f (Yard.answer q { tree := u.tree }).1).Always (Answers place) (fun _ _ => True) post
        { u with tree := (Yard.answer q { tree := u.tree }).2.tree }) :
    (Dialogue.ask q .done >>= f).Always (Answers place) (fun _ _ => True) post s := by
  rintro _ _ ⟨_, hu⟩
  exact ⟨trivial, h _ hu⟩

end Shared

/-- The path of an entry of the quarantine is too long to be followed. -/
def Unfollowed (root : Path) (name : String) : Prop :=
  Files.Tree.pathLimit < Files.Tree.weight ((root.join Store.quarantineName).parts ++ [name])

/-- A quarantine under a root: a directory whose entries have names. -/
structure Located {τ : Type} (t : Files.Tree τ) (root : Path) (place : Place) : Prop where
  resolve : t.resolve (root.join Store.quarantineName).parts = .ok place
  directory : t.node? place = some .directory
  plain : ∀ name node, t.node? (place ++ [name]) = some node → Files.Plain name
  size : ∀ name node, t.node? (place ++ [name]) = some node → name.utf8ByteSize ≤ Files.Tree.nameLimit

/-- A quarantine of which all paths can be followed. -/
structure Quarantined {τ : Type} (t : Files.Tree τ) (root : Path) (place : Place) : Prop extends
    Located t root place where
  short : ∀ name node, t.node? (place ++ [name]) = some node →
    Files.Tree.weight ((root.join Store.quarantineName).parts ++ [name]) ≤ Files.Tree.pathLimit

theorem Located.parts_entry {τ : Type} {t : Files.Tree τ} {root : Path} {place : Place} {name : String}
    (hq : Located t root place) (hname : ∃ node, t.node? (place ++ [name]) = some node) :
    ((root.join Store.quarantineName).join name).parts =
      (root.join Store.quarantineName).parts ++ [name] := by
  obtain ⟨node, hnode⟩ := hname
  rw [Path.join_plain _ (hq.plain name node hnode)]

/-- The path of an entry leads to its place, as long as no directory goes. -/
theorem Located.resolve_entry {τ : Type} {t u : Files.Tree τ} {root : Path} {place : Place}
    {name : String} (hq : Located t root place) (hk : Files.Tree.Keeps t u)
    (hname : ∃ node, t.node? (place ++ [name]) = some node) (hshort : ¬ Unfollowed root name) :
    u.resolve ((root.join Store.quarantineName).join name).parts = .ok (place ++ [name]) := by
  have hdir : t.isDirectory (root.join Store.quarantineName).parts = true :=
    Files.Tree.isDirectory_iff.2 ⟨place, hq.resolve, hq.directory⟩
  rw [hq.parts_entry hname, Files.Tree.resolve_leadsTo hq.resolve]
  obtain ⟨node, hnode⟩ := hname
  exact Files.Tree.resolve_child (hk.isDirectory hdir) (hq.plain name node hnode).up
    (hq.size name node hnode) (Nat.not_lt.1 hshort)

section Sweep

variable {τ : Type} [Sub τ] [LinearOrder τ] {maxAge now : τ} {root : Path} {place : Place}
  {t : Files.Tree τ} {s s' : Shared τ} {name : String} {names removed : List String}

/-- A file of the quarantine that has not been changed for too long. -/
def Stale (maxAge now : τ) (t : Files.Tree τ) (place : Place) (name : String) : Prop :=
  ∃ instant, t.node? (place ++ [name]) = some (.file instant) ∧ maxAge < now - instant

/-- What a sweep leaves of a tree, and what it tells. -/
structure Swept (maxAge now : τ) (t : Files.Tree τ) (place : Place) (deleted : List (Deletion τ))
    (s : Shared τ) : Prop where
  /-- The entries of the quarantine are those of before that did not vanish and are no files, or not
  too old. -/
  entries : ∀ name node, s.tree.node? (place ++ [name]) = some node ↔
    t.node? (place ++ [name]) = some node ∧ name ∉ s.vanished ∧
      ∀ instant, node = .file instant → now - instant ≤ maxAge
  /-- All that is not right under the quarantine is as it was. -/
  elsewhere : ∀ p, (∀ name, p ≠ place ++ [name]) → s.tree.node? p = t.node? p
  /-- What is told are the files that are gone and did not vanish. -/
  count : deleted.length =
    {name | (t.node? (place ++ [name])).isSome ∧ s.tree.node? (place ++ [name]) = none ∧
      name ∉ s.vanished}.ncard

/-- What a sweep has done when it is stopped, and what it tells by then: some files are gone, and each of
them has vanished or was stale. -/
structure Cut (maxAge now : τ) (t : Files.Tree τ) (place : Place) (deleted : List (Deletion τ))
    (s : Shared τ) : Prop where
  entries : ∀ name node, s.tree.node? (place ++ [name]) = some node →
    t.node? (place ++ [name]) = some node
  gone : ∀ name, (t.node? (place ++ [name])).isSome → s.tree.node? (place ++ [name]) = none →
    name ∈ s.vanished ∨ Stale maxAge now t place name
  elsewhere : ∀ p, (∀ name, p ≠ place ++ [name]) → s.tree.node? p = t.node? p
  count : deleted.length =
    {name | (t.node? (place ++ [name])).isSome ∧ s.tree.node? (place ++ [name]) = none ∧
      name ∉ s.vanished}.ncard

/-- A sweep that had nothing to do: whatever else is gone has vanished. -/
def Idle (place : Place) (before : Files.Tree τ) (deleted : List (Deletion τ)) (s : Shared τ) : Prop :=
  deleted = [] ∧
    ∀ p, s.tree.node? p = before.node? p ∨ ∃ name ∈ s.vanished, p = place ++ [name]

/-- A sweep on its way: it has removed some files, and some names are left to visit. -/
structure Midway (maxAge now : τ) (t : Files.Tree τ) (root : Path) (place : Place)
    (names removed : List String) (s : Shared τ) : Prop where
  elsewhere : ∀ p, (∀ name, p ≠ place ++ [name]) → s.tree.node? p = t.node? p
  gone : ∀ name, name ∈ s.vanished ∨ name ∈ removed → s.tree.node? (place ++ [name]) = none
  kept : ∀ name, name ∉ s.vanished → name ∉ removed →
    s.tree.node? (place ++ [name]) = t.node? (place ++ [name])
  /-- Only files vanish. -/
  files : ∀ name ∈ s.vanished, ∃ instant, t.node? (place ++ [name]) = some (.file instant)
  stale : ∀ name ∈ removed, Stale maxAge now t place name ∧ name ∉ s.vanished
  once : removed.Nodup
  rest : ∀ name, Stale maxAge now t place name → name ∈ s.vanished ∨ name ∈ removed ∨ name ∈ names
  /-- An entry that stops the sweep is still to be visited. -/
  ahead : ∀ name node, t.node? (place ++ [name]) = some node → Unfollowed root name →
    name ∈ s.vanished ∨ name ∈ names

namespace Midway

theorem child_ne {place : Place} {name other : String} (h : other ≠ name) :
    place ++ [other] ≠ place ++ [name] := fun he =>
  h (List.singleton_inj.1 (List.append_cancel_left he))

/-- What is there is what was there. -/
theorem node (h : Midway maxAge now t root place names removed s) {n : Node τ}
    (hn : s.tree.node? (place ++ [name]) = some n) :
    t.node? (place ++ [name]) = some n ∧ name ∉ s.vanished ∧ name ∉ removed := by
  have hthere : ¬ (name ∈ s.vanished ∨ name ∈ removed) := fun hgone => by
    rw [h.gone name hgone] at hn
    cases hn
  rw [not_or] at hthere
  exact ⟨(h.kept name hthere.1 hthere.2).symm.trans hn, hthere⟩

theorem vanish (h : Midway maxAge now t root place names removed s) (hv : Shared.Vanishes place s s') :
    Midway maxAge now t root place names removed s' := by
  obtain ⟨hfile⟩ := hv
  rename_i gone instant
  obtain ⟨hwas, hnot, hleft⟩ := h.node hfile
  refine ⟨fun p hp => ?_, fun name hname => ?_, fun name hname hremoved => ?_, fun name hname => ?_,
    fun name hname => ?_, h.once, fun name hname => ?_, fun name node hnode hlong => ?_⟩
  · rw [Files.Tree.node?_erase_other (hp gone)]
    exact h.elsewhere p hp
  · by_cases he : name = gone
    · rw [he, Files.Tree.node?_erase (List.append_ne_nil_of_right_ne_nil _ (List.cons_ne_nil _ _)),
        Function.update_self]
    · rw [Files.Tree.node?_erase_other (child_ne he)]
      exact h.gone name (hname.imp_left fun hmem => (List.mem_cons.1 hmem).resolve_left he)
  · rw [List.mem_cons, not_or] at hname
    rw [Files.Tree.node?_erase_other (child_ne hname.1)]
    exact h.kept name hname.2 hremoved
  · rcases List.mem_cons.1 hname with rfl | hmem
    · exact ⟨instant, hwas⟩
    · exact h.files name hmem
  · obtain ⟨hstale, hkept⟩ := h.stale name hname
    refine ⟨hstale, fun hmem => ?_⟩
    rcases List.mem_cons.1 hmem with rfl | hmem
    · exact hleft hname
    · exact hkept hmem
  · exact (h.rest name hname).imp_left (List.mem_cons_of_mem _)
  · exact (h.ahead name node hnode hlong).imp_left (List.mem_cons_of_mem _)

theorem vanishes (h : Midway maxAge now t root place names removed s)
    (hv : Relation.ReflTransGen (Shared.Vanishes place) s s') :
    Midway maxAge now t root place names removed s' := by
  induction hv with
  | refl => exact h
  | tail _ hstep ih => exact ih.vanish hstep

/-- An entry that was visited did not stop the sweep. -/
theorem ahead_visited (h : Midway maxAge now t root place (name :: names) removed s)
    (hshort : ¬ Unfollowed root name) (other : String) (node : Node τ)
    (hnode : t.node? (place ++ [other]) = some node) (hlong : Unfollowed root other) :
    other ∈ s.vanished ∨ other ∈ names := by
  refine (h.ahead other node hnode hlong).imp_right fun hmem => ?_
  rcases List.mem_cons.1 hmem with rfl | hmem
  · exact absurd hlong hshort
  · exact hmem

/-- An entry that is not a stale file is passed over. -/
theorem pass (h : Midway maxAge now t root place (name :: names) removed s)
    (hshort : ¬ Unfollowed root name)
    (hfresh : ∀ instant, s.tree.node? (place ++ [name]) = some (.file instant) → now - instant ≤ maxAge) :
    Midway maxAge now t root place names removed s := by
  have hname : Stale maxAge now t place name → name ∈ s.vanished ∨ name ∈ removed := by
    rintro ⟨instant, hfile, hage⟩
    by_contra hthere
    rw [not_or] at hthere
    exact hage.not_ge (hfresh instant ((h.kept name hthere.1 hthere.2).trans hfile))
  refine { h with rest := fun other hstale => ?_, ahead := h.ahead_visited hshort }
  rcases h.rest other hstale with hv | hr | hn
  · exact .inl hv
  · exact .inr (.inl hr)
  · rcases List.mem_cons.1 hn with rfl | hn
    · exact (hname hstale).imp_right .inl
    · exact .inr (.inr hn)

/-- A stale file is removed. -/
theorem remove (h : Midway maxAge now t root place (name :: names) removed s)
    (hshort : ¬ Unfollowed root name) {instant : τ}
    (hfile : s.tree.node? (place ++ [name]) = some (.file instant)) (hage : maxAge < now - instant) :
    Midway maxAge now t root place names (name :: removed)
      { s with tree := s.tree.erase (place ++ [name]) } := by
  obtain ⟨hwas, hnot, hleft⟩ := h.node hfile
  refine ⟨fun p hp => ?_, fun other hother => ?_, fun other hother hremoved => ?_, h.files,
    fun other hother => ?_, List.nodup_cons.2 ⟨hleft, h.once⟩, fun other hstale => ?_,
    h.ahead_visited hshort⟩
  · rw [Files.Tree.node?_erase_other (hp name)]
    exact h.elsewhere p hp
  · by_cases he : other = name
    · rw [he, Files.Tree.node?_erase (List.append_ne_nil_of_right_ne_nil _ (List.cons_ne_nil _ _)),
        Function.update_self]
    · rw [Files.Tree.node?_erase_other (child_ne he)]
      exact h.gone other (hother.imp_right fun hmem => (List.mem_cons.1 hmem).resolve_left he)
  · rw [List.mem_cons, not_or] at hremoved
    rw [Files.Tree.node?_erase_other (child_ne hremoved.1)]
    exact h.kept other hother hremoved.2
  · rcases List.mem_cons.1 hother with rfl | hmem
    · exact ⟨⟨instant, hwas, hage⟩, hnot⟩
    · exact h.stale other hmem
  · rcases h.rest other hstale with hv | hr | hn
    · exact .inl hv
    · exact .inr (.inl (List.mem_cons_of_mem _ hr))
    · rcases List.mem_cons.1 hn with rfl | hn
      · exact .inr (.inl List.mem_cons_self)
      · exact .inr (.inr hn)

/-- Before a sweep, and again when the directory is listed: every stale file is among the names. -/
theorem listed (h : Midway maxAge now t root place names [] s) {there : List String}
    (hthere : ∀ name, name ∈ there ↔ ∃ node, s.tree.node? (place ++ [name]) = some node) :
    Midway maxAge now t root place there [] s := by
  have hlisted (name : String) (node : Node τ) (hnode : t.node? (place ++ [name]) = some node) :
      name ∈ s.vanished ∨ name ∈ there := by
    by_cases hv : name ∈ s.vanished
    · exact .inl hv
    · exact .inr ((hthere name).2 ⟨_, (h.kept name hv List.not_mem_nil).trans hnode⟩)
  refine { h with rest := fun name hstale => ?_, ahead := fun name node hnode _ => hlisted name node hnode }
  obtain ⟨instant, hfile, -⟩ := hstale
  exact (hlisted name _ hfile).imp_right .inr

theorem start (hnames : ∀ name, name ∈ names ↔ ∃ node, t.node? (place ++ [name]) = some node) :
    Midway maxAge now t root place names [] { tree := t } where
  elsewhere _ _ := rfl
  gone _ h := by simp at h
  kept _ _ _ := rfl
  files := nofun
  stale := nofun
  once := List.nodup_nil
  rest _ h := .inr (.inr ((hnames _).2 ⟨_, h.choose_spec.1⟩))
  ahead _ node hnode _ := .inr ((hnames _).2 ⟨node, hnode⟩)

/-- No directory goes. -/
theorem keeps (h : Midway maxAge now t root place names removed s) : Files.Tree.Keeps t s.tree := by
  intro p hp
  by_cases hchild : ∃ name, p = place ++ [name]
  · obtain ⟨name, rfl⟩ := hchild
    have hv : name ∉ s.vanished := fun hmem => by
      obtain ⟨instant, hfile⟩ := h.files name hmem
      rw [hp] at hfile
      cases hfile
    have hr : name ∉ removed := fun hmem => by
      obtain ⟨⟨instant, hfile, -⟩, -⟩ := h.stale name hmem
      rw [hp] at hfile
      cases hfile
    rw [h.kept name hv hr, hp]
  · rw [h.elsewhere p fun name he => hchild ⟨name, he⟩, hp]

/-- When every name has been visited, no stale file is left. -/
theorem fresh (h : Midway maxAge now t root place [] removed s) {instant : τ}
    (hfile : s.tree.node? (place ++ [name]) = some (.file instant)) : now - instant ≤ maxAge := by
  obtain ⟨hwas, hv, hr⟩ := h.node hfile
  by_contra hage
  rcases h.rest name ⟨instant, hwas, not_le.1 hage⟩ with hmem | hmem | hmem
  · exact hv hmem
  · exact hr hmem
  · cases hmem

/-- What is left is a quarantine again. -/
theorem quarantined (h : Midway maxAge now t root place names removed s) (hq : Quarantined t root place) :
    Quarantined s.tree root place where
  resolve := h.keeps.resolve hq.resolve
  directory := h.keeps place hq.directory
  plain name node hnode := hq.plain name node (h.node hnode).1
  size name node hnode := hq.size name node (h.node hnode).1
  short name node hnode := hq.short name node (h.node hnode).1

/-- What was at the place of an entry is there still, or nothing is. -/
theorem there_or_gone (h : Midway maxAge now t root place names removed s) {node : Node τ}
    (hwas : t.node? (place ++ [name]) = some node) :
    s.tree.node? (place ++ [name]) = some node ∨ s.tree.node? (place ++ [name]) = none := by
  cases hn : s.tree.node? (place ++ [name]) with
  | none => exact .inr rfl
  | some other => exact .inl ((h.node hn).1.symm.trans hwas)

/-- An entry that is gone is passed over. -/
theorem pass_gone (h : Midway maxAge now t root place (name :: names) removed s)
    (hshort : ¬ Unfollowed root name) (hgone : s.tree.node? (place ++ [name]) = none) :
    Midway maxAge now t root place names removed s :=
  h.pass hshort fun _ hfile => nomatch hgone.symm.trans hfile

/-- What was removed is what is gone and did not vanish. -/
theorem count (h : Midway maxAge now t root place names removed s) :
    removed.length =
      {name | (t.node? (place ++ [name])).isSome ∧ s.tree.node? (place ++ [name]) = none ∧
        name ∉ s.vanished}.ncard := by
  have hset : {name | (t.node? (place ++ [name])).isSome ∧ s.tree.node? (place ++ [name]) = none ∧
      name ∉ s.vanished} = (removed.toFinset : Set String) := by
    ext name
    rw [List.coe_toFinset]
    constructor
    · rintro ⟨hthere, hgone, hv⟩
      by_contra hr
      rw [← h.kept name hv hr, hgone] at hthere
      cases hthere
    · intro hmem
      obtain ⟨⟨instant, hfile, -⟩, hv⟩ := h.stale name hmem
      exact ⟨by rw [hfile]; rfl, h.gone name (.inr hmem), hv⟩
  rw [hset, Set.ncard_coe_finset, List.toFinset_card_of_nodup h.once]

theorem swept (h : Midway maxAge now t root place [] removed s) {deleted : List (Deletion τ)}
    (hcount : deleted.length = removed.length) : Swept maxAge now t place deleted s := by
  refine ⟨fun name node => ⟨fun hnode => ?_, fun ⟨hnode, hv, hfresh⟩ => ?_⟩, h.elsewhere,
    hcount.trans h.count⟩
  · obtain ⟨hwas, hv, -⟩ := h.node hnode
    exact ⟨hwas, hv, fun instant hfile => h.fresh (hfile ▸ hnode)⟩
  · have hr : name ∉ removed := fun hmem => by
      obtain ⟨⟨instant, hfile, hage⟩, -⟩ := h.stale name hmem
      exact hage.not_ge (hfresh instant (Option.some_inj.1 (hnode.symm.trans hfile)))
    exact (h.kept name hv hr).trans hnode

theorem cut (h : Midway maxAge now t root place names removed s) {deleted : List (Deletion τ)}
    (hcount : deleted.length = removed.length) : Cut maxAge now t place deleted s := by
  refine ⟨fun name node hnode => (h.node hnode).1, fun name hthere hgone => ?_, h.elsewhere,
    hcount.trans h.count⟩
  by_cases hv : name ∈ s.vanished
  · exact .inl hv
  by_cases hr : name ∈ removed
  · exact .inr (h.stale name hr).1
  · rw [← h.kept name hv hr, hgone] at hthere
    cases hthere

end Midway

/-! ## From visit to visit -/

/-- What a visit of an entry comes to. -/
inductive Visited (maxAge now : τ) (t : Files.Tree τ) (root : Path) (place : Place) (name : String)
    (names removed : List String) : Except Files.Fault (Option (Deletion τ)) → Shared τ → Prop
  | passed {s : Shared τ} : Midway maxAge now t root place names removed s →
      Visited maxAge now t root place name names removed (.ok none) s
  | removed {s : Shared τ} {deletion : Deletion τ} :
      Midway maxAge now t root place names (name :: removed) s →
      Visited maxAge now t root place name names removed (.ok (some deletion)) s
  | unfollowed {s : Shared τ} : Unfollowed root name →
      Midway maxAge now t root place (name :: names) removed s →
      Visited maxAge now t root place name names removed
        (.error (.refused .nameTooLong [(root.join Store.quarantineName).join name])) s

/-- A file that was seen to be stale is removed, unless it vanishes before that. -/
theorem remove_always (hq : Located t root place) (hshort : ¬ Unfollowed root name) {instant : τ}
    (hwas : t.node? (place ++ [name]) = some (.file instant)) (hage : maxAge < now - instant)
    (h : Midway maxAge now t root place (name :: names) removed s) :
    (Talk.remove ((root.join Store.quarantineName).join name)).Always (Shared.Answers place)
      (fun _ _ => True)
      (fun told s => match told with
        | .ok () => Midway maxAge now t root place names (name :: removed) s
        | .error fault => fault.isNotFound = true ∧ Midway maxAge now t root place names removed s) s := by
  refine Shared.asked fun u hu => ?_
  have hm := h.vanishes hu
  have hremove := Files.Tree.remove_eq (hq.resolve_entry hm.keeps ⟨_, hwas⟩ hshort)
  rcases hm.there_or_gone hwas with hfile | hgone
  · simp only [hfile] at hremove
    simp only [Yard.answer, List.not_mem_nil, if_false, hremove]
    exact hm.remove hshort hfile hage
  · simp only [hgone] at hremove
    simp only [Yard.answer, List.not_mem_nil, if_false, hremove]
    exact ⟨rfl, hm.pass_gone hshort hgone⟩

/-- **A visit** removes the entry if it is there and stale, and tells of it. -/
theorem visit_always (hq : Located t root place)
    (hnul : Unfollowed root name → (root.join Store.quarantineName).hasNul = false)
    (hname : ∃ node, t.node? (place ++ [name]) = some node)
    (h : Midway maxAge now t root place (name :: names) removed s) :
    (visit maxAge now ((root.join Store.quarantineName).join name)).Always (Shared.Answers place)
      (fun _ _ => True) (Visited maxAge now t root place name names removed) s := by
  refine Shared.asked fun u hu => ?_
  have hm := h.vanishes hu
  by_cases hshort : Unfollowed root name
  case pos =>
    have hlong : Files.Tree.pathLimit <
        Files.Tree.weight ((root.join Store.quarantineName).join name).parts := by
      rw [hq.parts_entry hname]
      exact hshort
    obtain ⟨node, hnode⟩ := hname
    have hpath : ((root.join Store.quarantineName).join name).hasNul = false := by
      rw [Path.hasNul_join _ (hq.plain name node hnode), hnul hshort]
    simp only [Yard.answer, Files.Tree.isFile_of_tooLong hlong, toldWhether, hpath]
    exact .unfollowed hshort hm
  simp only [Yard.answer, Files.Tree.isFile_eq (hq.resolve_entry hm.keeps hname hshort), toldWhether]
  cases hthere : u.tree.node? (place ++ [name]) with
  | none => exact .passed (hm.pass_gone hshort hthere)
  | some node =>
    cases node with
    | directory => exact .passed (hm.pass hshort fun _ hfile => nomatch hthere.symm.trans hfile)
    | brokenLink => exact .passed (hm.pass hshort fun _ hfile => nomatch hthere.symm.trans hfile)
    | file instant =>
      have hwas := (hm.node hthere).1
      refine Shared.asked fun u hu => ?_
      have hm := hm.vanishes hu
      simp only [Yard.answer, Files.Tree.read_eq (hq.resolve_entry hm.keeps hname hshort)]
      rcases hm.there_or_gone hwas with hfile | hgone
      case inr =>
        simp only [hgone]
        exact .passed (hm.pass_gone hshort hgone)
      simp only [hfile, told]
      by_cases hage : maxAge < now - instant
      · simp only [if_pos hage]
        refine Dialogue.Always.bind ((remove_always hq hshort hwas hage hm).imp fun reply s hend => ?_)
        cases reply with
        | ok _ => exact .removed hend
        | error fault =>
          simp only [missed, hend.1]
          exact .passed hend.2
      · simp only [if_neg hage]
        refine .passed (hm.pass hshort fun other hother => ?_)
        cases hfile.symm.trans hother
        exact not_lt.1 hage

/-- How a sweep ends: with no name left to visit, or at an entry whose path is too long. -/
inductive Ends (maxAge now : τ) (t : Files.Tree τ) (root : Path) (place : Place) :
    Course τ → Shared τ → Prop
  | finished {removed : List String} {deleted : List (Deletion τ)} {s : Shared τ} :
      deleted.length = removed.length → Midway maxAge now t root place [] removed s →
      Ends maxAge now t root place { deleted } s
  | unfollowed {names removed : List String} {name : String} {deleted : List (Deletion τ)}
      {s : Shared τ} :
      deleted.length = removed.length → Midway maxAge now t root place names removed s →
      (∃ node, t.node? (place ++ [name]) = some node) → Unfollowed root name →
      Ends maxAge now t root place
        { deleted, stopped := some (.refused .nameTooLong [(root.join Store.quarantineName).join name]) } s

/-- **All visits**, from any of them on. -/
theorem visitAll_always (hq : Located t root place)
    (hnul : ∀ name ∈ names, Unfollowed root name → (root.join Store.quarantineName).hasNul = false)
    (hnames : ∀ name ∈ names, ∃ node, t.node? (place ++ [name]) = some node)
    (h : Midway maxAge now t root place names removed s) {deleted : List (Deletion τ)}
    (hcount : deleted.length = removed.length) :
    (visitAll maxAge now (root.join Store.quarantineName) names deleted).Always (Shared.Answers place)
      (fun _ _ => True) (Ends maxAge now t root place) s := by
  induction names generalizing removed deleted s with
  | nil => exact .finished (by rw [List.length_reverse, hcount]) h
  | cons name names ih =>
    obtain ⟨hname, hnames⟩ := List.forall_mem_cons.1 hnames
    obtain ⟨hnul, hnuls⟩ := List.forall_mem_cons.1 hnul
    refine Dialogue.Always.bind ((visit_always hq hnul hname h).imp fun told s hvisited => ?_)
    cases hvisited with
    | passed hpassed => exact ih hnuls hnames hpassed hcount
    | removed hremoved =>
      exact ih hnuls hnames hremoved (by rw [List.length_cons, List.length_cons, hcount])
    | unfollowed hlong hm => exact .unfollowed (by rw [List.length_reverse, hcount]) hm hname hlong

/-- A sweep comes to the end of what it listed, or to an entry that it cannot follow. -/
theorem sweep_always (hq : Located t root place)
    (hnul : ∀ name node, t.node? (place ++ [name]) = some node → Unfollowed root name →
      (root.join Store.quarantineName).hasNul = false) :
    (sweep root maxAge now).Always (Shared.Answers place) (fun _ _ => True)
      (Ends maxAge now t root place) { tree := t } := by
  obtain ⟨before, -, hbefore⟩ := Files.Tree.names_eq hq.resolve
  have h : Midway maxAge now t root place before [] { tree := t } := Midway.start hbefore
  refine Shared.asked fun u hu => ?_
  have hm := h.vanishes hu
  have hdir : u.tree.isDirectory (root.join Store.quarantineName).parts = true :=
    hm.keeps.isDirectory (Files.Tree.isDirectory_iff.2 ⟨place, hq.resolve, hq.directory⟩)
  simp only [Yard.answer, Files.Tree.hasDirectory_of_isDirectory hdir, toldWhether]
  refine Shared.asked fun u hu => ?_
  have hm := hm.vanishes hu
  obtain ⟨there, hlist, hthere⟩ := Files.Tree.names_eq (hm.keeps.resolve hq.resolve)
  simp only [Yard.answer, hlist, told]
  have hwas (name : String) (hname : name ∈ there) : ∃ node, t.node? (place ++ [name]) = some node := by
    obtain ⟨node, hnode⟩ := (hthere name).1 hname
    exact ⟨node, (hm.node hnode).1⟩
  refine visitAll_always hq (fun name hname hlong => ?_) hwas (hm.listed hthere) rfl
  obtain ⟨node, hnode⟩ := hwas name hname
  exact hnul name node hnode hlong

/-- Where all paths can be followed, a sweep comes to its end. -/
theorem Quarantined.sweep_always (hq : Quarantined t root place) :
    (sweep root maxAge now).Always (Shared.Answers place) (fun _ _ => True)
      (fun course s => course.stopped = none ∧ ∃ removed, course.deleted.length = removed.length ∧
        Midway maxAge now t root place [] removed s) { tree := t } := by
  have hshort : ∀ name node, t.node? (place ++ [name]) = some node → ¬ Unfollowed root name :=
    fun name node hnode hlong => hlong.not_ge (hq.short name node hnode)
  refine (Quarantine.sweep_always hq.toLocated fun name node hnode hlong =>
    absurd hlong (hshort name node hnode)).imp fun course s hends => ?_
  cases hends with
  | finished hcount h => exact ⟨rfl, _, hcount, h⟩
  | unfollowed _ _ hname hlong =>
    obtain ⟨node, hnode⟩ := hname
    exact absurd hlong (hshort _ node hnode)

/-! ## One sweep, and another one -/

/-- A sweep that does not find a directory in a tree does nothing there. -/
theorem run_sweep_missing {y : Yard τ} {reply : Except Files.Fault Bool}
    (htold : toldWhether (root.join Store.quarantineName)
      (y.tree.hasDirectory (root.join Store.quarantineName).parts) = reply)
    (hmissing : reply ≠ .ok true) :
    (sweep root maxAge now).run Yard.answer y =
      (match reply with
        | .ok _ => {}
        | .error fault => { stopped := some fault }, y) := by
  simp only [sweep, Talk.isDirectory, Bind.bind, Dialogue.andThen, Dialogue.run, Yard.answer, htold]
  rcases reply with fault | (_ | _)
  · rfl
  · rfl
  · exact absurd rfl hmissing

/-- **A sweep that is stopped.** What stops it is the path of the quarantine or of an entry that is too
long to be followed. Of the files, stale ones are gone by then, and those that vanished; an entry with
such a path that did not vanish stops every sweep. -/
theorem sweep_stops (root : Path) (maxAge now : τ)
    (hnul : (root.join Store.quarantineName).hasNul = false) :
    (∀ t place, Located t root place →
      (sweep root maxAge now).Always (Shared.Answers place) (fun _ _ => True)
        (fun course s => Cut maxAge now t place course.deleted s ∧
          (∀ fault ∈ course.stopped, ∃ name node, t.node? (place ++ [name]) = some node ∧
            Unfollowed root name ∧
            fault = .refused .nameTooLong [(root.join Store.quarantineName).join name]) ∧
          (course.stopped = none → ∀ name node, t.node? (place ++ [name]) = some node →
            Unfollowed root name → name ∈ s.vanished))
        { tree := t }) ∧
    ∀ y : Yard τ, ∀ refusal,
      y.tree.hasDirectory (root.join Store.quarantineName).parts = .error refusal →
      (sweep root maxAge now).run Yard.answer y =
        ({ stopped := some (.refused refusal [root.join Store.quarantineName]) }, y) := by
  refine ⟨fun t place hq => (sweep_always hq fun _ _ _ _ => hnul).imp ?_, fun y refusal hrefused => ?_⟩
  · intro course s hends
    cases hends with
    | finished hcount h =>
      refine ⟨h.cut hcount, nofun, fun _ name node hnode hlong => ?_⟩
      exact (h.ahead name node hnode hlong).resolve_right List.not_mem_nil
    | unfollowed hcount h hname hlong =>
      obtain ⟨node, hnode⟩ := hname
      refine ⟨h.cut hcount, ?_, nofun⟩
      rintro _ ⟨⟩
      exact ⟨_, node, hnode, hlong, rfl⟩
  · have htold : toldWhether (root.join Store.quarantineName)
        (y.tree.hasDirectory (root.join Store.quarantineName).parts) =
          .error (.refused refusal [root.join Store.quarantineName]) := by
      rw [hrefused, toldWhether, hnul]
      rfl
    exact run_sweep_missing htold (by simp)

end Sweep

end UploadDepot.Quarantine

/-
What the operations of a file system leave as it was.

A path leads to one place, whatever is there (`leadsTo`); what is there only
decides whether it can be followed. Following asks for directories alone, so
a path that can be followed stays so as long as directories stay directories
(`Keeps`), and every operation here keeps them. Making directories adds
directories on the way of the path and changes nothing else (`Grown`), so the
content of `files` stays the same.
-/
import Mathlib.Data.List.Infix
import Mathlib.Logic.Function.Basic
import UploadDepot.Files.Tree
import UploadDepot.Proofs.Table

namespace UploadDepot.Files

/-- The content of a node that is a file. -/
def Node.content? {α : Type} : Node α → Option α
  | .file content => some content
  | .directory | .brokenLink => none

namespace Tree

variable {α : Type} {t t' t'' : Tree α} {start place : Place} {name : String}
  {names path new above : List String}

/-! ## Nodes -/

@[simp] theorem node?_top : t.node? [] = some .directory := if_pos rfl

theorem node?_set (h : place ≠ []) (n : Node α) :
    node? (t.set place n) = Function.update t.node? place (some n) := by
  funext p
  by_cases hp : p = place
  · subst hp
    rw [Function.update_self, node?, if_neg h, Table.get?_set_self]
  · rw [Function.update_of_ne hp, node?, node?, Table.get?_set_other t n hp]

theorem node?_erase (h : place ≠ []) :
    node? (t.erase place) = Function.update t.node? place none := by
  funext p
  by_cases hp : p = place
  · subst hp
    rw [Function.update_self, node?, if_neg h, Table.get?_erase_self]
  · rw [Function.update_of_ne hp, node?, node?, Table.get?_erase_other t hp]

theorem node?_set_self (h : place ≠ []) (n : Node α) : node? (t.set place n) place = some n := by
  rw [node?, if_neg h]
  exact Table.get?_set_self t place n

theorem node?_set_other {p : Place} (h : p ≠ place) (n : Node α) :
    node? (t.set place n) p = t.node? p := by
  rw [node?, node?]
  split
  · rfl
  · exact Table.get?_set_other t n h

theorem node?_erase_other {p : Place} (h : p ≠ place) : node? (t.erase place) p = t.node? p := by
  rw [node?, node?]
  split
  · rfl
  · exact Table.get?_erase_other t h

/-! ## Files -/

/-- What is in files, by their places. -/
def files (t : Tree α) (place : Place) : Option α := (t.node? place).bind Node.content?

theorem files_congr (h : t'.node? = t.node?) : t'.files = t.files := by
  funext place
  rw [files, files, h]

/-- Where one node was put or taken away. -/
theorem files_update {n : Option (Node α)} (h : t'.node? = Function.update t.node? place n) :
    t'.files = Function.update t.files place (n.bind Node.content?) := by
  funext p
  rw [files, h]
  by_cases hp : p = place
  · subst hp
    simp
  · simp [hp, files]

/-! ## The place of a path -/

/-- The place that names lead to, whatever is there. -/
def leadsTo : Place → List String → Place
  | start, [] => start
  | start, name :: names => leadsTo (if name = ".." then start.dropLast else start ++ [name]) names

theorem leadsTo_append (start : Place) (names more : List String) :
    leadsTo start (names ++ more) = leadsTo (leadsTo start names) more := by
  induction names generalizing start with
  | nil => rfl
  | cons name names ih => exact ih _

theorem leadsTo_snoc (start : Place) (names : List String) (h : name ≠ "..") :
    leadsTo start (names ++ [name]) = leadsTo start names ++ [name] := by
  rw [leadsTo_append, leadsTo, if_neg h, leadsTo]

theorem follow_leadsTo (h : follow t start names = .ok place) : place = leadsTo start names := by
  induction names generalizing start with
  | nil =>
    cases h
    rfl
  | cons name names ih =>
    unfold follow at h
    unfold leadsTo
    by_cases hup : name = ".."
    · rw [if_pos hup] at h ⊢
      exact ih h
    rw [if_neg hup] at h ⊢
    split at h
    · cases h
    · split at h
      · rename_i hlast
        cases h
        rw [hlast, leadsTo]
      · split at h
        · exact ih h
        · cases h
        all_goals cases h

/-- The bytes of a path, with a slash before every name. -/
def weight (path : List String) : Nat := path.foldl (fun n name => n + 1 + name.utf8ByteSize) 0

theorem weight_snoc (path : List String) (name : String) :
    weight (path ++ [name]) = weight path + 1 + name.utf8ByteSize := by
  rw [weight, List.foldl_append]
  rfl

theorem resolve_eq (h : weight path ≤ pathLimit) : t.resolve path = follow t [] path :=
  if_neg (Nat.not_lt.2 h)

theorem weight_of_resolve (h : t.resolve path = .ok place) : weight path ≤ pathLimit := by
  unfold resolve at h
  split at h
  · cases h
  · rename_i hlen
    exact Nat.not_lt.1 hlen

theorem follow_of_resolve (h : t.resolve path = .ok place) : follow t [] path = .ok place := by
  rw [← resolve_eq (weight_of_resolve h)]
  exact h

theorem resolve_leadsTo (h : t.resolve path = .ok place) : place = leadsTo [] path :=
  follow_leadsTo (follow_of_resolve h)

/-- Whatever is at the top of a place and on the way to it is a directory. -/
def Standing (t : Tree α) (place : Place) : Prop :=
  ∀ p, p <+: place → t.node? p = some .directory

theorem Standing.top : Standing t [] := by
  intro p hp
  rw [List.prefix_nil.1 hp]
  exact node?_top

theorem Standing.up (h : Standing t place) : Standing t place.dropLast :=
  fun p hp => h p (hp.trans (List.dropLast_prefix place))

theorem Standing.down (h : Standing t place) (hn : t.node? (place ++ [name]) = some .directory) :
    Standing t (place ++ [name]) := by
  intro p hp
  rcases List.prefix_concat_iff.1 hp with rfl | hp
  · exact hn
  · exact h p hp

/-- One name further, from where the names before it lead. -/
theorem follow_snoc (hs : Standing t start) (hname : name ≠ "..")
    (hlen : name.utf8ByteSize ≤ nameLimit) :
    follow t start (names ++ [name]) =
      match follow t start names with
      | .error e => .error e
      | .ok place =>
        match t.node? place with
        | some .directory => .ok (place ++ [name])
        | some (.file _) => .error .notDirectory
        | some .brokenLink | none => .error .notFound := by
  induction names generalizing start with
  | nil =>
    simp only [List.nil_append, follow, if_neg hname, if_neg (Nat.not_lt.2 hlen), if_true]
    rw [hs start List.prefix_rfl]
  | cons n names ih =>
    rw [List.cons_append, follow, follow]
    by_cases hup : n = ".."
    · rw [if_pos hup, if_pos hup]
      exact ih hs.up
    rw [if_neg hup, if_neg hup]
    split
    · rfl
    rw [if_neg (List.append_ne_nil_of_right_ne_nil _ (List.cons_ne_nil _ _))]
    cases hn : t.node? (start ++ [n]) with
    | none =>
      by_cases hlast : names = []
      · simp only [if_pos hlast, hn]
      · simp only [if_neg hlast]
    | some node =>
      by_cases hlast : names = []
      · subst hlast
        cases node with
        | directory =>
          simp only [if_true, hn]
          rw [ih (hs.down hn), follow]
          simp only [hn]
        | file _ => simp only [if_true, hn]
        | brokenLink => simp only [if_true, hn]
      · cases node with
        | directory =>
          simp only [if_neg hlast]
          exact ih (hs.down hn)
        | file _ => simp only [if_neg hlast]
        | brokenLink => simp only [if_neg hlast]

/-! ## What is found at a place -/

theorem status_eq (h : t.resolve path = .ok place) :
    t.status path =
      match t.node? place with
      | some (.file content) => .ok (.file content)
      | some .directory => .ok .directory
      | some .brokenLink | none => .error .notFound := by
  rw [status, h]
  rfl

theorem isDirectory_iff :
    t.isDirectory path = true ↔ ∃ place, t.resolve path = .ok place ∧ t.node? place = some .directory := by
  unfold isDirectory
  constructor
  · intro h
    cases hr : t.resolve path with
    | error e => simp [status, hr, bind, Except.bind] at h
    | ok place =>
      rw [status_eq hr] at h
      refine ⟨place, rfl, ?_⟩
      split at h
      · rename_i hs
        split at hs <;> simp_all
      · cases h
  · rintro ⟨place, hr, hn⟩
    rw [status_eq hr, hn]

theorem status_of_tooLong (h : pathLimit < weight path) : t.status path = .error .nameTooLong := by
  rw [status, resolve, ← weight, if_pos h]
  rfl

theorem hasDirectory_of_isDirectory (h : t.isDirectory path = true) : t.hasDirectory path = .ok true := by
  obtain ⟨place, hr, hn⟩ := isDirectory_iff.1 h
  rw [hasDirectory, status_eq hr, hn, h]

theorem read_eq (h : t.resolve path = .ok place) :
    t.read path =
      match t.node? place with
      | some (.file content) => .ok content
      | some .directory => .error .isDirectory
      | some .brokenLink | none => .error .notFound := by
  rw [read, status_eq h]
  rcases t.node? place with _ | (_ | _ | _) <;> rfl

theorem isFile_eq (h : t.resolve path = .ok place) :
    t.isFile path =
      .ok (match t.node? place with
        | some (.file _) => true
        | _ => false) := by
  rw [isFile, status_eq h]
  rcases t.node? place with _ | (_ | _ | _) <;> rfl

theorem isFile_of_tooLong (h : pathLimit < weight path) : t.isFile path = .error .nameTooLong := by
  rw [isFile, status_of_tooLong h]

theorem holds_true (h : t.holds path = .ok true) :
    ∃ place node, t.resolve path = .ok place ∧ t.node? place = some node := by
  unfold holds at h
  cases hr : t.resolve path with
  | error e =>
    have hs : t.status path = .error e := by rw [status, hr]; rfl
    rw [hs] at h
    cases e <;> simp at h
  | ok place =>
    cases hn : t.node? place with
    | none =>
      rw [status_eq hr, hn] at h
      cases h
    | some node => exact ⟨place, node, rfl, hn⟩

theorem holds_error {e : Refusal} (h : t.holds path = .error e) :
    e = .nameTooLong ∧ t.resolve path = .error .nameTooLong := by
  unfold holds at h
  cases hr : t.resolve path with
  | error e' =>
    have hs : t.status path = .error e' := by rw [status, hr]; rfl
    rw [hs] at h
    cases e' <;> simp at h ⊢
    exact h.symm
  | ok place =>
    rw [status_eq hr] at h
    rcases hn : t.node? place with _ | (_ | _ | _) <;> rw [hn] at h <;> cases h

/-- A path that was looked at is not too long. -/
theorem weight_of_holds {there : Bool} (h : t.holds path = .ok there) : weight path ≤ pathLimit := by
  by_contra hlong
  rw [holds, status_of_tooLong (Nat.not_le.1 hlong)] at h
  cases h

theorem write_eq (h : t.resolve path = .ok place) (content : α) :
    t.write path content =
      match t.node? place with
      | some .directory => .error .isDirectory
      | _ => .ok (t.set place (.file content)) := by
  rw [write, h]
  rcases hn : t.node? place with _ | (_ | _ | _) <;> simp [bind, Except.bind, hn] <;> rfl

theorem makeDirectory_eq (h : t.resolve path = .ok place) :
    t.makeDirectory path =
      if (t.node? place).isSome then .error .alreadyThere else .ok (t.set place .directory) := by
  rw [makeDirectory, h]
  simp only [bind, Except.bind]
  split <;> rfl

theorem link_eq {content : α} (hread : t.read path = .ok content)
    (h : t.resolve new = .ok place) :
    t.link path new =
      if (t.node? place).isSome then .error .alreadyThere
      else .ok (t.set place (.file content)) := by
  rw [link, hread, h]
  simp only [bind, Except.bind]
  split <;> rfl

/-- What is short enough is not refused for its length. -/
theorem follow_ne_nameTooLong (h : ∀ name ∈ names, name.utf8ByteSize ≤ nameLimit) :
    follow t start names ≠ .error .nameTooLong := by
  induction names generalizing start with
  | nil => nofun
  | cons name names ih =>
    obtain ⟨hname, hnames⟩ := List.forall_mem_cons.1 h
    rw [follow]
    split
    · exact ih hnames
    rw [if_neg (Nat.not_lt.2 hname)]
    split
    · nofun
    split
    · exact ih hnames
    all_goals nofun

/-- A path is not refused for what stands in the way. -/
theorem follow_error {e : Refusal} (h : follow t start names = .error e) : e ≠ .alreadyThere := by
  induction names generalizing start with
  | nil => cases h
  | cons name names ih =>
    rw [follow] at h
    split at h
    · exact ih h
    split at h
    · cases h
      nofun
    split at h
    · cases h
    split at h
    · exact ih h
    all_goals
      cases h
      nofun

theorem resolve_error {e : Refusal} (h : t.resolve path = .error e) : e ≠ .alreadyThere := by
  unfold resolve at h
  split at h
  · cases h
    nofun
  · exact follow_error h

/-- What is read stands where the path leads. -/
theorem read_cases (t : Tree α) (path : List String) :
    (∃ e, t.read path = .error e ∧ e ≠ .alreadyThere) ∨
      ∃ content, t.read path = .ok content ∧ t.node? (leadsTo [] path) = some (.file content) := by
  cases hr : t.resolve path with
  | error e => exact .inl ⟨e, by rw [read, status, hr]; rfl, resolve_error hr⟩
  | ok place =>
    obtain rfl := resolve_leadsTo hr
    rw [read_eq hr]
    split
    · rename_i content hn
      exact .inr ⟨content, rfl, hn⟩
    all_goals exact .inl ⟨_, rfl, nofun⟩

/-- A link is refused, or stopped by what stands in its way, or made. -/
theorem link_cases (t : Tree α) (path new : List String) :
    (∃ e, t.link path new = .error e ∧ e ≠ .alreadyThere) ∨
    (∃ node, t.link path new = .error .alreadyThere ∧ t.node? (leadsTo [] new) = some node) ∨
    (∃ content, t.link path new = .ok (t.set (leadsTo [] new) (.file content)) ∧
      t.node? (leadsTo [] path) = some (.file content) ∧ t.node? (leadsTo [] new) = none) := by
  rcases read_cases t path with ⟨e, hread, he⟩ | ⟨content, hread, hcontent⟩
  · exact .inl ⟨e, by rw [link, hread]; rfl, he⟩
  cases hr : t.resolve new with
  | error e => exact .inl ⟨e, by rw [link, hread, hr]; rfl, resolve_error hr⟩
  | ok place =>
    obtain rfl := resolve_leadsTo hr
    rw [link_eq hread hr]
    cases hn : t.node? (leadsTo [] new) with
    | some node => exact .inr (.inl ⟨node, rfl, rfl⟩)
    | none => exact .inr (.inr ⟨content, rfl, hcontent, rfl⟩)

theorem link_missing (new : List String) (h : t.node? (leadsTo [] path) = none) :
    ∃ e, t.link path new = .error e ∧ e ≠ .alreadyThere := by
  rcases read_cases t path with ⟨e, hread, he⟩ | ⟨content, _, hcontent⟩
  · exact ⟨e, by rw [link, hread]; rfl, he⟩
  · rw [h] at hcontent
    cases hcontent

theorem remove_eq (h : t.resolve path = .ok place) :
    t.remove path =
      match t.node? place with
      | none => .error .notFound
      | some .directory => .error .isDirectory
      | some _ => .ok (t.erase place) := by
  rw [remove, h]
  rcases hn : t.node? place with _ | (_ | _ | _) <;> simp [bind, Except.bind, hn] <;> rfl

/-- The names in a directory are those of the nodes right under its place. -/
theorem names_eq (h : t.resolve path = .ok place) :
    ∃ ns, t.names path = .ok ns ∧
      ∀ name, name ∈ ns ↔ ∃ node, t.node? (place ++ [name]) = some node := by
  refine ⟨_, by rw [names, h]; rfl, fun name => ?_⟩
  have hthere : (∃ node, t.node? (place ++ [name]) = some node) ↔
      place ++ [name] ∈ t.map Prod.fst := by
    rw [← Option.isSome_iff_exists, node?,
      if_neg (List.append_ne_nil_of_right_ne_nil _ (List.cons_ne_nil _ _)), Table.isSome_get?]
  rw [hthere, List.mem_map, List.mem_filterMap]
  refine exists_congr fun (p, _) => and_congr_right fun _ => ?_
  constructor
  · dsimp only
    intro hlast
    by_cases hchild : p.length = place.length + 1 ∧ place.isPrefixOf p = true
    · obtain ⟨rest, rfl⟩ := List.isPrefixOf_iff_prefix.1 hchild.2
      obtain ⟨last, rfl⟩ := List.length_eq_one_iff.1
        (Nat.add_left_cancel (List.length_append ▸ hchild.1))
      simpa [hchild] using hlast
    · rw [if_neg hchild] at hlast
      cases hlast
  · rintro rfl
    simp

/-! ## Directories stay -/

/-- Every directory is still one. -/
def Keeps (t t' : Tree α) : Prop := ∀ p, t.node? p = some .directory → t'.node? p = some .directory

theorem Keeps.trans (h : Keeps t t') (h' : Keeps t' t'') : Keeps t t'' := fun p hp => h' p (h p hp)

/-- A node in the place of something that is no directory. -/
theorem keeps_set {n : Node α} (h : t.node? place ≠ some .directory) : Keeps t (t.set place n) := by
  intro p hp
  have hne : p ≠ place := fun he => h (he ▸ hp)
  rw [node?_set_other hne]
  exact hp

theorem keeps_erase (h : t.node? place ≠ some .directory) : Keeps t (t.erase place) := by
  intro p hp
  have hne : p ≠ place := fun he => h (he ▸ hp)
  rw [node?_erase_other hne]
  exact hp

theorem Keeps.follow (hk : Keeps t t') (h : t.follow start names = .ok place) :
    t'.follow start names = .ok place := by
  induction names generalizing start with
  | nil => exact h
  | cons name names ih =>
    rw [Tree.follow] at h ⊢
    by_cases hup : name = ".."
    · rw [if_pos hup] at h ⊢
      exact ih h
    rw [if_neg hup] at h ⊢
    split at h
    · cases h
    rw [if_neg (by assumption)]
    split at h
    · rw [if_pos (by assumption)]
      exact h
    rw [if_neg (by assumption)]
    split at h
    · rename_i hn
      rw [hk _ hn]
      exact ih h
    all_goals cases h

theorem Keeps.resolve (hk : Keeps t t') (h : t.resolve path = .ok place) :
    t'.resolve path = .ok place := by
  rw [resolve_eq (weight_of_resolve h)]
  exact hk.follow (follow_of_resolve h)

theorem Keeps.isDirectory (hk : Keeps t t') (h : t.isDirectory path = true) :
    t'.isDirectory path = true := by
  obtain ⟨place, hr, hn⟩ := isDirectory_iff.1 h
  exact isDirectory_iff.2 ⟨place, hk.resolve hr, hk place hn⟩

/-- What stands right under a directory has its place. -/
theorem resolve_child (h : t.isDirectory path = true) (hname : name ≠ "..")
    (hlen : name.utf8ByteSize ≤ nameLimit) (hweight : weight (path ++ [name]) ≤ pathLimit) :
    t.resolve (path ++ [name]) = .ok (leadsTo [] path ++ [name]) := by
  obtain ⟨place, hr, hn⟩ := isDirectory_iff.1 h
  rw [resolve_eq hweight, follow_snoc Standing.top hname hlen, follow_of_resolve hr]
  simp only [hn]
  rw [resolve_leadsTo hr]

/-- A path that is refused one name further on is refused itself, or leads to no directory. -/
theorem resolve_child_error {e : Refusal} (h : t.resolve (path ++ [name]) = .error e)
    (hname : name ≠ "..") (hlen : name.utf8ByteSize ≤ nameLimit)
    (hweight : weight (path ++ [name]) ≤ pathLimit) :
    t.resolve path = .error e ∨
      ∃ place, t.resolve path = .ok place ∧
        ((∃ content, t.node? place = some (.file content) ∧ e = .notDirectory) ∨ e = .notFound) := by
  have hpath : weight path ≤ pathLimit := by
    rw [weight_snoc] at hweight
    omega
  rw [resolve_eq hweight, follow_snoc Standing.top hname hlen] at h
  rw [resolve_eq hpath]
  cases hf : follow t [] path with
  | error e' =>
    rw [hf] at h
    exact .inl h
  | ok place =>
    simp only [hf] at h
    refine .inr ⟨place, rfl, ?_⟩
    split at h
    · cases h
    · rename_i content hn
      cases h
      exact .inl ⟨content, hn, rfl⟩
    all_goals
      cases h
      exact .inr rfl

/-- No name that was followed is too long. -/
theorem size_of_follow (h : follow t start (names ++ [name]) = .ok place) (hname : name ≠ "..") :
    name.utf8ByteSize ≤ nameLimit := by
  induction names generalizing start with
  | nil =>
    rw [List.nil_append, follow, if_neg hname] at h
    split at h
    · cases h
    · rename_i hlen
      exact Nat.not_lt.1 hlen
  | cons n names ih =>
    rw [List.cons_append, follow] at h
    split at h
    · exact ih h
    split at h
    · cases h
    rw [if_neg (List.append_ne_nil_of_right_ne_nil _ (List.cons_ne_nil _ _))] at h
    split at h
    · exact ih h
    all_goals cases h

/-- What is found one name further on stands right under a directory. -/
theorem isDirectory_of_child (h : t.resolve (path ++ [name]) = .ok place) (hname : name ≠ "..") :
    t.isDirectory path = true := by
  have hlen := size_of_follow (follow_of_resolve h) hname
  have hweight := weight_of_resolve h
  have hpath : weight path ≤ pathLimit := by
    rw [weight_snoc] at hweight
    omega
  rw [resolve_eq hweight, follow_snoc Standing.top hname hlen] at h
  cases hf : follow t [] path with
  | error e =>
    rw [hf] at h
    cases h
  | ok above =>
    simp only [hf] at h
    split at h
    · rename_i hn
      exact isDirectory_iff.2 ⟨above, (resolve_eq hpath).trans hf, hn⟩
    all_goals cases h

/-! ## Directories that are made -/

/-- Directories were added on the way of a path, and nothing else was changed. -/
def Grown (path : List String) (t t' : Tree α) : Prop :=
  ∀ p, t'.node? p = t.node? p ∨
    (t.node? p = none ∧ t'.node? p = some .directory ∧ ∃ above, above <+: path ∧ p = leadsTo [] above)

theorem Grown.refl (path : List String) (t : Tree α) : Grown path t t := fun _ => .inl rfl

theorem Grown.trans (h : Grown path t t') (h' : Grown path t' t'') : Grown path t t'' := by
  intro p
  rcases h' p with hsame | ⟨hnone, hdir, hway⟩
  · rw [hsame]
    exact h p
  · rcases h p with hsame | ⟨_, hdir', _⟩
    · exact .inr ⟨hsame ▸ hnone, hdir, hway⟩
    · rw [hdir'] at hnone
      cases hnone

theorem Grown.longer (h : Grown above t t') (hp : above <+: path) : Grown path t t' := by
  intro p
  refine (h p).imp_right ?_
  rintro ⟨hnone, hdir, a, ha, rfl⟩
  exact ⟨hnone, hdir, a, ha.trans hp, rfl⟩

/-- No file comes to a place that was free, or that of a directory. -/
theorem Grown.vacant {p : Place} (h : Grown path t t')
    (hp : t.node? p = none ∨ t.node? p = some .directory) :
    t'.node? p = none ∨ t'.node? p = some .directory := by
  rcases h p with hsame | ⟨_, hmade, _⟩
  · rwa [hsame]
  · exact .inr hmade

/-- No directory is a file. -/
theorem Grown.files_eq (h : Grown path t t') : t'.files = t.files := by
  funext p
  rcases h p with hsame | ⟨hnone, hdir, _⟩
  · rw [files, files, hsame]
  · rw [files, files, hnone, hdir]
    rfl

theorem Grown.keeps (h : Grown path t t') : Keeps t t' := by
  intro p hp
  rcases h p with hsame | ⟨hnone, _, _⟩
  · rw [hsame, hp]
  · rw [hp] at hnone
    cases hnone

theorem makeDirectory_grown (h : t.makeDirectory path = .ok t') :
    Grown path t t' ∧ t'.isDirectory path = true := by
  cases hr : t.resolve path with
  | error e => simp [makeDirectory, hr, bind, Except.bind] at h
  | ok place =>
    rw [makeDirectory_eq hr] at h
    split at h
    · cases h
    rename_i hfree
    have hnone : t.node? place = none := by simpa using hfree
    have hne : place ≠ [] := fun he => by simp [he] at hnone
    cases h
    have hgrown : Grown path t (t.set place .directory) := by
      intro p
      by_cases hp : p = place
      · subst hp
        exact .inr ⟨hnone, node?_set_self hne _, path, List.prefix_rfl, resolve_leadsTo hr⟩
      · exact .inl (node?_set_other hp _)
    exact ⟨hgrown, isDirectory_iff.2 ⟨place, hgrown.keeps.resolve hr, node?_set_self hne _⟩⟩

theorem makeLast_grown (h : t.makeLast path = .ok t') :
    Grown path t t' ∧ t'.isDirectory path = true := by
  unfold makeLast at h
  split at h
  · rename_i hmade
    cases h
    exact makeDirectory_grown hmade
  · cases h
  · split at h
    · rename_i hdir
      cases h
      exact ⟨Grown.refl path t, hdir⟩
    · cases h

/-- **Making directories** adds those that are missing on the way, and after a success the last one
is there. -/
theorem makeDirectories_grown (t : Tree α) (path : List String) :
    Grown path t (t.makeDirectories path).2 ∧
      ((t.makeDirectories path).1 = .ok () → (t.makeDirectories path).2.isDirectory path = true) := by
  fun_induction makeDirectories t path with
  | case1 path made hmade =>
    exact ⟨(makeLast_grown hmade).1, fun _ => (makeLast_grown hmade).2⟩
  | case2 => exact ⟨Grown.refl _ _, nofun⟩
  | case3 path parts hmissing hne e above habove ih =>
    rw [habove] at ih
    exact ⟨ih.1.longer (List.dropLast_prefix path), nofun⟩
  | case4 path parts hmissing hne above habove made hmade ih =>
    rw [habove] at ih
    obtain ⟨hgrown, hdir⟩ := makeLast_grown hmade
    exact ⟨(ih.1.longer (List.dropLast_prefix path)).trans hgrown, fun _ => hdir⟩
  | case5 path parts hmissing hne above habove e hrefused ih =>
    rw [habove] at ih
    exact ⟨ih.1.longer (List.dropLast_prefix path), nofun⟩
  | case6 => exact ⟨Grown.refl _ _, nofun⟩

theorem makeLast_of_resolve (h : t.resolve path = .ok place)
    (hn : t.node? place = none ∨ t.node? place = some .directory) :
    ∃ made, t.makeLast path = .ok made := by
  rw [makeLast, makeDirectory_eq h]
  rcases hn with hnone | hdir
  · simp only [hnone, Option.isSome_none, Bool.false_eq_true, if_false]
    exact ⟨_, rfl⟩
  · have : t.isDirectory path = true := isDirectory_iff.2 ⟨place, h, hdir⟩
    simp only [hdir, Option.isSome_some, if_true, this]
    exact ⟨_, rfl⟩

theorem makeLast_of_isDirectory (h : t.isDirectory path = true) : t.makeLast path = .ok t := by
  obtain ⟨place, hr, hn⟩ := isDirectory_iff.1 h
  simp only [makeLast, makeDirectory_eq hr, hn, Option.isSome_some, if_true, h]

theorem makeDirectories_of_isDirectory (h : t.isDirectory path = true) :
    t.makeDirectories path = (.ok (), t) := by
  rw [makeDirectories, makeLast_of_isDirectory h]

/-- A path that can be made is not refused for anything but missing directories. -/
theorem resolve_of_makeDirectories (h : (t.makeDirectories path).1 = .ok ()) :
    t.resolve path = .error .notFound ∨
      ∃ place, t.resolve path = .ok place ∧
        (t.node? place = none ∨ t.node? place = some .directory) := by
  cases hr : t.resolve path with
  | error e =>
    left
    have hdir : t.isDirectory path = false := by
      rw [Bool.eq_false_iff]
      intro hdir
      obtain ⟨_, hok, _⟩ := isDirectory_iff.1 hdir
      rw [hr] at hok
      cases hok
    have hmake : t.makeDirectory path = .error e := by rw [makeDirectory, hr]; rfl
    rw [makeDirectories, makeLast, hmake] at h
    cases e with
    | notFound => rfl
    | _ =>
      simp only [hdir, Bool.false_eq_true, if_false] at h
      cases h
  | ok place =>
    right
    refine ⟨place, rfl, ?_⟩
    cases hn : t.node? place with
    | none => exact .inl rfl
    | some n =>
      right
      rw [makeDirectories, makeLast, makeDirectory_eq hr, hn] at h
      simp only [Option.isSome_some, if_true] at h
      cases hdir : t.isDirectory path with
      | true =>
        obtain ⟨place', hr', hn'⟩ := isDirectory_iff.1 hdir
        rw [hr] at hr'
        cases hr'
        rw [← hn, hn']
      | false =>
        rw [hdir] at h
        simp only [Bool.false_eq_true, if_false] at h
        cases h

/-- Where directories can be made, so can one more below them, unless something stands in its place. -/
theorem makeDirectories_child (h : (t.makeDirectories path).1 = .ok ()) (hname : name ≠ "..")
    (hlen : name.utf8ByteSize ≤ nameLimit) (hweight : weight (path ++ [name]) ≤ pathLimit)
    (hn : t.node? (leadsTo [] path ++ [name]) = none ∨
      t.node? (leadsTo [] path ++ [name]) = some .directory) :
    (t.makeDirectories (path ++ [name])).1 = .ok () := by
  have hplace : ∀ {t' : Tree α} {place}, t'.resolve (path ++ [name]) = .ok place →
      place = leadsTo [] path ++ [name] := fun hr => by
    rw [resolve_leadsTo hr, leadsTo_snoc _ _ hname]
  cases hr : t.resolve (path ++ [name]) with
  | ok place =>
    obtain ⟨made, hmade⟩ := makeLast_of_resolve hr (hplace hr ▸ hn)
    rw [makeDirectories, hmade]
  | error e =>
    have he : e = .notFound := by
      rcases resolve_child_error hr hname hlen hweight with hrefused | ⟨place, hok, hfile | rfl⟩
      · rcases resolve_of_makeDirectories h with hmissing | ⟨_, hok, _⟩
        · rw [hmissing] at hrefused
          cases hrefused
          rfl
        · rw [hok] at hrefused
          cases hrefused
      · obtain ⟨content, hfile, _⟩ := hfile
        rcases resolve_of_makeDirectories h with hmissing | ⟨place', hok', hn'⟩
        · rw [hmissing] at hok
          cases hok
        · rw [hok] at hok'
          cases hok'
          rcases hn' with hn' | hn' <;> cases hfile.symm.trans hn'
      · rfl
    subst he
    obtain ⟨hgrown, hdir⟩ := makeDirectories_grown t path
    have hdir := hdir h
    have hchild := resolve_child hdir hname hlen hweight
    have hn' : (t.makeDirectories path).2.node? (leadsTo [] path ++ [name]) = none ∨
        (t.makeDirectories path).2.node? (leadsTo [] path ++ [name]) = some .directory := by
      rcases hgrown (leadsTo [] path ++ [name]) with hsame | ⟨_, hmade, _⟩
      · rw [hsame]
        exact hn
      · exact .inr hmade
    obtain ⟨made, hmade⟩ := makeLast_of_resolve hchild hn'
    have hmake : t.makeDirectory (path ++ [name]) = .error .notFound := by
      rw [makeDirectory, hr]
      rfl
    have habove : t.makeDirectories (path ++ [name]).dropLast =
        (.ok (), (t.makeDirectories path).2) := by
      rw [List.dropLast_concat, ← h]
    rw [makeDirectories, makeLast, hmake]
    simp only [if_neg (List.append_ne_nil_of_right_ne_nil path (List.cons_ne_nil name [])),
      habove, hmade]

end Tree

end UploadDepot.Files

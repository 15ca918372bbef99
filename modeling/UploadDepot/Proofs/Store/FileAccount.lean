/-
How a commit to files accounts for itself, on any disk and below any root.

Here the root may also be no path at all, or one that is too long to be
followed: the first question finds that out, or making directories does. After
that question a commit answers for every fault it meets: a failure of the
system becomes one of the storage, a link that found something in its way
makes a duplicate, and what is no failure of the system goes on as it is
(`commit_accounted`). Whatever happens, files are only ever added to by the
object itself.
-/
import UploadDepot.Proofs.Store.FileFrame

namespace UploadDepot.Store

open Dialogue (Exchange)

namespace FileStore

variable {s : FileStore} {digest : String} {d : Disk} {mishaps : Mishap → Prop}

/-- The result of writing, as a commit reports it. -/
def reported (final : Files.Path) : Except Files.Fault Bool → Except Fault Bool
  | .ok created => .ok created
  | .error fault =>
    if fault.isSystem then .error (.storage (.writing final fault)) else .error (.stray fault)

/-- How a commit goes, by the answer to its first question. -/
inductive Course (final : Files.Path) : List (Exchange DiskRequest.Reply) → Except Fault Bool → Prop
  | unseen (fault : Files.Fault) :
      Course final [⟨.holds final, .error fault⟩] (.error (.stray fault))
  | present : Course final [⟨.holds final, .ok true⟩] (.ok false)
  | absent {told : List (Exchange DiskRequest.Reply)} {outcome : Except Files.Fault Bool} :
      Explains told outcome →
      Course final (⟨.holds final, .ok false⟩ :: told) (reported final outcome)

/-- What the courses have in common: the result is told from the first answer, and from the faults
that were met after it. -/
theorem Course.accounts {final : Files.Path} {told : List (Exchange DiskRequest.Reply)}
    {value : Except Fault Bool} (h : Course final told value) :
    ∃ found rest, told = ⟨.holds final, found⟩ :: rest ∧
      (∀ fault, found = .error fault → value = .error (.stray fault)) ∧
      (found = .ok true → value = .ok false) ∧
      (∀ e ∈ rest, ∀ fault ∈ e.1.fault? e.2, value = reported final (e.1.verdict fault)) ∧
      (found = .ok false → value = .ok true ∨
        ∃ e ∈ rest, ∃ fault ∈ e.1.fault? e.2, value = reported final (e.1.verdict fault)) := by
  cases h with
  | unseen fault => exact ⟨_, [], rfl, fun _ he => by cases he; rfl, nofun, nofun, nofun⟩
  | present => exact ⟨_, [], rfl, nofun, fun _ => rfl, nofun, nofun⟩
  | absent hexplains =>
    refine ⟨_, _, rfl, nofun, nofun, fun e he fault hfault => ?_, fun _ => ?_⟩
    · rw [hexplains.met e he fault hfault]
    · rcases hexplains.cause with hcreated | ⟨e, he, fault, hfault, houtcome⟩
      · exact .inl (by rw [hcreated, reported])
      · exact .inr ⟨e, he, fault, hfault, by rw [houtcome]⟩

/-- **A commit**, with its exchanges. -/
theorem commit_course (spool : Spool) (hdigest : IsHex 64 digest)
    (hmay : ∀ m, d.MayMeet m → mishaps m) (hhex : IsHex 32 (d.names d.named))
    (hvacant : ∀ node, d.tree.node? (s.home ++ [quarantineName, d.names d.named]) = some node →
      node = .directory) :
    (s.commit digest spool).Tells (DiskWorld mishaps)
      (fun told committed d' => Course (s.pathOf digest) told committed.value ∧
        Framed s mishaps (fun _ => True) digest spool.content d.tree d'.tree committed.value) d := by
  have hnode : d.tree.node? (s.home ++ [quarantineName, d.names d.named]) = none ∨
      d.tree.node? (s.home ++ [quarantineName, d.names d.named]) = some .directory := by
    cases hn : d.tree.node? (s.home ++ [quarantineName, d.names d.named]) with
    | none => exact .inl rfl
    | some node => exact .inr (congrArg some (hvacant node hn))
  refine Dialogue.Tells.bind (Dialogue.Tells.asked (DiskRequest.holds _) (answered_always rfl ?_))
  rcases holds_found hdigest d with ⟨fault, hanswer, -⟩ | ⟨hanswer, hroot⟩ | ⟨hanswer, hthere⟩
  · rw [hanswer]
    exact ⟨.unseen fault, .failed trivial rfl⟩
  · rw [hanswer]
    refine Dialogue.Tells.bind ((publish_frame hroot hdigest hmay hhex hnode).imp ?_)
    rintro told value d' ⟨hexplains, hframed⟩
    have hreported : Framed s mishaps (fun _ => True) digest spool.content d.tree d'.tree
        (reported (s.pathOf digest) value) := by
      cases hframed with
      | created hnone hnew => exact .created hnone hnew
      | found hthere hsame => exact .found hthere hsame
      | failed _ hsame =>
        rw [reported]
        split <;> exact .failed trivial hsame
    have hboth : Course (s.pathOf digest) (⟨.holds (s.pathOf digest), .ok false⟩ :: (told ++ []))
        (reported (s.pathOf digest) value) ∧
        Framed s mishaps (fun _ => True) digest spool.content d.tree d'.tree
          (reported (s.pathOf digest) value) :=
      ⟨.absent (by rwa [List.append_nil]), hreported⟩
    cases value with
    | ok created => exact hboth
    | error fault =>
      show Dialogue.Tells _ _ (if fault.isSystem then _ else _) d'
      rw [reported] at hboth
      split
      · next hsystem =>
        rw [if_pos hsystem] at hboth
        exact hboth
      · next hsystem =>
        rw [if_neg hsystem] at hboth
        exact hboth
  · rw [hanswer]
    exact ⟨.present, .found (.inl hthere) rfl⟩

/-- **How a commit accounts for itself**, on any disk, below any root, with any mishap in the midst of
the write or at the link. The next name given out is of thirty-two hexadecimal digits, and no file in
the quarantine bears it. A commit that makes an object adds one file, the object with all the bytes of
the spool; after any other one the files are what they were. A fault of the first question goes on as it
is. Of what is asked after it, every fault is accounted for: something in the way of the link makes a
duplicate, a failure of the system is one of the storage, and others go on as they are; and nothing but
such a fault keeps the object from being made. -/
theorem commit_accounted (s : FileStore) (d : Disk) (hdigest : IsHex 64 digest)
    (hhex : IsHex 32 (d.names d.named))
    (hvacant : ∀ node, d.tree.node? (s.home ++ [quarantineName, d.names d.named]) = some node →
      node = .directory) (mime : String) (spool : Spool) (size : Int) :
    let final := s.pathOf digest
    let place := s.home ++ slot digest
    let ran := (s.store.commit digest mime spool size).run Disk.answer d
    let value := ran.1.value
    (value = .ok true → d.tree.files place = none ∧
      ran.2.tree.files = Function.update d.tree.files place (some spool.content)) ∧
    (value ≠ .ok true → ran.2.tree.files = d.tree.files) ∧
    ∃ found rest,
      (s.store.commit digest mime spool size).exchanges Disk.answer d = ⟨.holds final, found⟩ :: rest ∧
      (∀ fault, found = .error fault → value = .error (.stray fault)) ∧
      (found = .ok true → value = .ok false) ∧
      (∀ e ∈ rest, ∀ fault ∈ e.1.fault? e.2, value = reported final (e.1.verdict fault)) ∧
      (found = .ok false → value = .ok true ∨
        ∃ e ∈ rest, ∃ fault ∈ e.1.fault? e.2, value = reported final (e.1.verdict fault)) := by
  have hstore : s.store.commit digest mime spool size = s.commit digest spool := rfl
  have hworld : ∀ q d' reply d'', Dialogue.exactly Disk.answer q d' reply d'' →
      DiskWorld d.MayMeet q d' reply d'' :=
    fun q d' reply d'' h => (exactly_disk q d' reply d'' h).mono nofun
  have hrun := ((commit_course spool hdigest (fun _ => id) hhex hvacant).narrow hworld).run
  rw [hstore]
  -- From here on it does not matter how the run came to what it did.
  generalize (s.commit digest spool).run Disk.answer d = ran at hrun ⊢
  generalize (s.commit digest spool).exchanges Disk.answer d = told at hrun ⊢
  obtain ⟨hcourse, hframed⟩ := hrun
  exact ⟨hframed.files.1, hframed.files.2, hcourse.accounts⟩

/-- The link is interrupted by what is no failure of the system, and the spool had been read to its
end. The interruption goes on, and the file in the quarantine is gone. -/
theorem commit_accounted_interrupted :
    let files : FileStore :=
      { root := { anchor := "/", parts := ["srv", "depot"] }, sniffBytes := 2048, sniff := fun _ => "" }
    let interrupt : Mishap := { kind := .other, label := "KeyboardInterrupt", text := "" }
    let disk : Disk :=
      { tree := [(["srv"], .directory), (["srv", "depot"], .directory)]
        names := fun _ => "0123456789abcdef0123456789abcdef"
        linkFails := some interrupt }
    let digest := "0123456789abcdef0123456789abcdef0123456789abcdef0123456789abcdef"
    let spool : Spool := { content := Bytes.ofText "GIF89a", position := 6 }
    let ran := (files.store.commit digest "image/gif" spool 6).run Disk.answer disk
    IsHex 64 digest ∧ IsHex 32 (disk.names disk.named) ∧
      (∀ node, disk.tree.node? (files.home ++ [quarantineName, disk.names disk.named]) = some node →
        node = .directory) ∧
      ran.1.value = .error (.stray (.mishap interrupt)) ∧
      ran.2.tree.files = disk.tree.files := by
  intro files interrupt disk digest spool
  have hdigest : IsHex 64 digest := ⟨by decide, List.all_eq_true.1 (by decide)⟩
  have hhex : IsHex 32 (disk.names disk.named) := ⟨by decide, List.all_eq_true.1 (by decide)⟩
  have hnone : disk.tree.node? (files.home ++ [quarantineName, disk.names disk.named]) = none := by
    decide +kernel
  have hvacant : ∀ node,
      disk.tree.node? (files.home ++ [quarantineName, disk.names disk.named]) = some node →
        node = .directory := by
    rw [hnone]
    exact nofun
  have hvalue : ((files.store.commit digest "image/gif" spool 6).run Disk.answer disk).1.value =
      .error (.stray (.mishap interrupt)) := by decide +kernel
  obtain ⟨-, hsame, -⟩ := commit_accounted files disk hdigest hhex hvacant "image/gif" spool 6
  generalize (files.store.commit digest "image/gif" spool 6).run Disk.answer disk = ran at *
  exact ⟨hdigest, hhex, hvacant, hvalue, hsame (by rw [hvalue]; exact nofun)⟩

end FileStore

end UploadDepot.Store

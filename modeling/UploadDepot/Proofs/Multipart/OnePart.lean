/-
The data that a selector returns are those of one part.

Whatever the events of a body are and however they come in groups: if the
disposition of every part can be read, what is returned is the data of the
first part that is a file of the field (`one_part_selected`). A disposition
that cannot be read ends the feeding, and what was taken of a file in the
same group is lost with it (`complete_file_lost`).
-/
import UploadDepot.Proofs.Multipart.Tracking

namespace UploadDepot.Multipart

/-- **One part is selected.** The data returned are those of the first part whose last disposition
gives the name of the field and a file name; it is found when its headers are complete and finished when
it has ended; and the headers kept are those of the last part alone, each with its own fragments. A
disposition that cannot be read is a failure. -/
theorem one_part_selected (field : String) (t : Transcript) (hwithin : t.Within)
    {groups : List (List Event)} (hgroups : groups.flatten = t.events) :
    let fed := Selector.feedAll { field } groups
    (t.Readable →
      fed.fault = none ∧
      fed.returned.flatten = ((t.file? field).map (·.slices.flatten)).getD [] ∧
      fed.selector.found = (t.file? field).isSome ∧
      fed.selector.finished = (t.endedFile? field).isSome ∧
      fed.selector.headers = HeaderRun.table t.headers ∧
      fed.selector.name = t.pending.names.flatten ∧
      fed.selector.value = t.pending.values.flatten) ∧
    (¬ t.Readable → ∃ p ∈ t.parts, ∃ fault,
      Header.sectionFault? (Bytes.latin1 p.disposition) = some fault ∧
      fed.fault = some (.parameters fault)) := by
  intro fed
  obtain ⟨hfault, ⟨slices, hselector⟩, hreturned⟩ := Selector.feedAll_eq (s := { field }) rfl groups
  rw [hgroups] at hfault hselector hreturned
  rcases (Tracks.start field).run t.heard with
    ⟨hrun, -, htracks⟩ | ⟨fault, before, seen, rest, hrun, -, -, hrest, hrefused⟩
  · rw [hrun] at hfault
    refine ⟨fun _ => ⟨hfault, ?_⟩, fun hunreadable => absurd htracks.readable hunreadable⟩
    obtain ⟨-, hdata⟩ := hreturned hfault
    rw [hdata, show fed.selector = _ from hselector]
    exact ⟨htracks.taken, htracks.found, htracks.finished, htracks.headers, htracks.name, htracks.value⟩
  · rw [hrun] at hfault
    obtain hover | ⟨-, hp, hsection⟩ := hrefused
    · exact absurd (hrest.within hwithin) hover
    · obtain ⟨q, hq, hheaders⟩ := hrest.parts hp
      rw [PartRun.disposition, ← hheaders, ← PartRun.disposition] at hsection
      refine ⟨fun hreadable => ?_, fun _ => ⟨q, hq, _, hsection, hfault⟩⟩
      rw [hreadable q hq] at hsection
      cases hsection

/-- A field of text, then a file whose first disposition is not the one that counts, then the
beginning of another file. -/
def mixedTranscript : Transcript where
  ended := [
    ⟨[⟨["Content-", "Disposition"].map Bytes.ofText, ["form-data; name=file"].map Bytes.ofText⟩],
      [Bytes.ofText "text"]⟩,
    ⟨[⟨["Content-Disposition"].map Bytes.ofText, ["form-data; name=other; filename=a"].map Bytes.ofText⟩,
        ⟨["CONTENT-DISPOSITION"].map Bytes.ofText,
          ["form-data; name=", "file; filename=a"].map Bytes.ofText⟩],
      ["ab", "c"].map Bytes.ofText⟩]
  stage := .body
    ⟨[⟨["Content-Disposition"].map Bytes.ofText, ["form-data; name=file; filename=b"].map Bytes.ofText⟩],
      [Bytes.ofText "d"]⟩

/-- The file in the middle is returned, though its data come in two groups. -/
theorem one_part_selected_second :
    mixedTranscript.Within ∧ mixedTranscript.Readable ∧
      [mixedTranscript.events.take 18, mixedTranscript.events.drop 18].flatten = mixedTranscript.events ∧
      (Selector.feedAll { field := "file" }
        [mixedTranscript.events.take 18, mixedTranscript.events.drop 18]).returned.flatten =
        Bytes.ofText "abc" := by
  have hwithin : mixedTranscript.Within :=
    (by decide +kernel : ∀ n ∈ mixedTranscript.sizes, n ≤ headerBudget)
  have hreadable : mixedTranscript.Readable :=
    (by decide +kernel : ∀ p ∈ mixedTranscript.parts,
      Header.sectionFault? (Bytes.latin1 p.disposition) = none)
  have hgroups : [mixedTranscript.events.take 18, mixedTranscript.events.drop 18].flatten =
      mixedTranscript.events := by simp
  obtain ⟨-, hreturned, -⟩ := (one_part_selected "file" mixedTranscript hwithin hgroups).1 hreadable
  exact ⟨hwithin, hreadable, hgroups, hreturned.trans (by decide +kernel)⟩

/-- A file that has ended, and the headers of a part whose name comes in sections without an order. -/
def lostTranscript : Transcript where
  ended := [⟨[⟨["Content-Disposition"].map Bytes.ofText,
    ["form-data; name=file; filename=a"].map Bytes.ofText⟩], [Bytes.ofText "D"]⟩]
  stage := .body ⟨[⟨["Content-Disposition"].map Bytes.ofText,
    ["form-data; name*0=a; name*=b"].map Bytes.ofText⟩], []⟩

/-- The bytes it is the transcript of. -/
def lostBody : Bytes :=
  Bytes.ofText ("--b\r\nContent-Disposition: form-data; name=file; filename=a\r\n\r\nD\r\n" ++
    "--b\r\nContent-Disposition: form-data; name*0=a; name*=b\r\n\r\n")

/-- Without the reading of all dispositions the data of the first file may be lost: in one chunk, the
fault of the second part keeps them back. -/
theorem complete_file_lost :
    ((Scanner.start (Bytes.ofText "b")).scan lostBody).1 = lostTranscript.events ∧
    ¬ ∀ (field : String) (t : Transcript), t.Within → ∀ groups : List (List Event),
      groups.flatten = t.events →
        (Selector.feedAll { field } groups).returned.flatten =
          ((t.file? field).map (·.slices.flatten)).getD [] := by
  refine ⟨by decide +kernel, fun hall => ?_⟩
  have hwithin : lostTranscript.Within :=
    (by decide +kernel : ∀ n ∈ lostTranscript.sizes, n ≤ headerBudget)
  have hlost := hall "file" lostTranscript hwithin [lostTranscript.events] List.flatten_singleton
  exact absurd hlost (by decide +kernel)

end UploadDepot.Multipart

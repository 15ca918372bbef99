/-
The budget of header bytes, and what a selector holds.

A selector refuses a body for its headers exactly when some part has more
header bytes than it may, every part beginning at zero. So the headers that it
holds are never more than the budget, and between two groups of events it
holds no data (`header_budget_exact`).
-/
import Mathlib.Data.List.Induction
import UploadDepot.Proofs.Multipart.Tracking

namespace UploadDepot.Multipart

/-- The bytes of the names and values in a table of headers. -/
def heldIn (headers : Header.Parameters) : Nat := (headers.map fun p => p.1.length + p.2.length).sum

/-- A value that is replaced is not held any more. -/
theorem heldIn_set (headers : Header.Parameters) (key value : Bytes) :
    heldIn (headers.set key value) ≤ heldIn headers + (key.length + value.length) := by
  induction headers with
  | nil => simp [heldIn, Table.set]
  | cons p headers ih =>
    obtain ⟨k, v⟩ := p
    unfold heldIn at ih ⊢
    rw [Table.set]
    split
    · rename_i hk
      subst hk
      simp only [List.map_cons, List.sum_cons]
      omega
    · simp only [List.map_cons, List.sum_cons]
      omega

theorem heldIn_table (headers : List HeaderRun) :
    heldIn (HeaderRun.table headers) ≤ HeaderRun.total headers := by
  induction headers using List.reverseRecOn with
  | nil => exact Nat.le_refl 0
  | append_singleton headers h ih =>
    have hset := heldIn_set (HeaderRun.table headers) h.key h.value
    have hsize : h.key.length + h.value.length = h.size := congrArg (· + _) (List.length_map _)
    rw [HeaderRun.table_snoc, HeaderRun.total_append, HeaderRun.total_singleton]
    omega

/-- The header bytes that a selector holds, complete and not. -/
def Selector.held (s : Selector) : Nat := heldIn s.headers + s.name.length + s.value.length

variable {field : String} {t : Transcript} {s : Selector}

theorem Transcript.last_within (h : t.Within) :
    HeaderRun.total t.headers + t.pending.size ≤ headerBudget := by
  obtain ⟨ended, stage⟩ := t
  cases stage with
  | between =>
    cases hlast : ended.getLast? with
    | none => simp [headers, pending, hlast, HeaderRun.total, HeaderRun.size]
    | some p =>
      simpa [headers, pending, hlast, HeaderRun.size] using
        within_between.1 h p (List.mem_of_getLast? hlast)
  | heading headers g => exact (within_heading.1 h).2
  | body p => exact (within_body.1 h).2

theorem Tracks.held_le (h : Tracks field t s) : s.held ≤ headerBudget := by
  have htable := heldIn_table t.headers
  have hlast := Transcript.last_within h.within
  rw [HeaderRun.size] at hlast
  rw [Selector.held, h.headers, h.name, h.value]
  omega

/-- Whatever run of events is taken, the selector holds no more header bytes than the budget. -/
theorem Selector.run_held {events : List Event} {t u : Transcript} (h : Tracks field t s)
    (heard : Heard t events u) : (s.run events).1.held ≤ headerBudget := by
  rcases h.run heard with ⟨-, -, htracks⟩ | ⟨_, _, _, _, -, htracks, -⟩
  · exact htracks.held_le
  · exact htracks.held_le

/-- A run goes on in the same way after the data have been handed over. -/
theorem Selector.held_feedAll {done : List (List Event)} {more : List Event} (htaken : s.taken = [])
    (hdone : (s.feedAll done).fault = none) :
    ((s.feedAll done).selector.run more).1.held = (s.run (done.flatten ++ more)).1.held := by
  obtain ⟨hfault, ⟨slices, hselector⟩, hreturned⟩ := feedAll_eq htaken done
  have hempty := (hreturned hdone).1
  rw [hdone] at hfault
  rw [run_append]
  cases hrun : s.run done.flatten with
  | mk t outcome =>
    rw [hrun] at hfault hselector
    obtain rfl : none = outcome := hfault
    rw [hselector] at hempty ⊢
    obtain rfl : slices = [] := hempty
    have hmore := run_taken { t with taken := [] } more t.taken
    rw [List.nil_append] at hmore
    dsimp only
    rw [show t.run more = _ from hmore]
    rfl

/-- **The budget is exact.** A body is refused for its headers if and only if in some part that was
seen the header bytes were more than the budget. Whatever was fed and however far the next group has
come, the selector holds no more header bytes than the budget, and no data between two groups. -/
theorem header_budget_exact (field : String) (t : Transcript) :
    (∃ seen : Transcript, seen.events = Selector.seen { field } t.events) ∧
    (∀ seen : Transcript, seen.events = Selector.seen { field } t.events →
      ∀ groups : List (List Event), groups.flatten = t.events →
        ((∃ fault, (Selector.feedAll { field } groups).fault = some (.form fault) ∧
          fault.message = "multipart part headers too large") ↔
          ∃ n ∈ seen.sizes, headerBudget < n)) ∧
    ∀ (done : List (List Event)) (more after : List Event), done.flatten ++ (more ++ after) = t.events →
      (Selector.feedAll { field } done).fault = none →
        (Selector.feedAll { field } done).selector.taken = [] ∧
          ((Selector.feedAll { field } done).selector.run more).1.held ≤ headerBudget := by
  refine ⟨?_, fun seen hseen groups hgroups => ?_, fun done more after hevents hdone => ⟨?_, ?_⟩⟩
  · rcases (Tracks.start field).run t.heard with ⟨-, hseen, -⟩ | ⟨_, _, seen, _, -, -, hseen, -⟩
    · exact ⟨t, hseen.symm⟩
    · exact ⟨seen, hseen.events⟩
  · have hfault := (Selector.feedAll_eq (s := { field }) rfl groups).1
    have hsizes (u : Transcript) : (∃ n ∈ u.sizes, headerBudget < n) ↔ ¬ u.Within := by
      simp [Transcript.Within]
    rw [hgroups] at hfault
    rw [hfault, hsizes]
    rcases (Tracks.start field).run t.heard with
      ⟨hrun, hall, htracks⟩ | ⟨fault, _, u, _, hrun, -, heard, -, hrefused⟩
    · obtain rfl : seen = t := Transcript.events_injective (hseen.trans hall)
      rw [hrun]
      refine ⟨?_, fun hover => absurd htracks.within hover⟩
      rintro ⟨_, hnone, -⟩
      cases hnone
    · obtain rfl : seen = u := Transcript.events_injective (hseen.trans heard.events.symm)
      rw [hrun]
      obtain hover | ⟨hwithin, -, -⟩ := hrefused
      · exact ⟨fun _ => hover, fun _ => ⟨.headersTooLarge, rfl, rfl⟩⟩
      · refine ⟨?_, fun hover => absurd hwithin hover⟩
        rintro ⟨_, hform, -⟩
        cases hform
  · exact ((Selector.feedAll_eq (s := { field }) rfl done).2.2 hdone).1
  · rw [Selector.held_feedAll rfl hdone]
    have hall := t.heard
    rw [← hevents, ← List.append_assoc] at hall
    obtain ⟨u, heard, -⟩ := hall.split
    exact Selector.run_held (Tracks.start field) heard

/-- A part with as many header bytes as it may have, and after it one that goes on with a byte more. -/
def overfullTranscript : Transcript where
  ended := [⟨[⟨[], [List.replicate headerBudget 0x61]⟩], []⟩]
  stage := .heading [] ⟨[], [List.replicate headerBudget 0x61, [0x61]]⟩

/-- The first part is taken whole, and the second is refused at its last byte. -/
theorem header_budget_exact_overfull :
    overfullTranscript.events = Selector.seen { field := "file" } overfullTranscript.events ∧
      (∃ fault, (Selector.feedAll { field := "file" } [overfullTranscript.events]).fault =
        some (.form fault) ∧ fault.message = "multipart part headers too large") ∧
      (Selector.feedAll { field := "file" } [overfullTranscript.events.take 5]).fault = none ∧
      ((Selector.feedAll { field := "file" } [overfullTranscript.events.take 5]).selector.run
        (overfullTranscript.events.drop 5)).1.held ≤ headerBudget := by
  have hparameters : Header.parameters (Bytes.latin1 []) = .ok ([], []) := rfl
  have hkey : Bytes.lower [] ≠ Bytes.ofText "content-disposition" := by decide +kernel
  have hseen : overfullTranscript.events =
      Selector.seen { field := "file" } overfullTranscript.events := by
    simp [overfullTranscript, Transcript.events, PartRun.events, HeaderRun.events, HeaderRun.fragments,
      Selector.seen, Selector.step, Selector.charge, Selector.choose, Table.set, Table.get?, hkey,
      hparameters]
  have hdone : (Selector.feedAll { field := "file" } [overfullTranscript.events.take 5]).fault = none := by
    simp [overfullTranscript, Transcript.events, PartRun.events, HeaderRun.events, HeaderRun.fragments,
      Selector.feedAll, Selector.run, Selector.step, Selector.charge, Selector.choose, Table.set,
      Table.get?, hkey, hparameters, Selector.handOver]
  obtain ⟨-, hexact, hheld⟩ := header_budget_exact "file" overfullTranscript
  have hover : headerBudget + 1 ∈ overfullTranscript.sizes := by
    simp [overfullTranscript, Transcript.sizes, HeaderRun.total, HeaderRun.size]
  have hrefused := (hexact _ hseen [overfullTranscript.events] List.flatten_singleton).2
    ⟨_, hover, Nat.lt_succ_self _⟩
  have hsplit : [overfullTranscript.events.take 5].flatten ++ (overfullTranscript.events.drop 5 ++ []) =
      overfullTranscript.events := by simp
  exact ⟨hseen, hrefused, hdone, (hheld _ _ [] hsplit hdone).2⟩

end UploadDepot.Multipart

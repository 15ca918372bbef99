/-
How the reading of a body fails.

The events of all chunks are one run of events (`Scanner.scanAll`), and what a
reader makes of the chunks is what its selector makes of that run
(`Reader.collect_eq_run`). A body is refused for its form, but for one event:
at the end of the headers of a part its disposition is read, and there some
sections end the reading with a fault of their own (`Selector.step_parameters`).
-/
import UploadDepot.Proofs.Header.Sections
import UploadDepot.Proofs.Multipart.FirstFile

namespace UploadDepot.Multipart

/-- The events of all chunks, and the scanner after them or the fault that ended the scanning. -/
def Scanner.scanAll (s : Scanner) : List Bytes → List Event × Except Fault Scanner
  | [] => ([], .ok s)
  | chunk :: chunks =>
    match s.scan chunk with
    | (events, .error fault) => (events, .error fault)
    | (events, .ok s) => (events ++ (s.scanAll chunks).1, (s.scanAll chunks).2)

/-- **The chunks of a body are one run of events**: the selector takes them all, up to its first fault or
the scanner's. -/
theorem Reader.collect_eq_run {r : Reader} (htaken : r.selector.taken = []) (chunks : List Bytes) :
    r.collect chunks =
      match r.selector.run (r.scanner.scanAll chunks).1, (r.scanner.scanAll chunks).2 with
      | (_, some fault), _ => .error fault
      | (_, none), .error fault => .error (.form (.malformed fault))
      | (s, none), .ok scanner =>
        .ok ({ scanner, selector := { s with taken := [] } }, s.taken.reverse.flatten) := by
  induction chunks generalizing r with
  | nil =>
    obtain ⟨scanner, selector⟩ := r
    have hselector : { selector with taken := [] } = selector := by rw [← htaken]
    rw [collect, Scanner.scanAll, Selector.run]
    dsimp only at htaken ⊢
    rw [hselector, htaken]
    rfl
  | cons chunk chunks ih =>
    rw [collect, feed, Scanner.scanAll]
    obtain ⟨events, scanned⟩ := r.scanner.scan chunk
    dsimp only
    cases hrun : r.selector.run events with
    | mk s outcome =>
      cases outcome with
      | some fault =>
        cases scanned with
        | error _ => simp [hrun]
        | ok scanner => simp [hrun, Selector.run_append]
      | none =>
        cases scanned with
        | error fault => simp [hrun]
        | ok scanner =>
          have hmore := Selector.run_taken { s with taken := [] } (scanner.scanAll chunks).1 s.taken
          rw [List.nil_append] at hmore
          dsimp only [Selector.handOver]
          rw [Selector.run_append, hrun]
          dsimp only
          rw [show s.run (scanner.scanAll chunks).1 = _ from hmore, ih rfl]
          dsimp only
          cases Selector.run { s with taken := [] } (scanner.scanAll chunks).1 with
          | mk t outcome =>
            cases outcome with
            | some fault => rfl
            | none =>
              cases (scanner.scanAll chunks).2 with
              | error fault => rfl
              | ok scanner => simp [Except.map]

namespace Selector

variable {s : Selector}

/-- The disposition of the part at hand. -/
def disposition (s : Selector) : Bytes := (s.headers.get? dispositionKey).getD []

theorem step_parameters {e : Event} {fault : Header.ParameterFault} :
    s.step e = .error (.parameters fault) ↔
      e = .headersFinished ∧ Header.sectionFault? (Bytes.latin1 s.disposition) = some fault := by
  have hcharge : ∀ (make : Bytes → Event) (add : Bytes → Selector → Selector), Charged make add →
      ∀ bs, s.step (make bs) ≠ .error (.parameters fault) := by
    intro make add h bs hstep
    rw [h.step] at hstep
    split at hstep <;> cases hstep
  cases e with
  | headerName bs => simpa using hcharge _ _ charged_name bs
  | headerValue bs => simpa using hcharge _ _ charged_value bs
  | headersFinished =>
    rw [step, choose, ← dispositionKey, ← disposition, ← Header.parameters_fault]
    dsimp only
    cases Header.parameters (Bytes.latin1 s.disposition) with
    | error other => simp
    | ok result =>
      dsimp only
      split <;> simp
  | partBegin => simp [step]
  | headerEnd => simp [step]
  | data bs => simp [step]
  | partEnd => simp [step]

/-- Taking the events, the selector comes to the end of the headers of a part with this disposition. -/
def Meets (s : Selector) (events : List Event) (d : Bytes) : Prop :=
  ∃ before after t, events = before ++ .headersFinished :: after ∧ s.run before = (t, none) ∧
    t.disposition = d

theorem meets_cons {e : Event} {events : List Event} {d : Bytes} :
    s.Meets (e :: events) d ↔
      (e = .headersFinished ∧ s.disposition = d) ∨ ∃ t, s.step e = .ok t ∧ t.Meets events d := by
  constructor
  · rintro ⟨before, after, t, hevents, hrun, rfl⟩
    cases before with
    | nil =>
      cases hrun
      exact .inl ⟨(List.cons.inj hevents).1, rfl⟩
    | cons _ before =>
      obtain ⟨rfl, htail⟩ := List.cons.inj hevents
      rw [run] at hrun
      cases hstep : s.step e with
      | error fault =>
        rw [hstep] at hrun
        cases hrun
      | ok u =>
        rw [hstep] at hrun
        exact .inr ⟨u, rfl, before, after, t, htail, hrun, rfl⟩
  · rintro (⟨rfl, hd⟩ | ⟨t, hstep, before, after, u, rfl, hrun, hd⟩)
    · exact ⟨[], events, s, rfl, rfl, hd⟩
    · exact ⟨e :: before, after, u, rfl, by rw [run, hstep]; exact hrun, hd⟩

/-- **A run ends with the fault of a disposition** that it meets, and with no other fault of
parameters. -/
theorem run_parameters {events : List Event} {fault : Header.ParameterFault} :
    (s.run events).2 = some (.parameters fault) ↔
      ∃ d, s.Meets events d ∧ Header.sectionFault? (Bytes.latin1 d) = some fault := by
  induction events generalizing s with
  | nil => simp [run, Meets]
  | cons e events ih =>
    simp only [meets_cons]
    rw [run]
    cases hstep : s.step e with
    | error other =>
      have hfault : s.step e = .error (.parameters fault) ↔ _ := step_parameters
      rw [hstep, Except.error.injEq] at hfault
      rw [Option.some.injEq, hfault]
      constructor
      · rintro ⟨hlast, hd⟩
        exact ⟨s.disposition, .inl ⟨hlast, rfl⟩, hd⟩
      · rintro ⟨d, ⟨hlast, rfl⟩ | ⟨t, hok, -⟩, hd⟩
        · exact ⟨hlast, hd⟩
        · cases hok
    | ok t =>
      rw [ih]
      constructor
      · rintro ⟨d, hmeets, hd⟩
        exact ⟨d, .inr ⟨t, rfl, hmeets⟩, hd⟩
      · rintro ⟨d, ⟨hlast, rfl⟩ | ⟨u, hok, hmeets⟩, hd⟩
        · rw [step_parameters.2 ⟨hlast, hd⟩] at hstep
          cases hstep
        · cases hok
          exact ⟨d, hmeets, hd⟩

end Selector

namespace Reader

variable {r : Reader}

/-- The chunks fail with a fault of parameters as their events do. -/
theorem collect_parameters (htaken : r.selector.taken = []) {chunks : List Bytes}
    {fault : Header.ParameterFault} :
    r.collect chunks = .error (.parameters fault) ↔
      (r.selector.run (r.scanner.scanAll chunks).1).2 = some (.parameters fault) := by
  rw [collect_eq_run htaken]
  cases r.selector.run (r.scanner.scanAll chunks).1 with
  | mk s outcome =>
    cases outcome with
    | some other => simp
    | none => cases (r.scanner.scanAll chunks).2 <;> simp

/-- Chunks that are taken leave the field as it was. -/
theorem collect_field (htaken : r.selector.taken = []) {chunks : List Bytes} {r' : Reader}
    {data : Bytes} (h : r.collect chunks = .ok (r', data)) : r'.selector.field = r.selector.field := by
  have hfield := Selector.run_field (s := r.selector) (r.scanner.scanAll chunks).1
  rw [collect_eq_run htaken] at h
  split at h
  · cases h
  · cases h
  · rename_i hrun hscan
    cases h
    rwa [hrun] at hfield

end Reader

/-- **What is not told of the form.** The chunks of a body fail with a fault of parameters if the reader
meets a disposition that has it, for its sections; every other failure is told of the form, at a chunk, or
at the end if the field is missing or its file has no end. -/
theorem sections_escape (boundary : Bytes) (field : String) (chunks : List Bytes) :
    (∀ fault, (Reader.start boundary field).collect chunks = .error (.parameters fault) ↔
        ∃ d, Selector.Meets { field } ((Scanner.start boundary).scanAll chunks).1 d ∧
          Header.sectionFault? (Bytes.latin1 d) = some fault) ∧
      ((∃ fault, (Reader.start boundary field).collect chunks = .error (.parameters fault)) ∨
        (∃ fault, (Reader.start boundary field).collect chunks = .error (.form fault)) ∨
          ∃ r data, (Reader.start boundary field).collect chunks = .ok (r, data) ∧
            r.close = if r.found = false then .error (.missingField field)
              else if r.finished = false then .error .truncated else .ok ()) := by
  refine ⟨fun fault => (Reader.collect_parameters rfl).trans Selector.run_parameters, ?_⟩
  cases hcollect : (Reader.start boundary field).collect chunks with
  | error fault =>
    cases fault with
    | form fault => exact .inr (.inl ⟨fault, rfl⟩)
    | parameters fault => exact .inl ⟨fault, rfl⟩
  | ok result =>
    obtain ⟨r, data⟩ := result
    have hfield : r.selector.field = field := Reader.collect_field rfl hcollect
    exact .inr (.inr ⟨r, data, rfl, by rw [Reader.close, hfield]⟩)

/-- A part whose name comes in two sections, one with a number and one without. -/
def unorderedPart : Bytes :=
  Bytes.ofText "--b\r\nContent-Disposition: form-data; name*0=a; name*=b\r\n\r\n"

/-- Its sections are no fault of the form, and so the client is not told of it. -/
theorem unordered_sections_escape :
    let outcome := (Reader.start (Bytes.ofText "b") "file").collect [unorderedPart]
    outcome = .error (.parameters .unorderedSections) ∧ (∀ fault, outcome ≠ .error (.form fault)) ∧
      ∀ result, outcome ≠ .ok result := by
  intro outcome
  have hfeed : ((Reader.start (Bytes.ofText "b") "file").feed unorderedPart).2 =
      .error (.parameters .unorderedSections) := by decide +kernel
  have houtcome : outcome = .error (.parameters .unorderedSections) := by
    dsimp only [outcome]
    rw [Reader.collect]
    split
    · rename_i hfault
      rw [hfault] at hfeed
      rw [Except.error.inj hfeed]
    · rename_i hok
      rw [hok] at hfeed
      cases hfeed
  rw [houtcome]
  simp

end UploadDepot.Multipart

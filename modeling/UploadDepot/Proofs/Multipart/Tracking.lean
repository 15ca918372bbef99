/-
The selector keeps up with the transcript.

After a run that is heard, every field of the selector is what the transcript
says it has to be (`Tracks`): the header at hand, the headers of the part at
hand and their bytes, and what was found, finished and taken. One event either
keeps it so, or is refused for a reason the transcript has (`Tracks.step`);
so does a run (`Tracks.run`), and feeding the events in groups makes no
difference (`feedAll_eq`).
-/
import UploadDepot.Proofs.Multipart.Transcript

namespace UploadDepot.Multipart

open Transcript

variable {field : String} {t u : Transcript} {s s' : Selector} {e : Event} {events : List Event}
  {ended : List PartRun} {headers : List HeaderRun} {names values slices : List Bytes} {g : HeaderRun}
  {p : PartRun} {bs : Bytes}

/-! ## The file of a transcript -/

namespace Transcript

theorem file?_heading : file? field ⟨ended, .heading headers g⟩ = ended.find? (·.isFile field) := by
  rw [file?, parts, List.append_nil]

theorem file?_body : file? field ⟨ended, .body p⟩ =
    (ended.find? (·.isFile field)).or (if p.isFile field then some p else none) := by
  rw [file?, parts, List.find?_append, List.find?_singleton]

theorem file?_ended : file? field ⟨ended ++ [p], .between⟩ = file? field ⟨ended, .body p⟩ := by
  rw [file?, parts, List.append_nil]
  rfl

end Transcript

namespace Selector

/-- What the disposition of a part says decides, unless it cannot be read. -/
theorem choose_part (hheaders : s.headers = HeaderRun.table p.headers) :
    (∃ fault, Header.sectionFault? (Bytes.latin1 p.disposition) = some fault ∧
      s.choose = .error (.parameters fault)) ∨
    p.Readable ∧ s.choose =
      .ok (if s.found = false ∧ p.isFile s.field then { s with found := true, inTarget := true } else s) := by
  have hd : (s.headers.get? (Bytes.ofText "content-disposition")).getD [] = p.disposition := by
    rw [hheaders, p.disposition_eq, dispositionKey]
  rw [choose, hd, PartRun.Readable, PartRun.isFile]
  cases hps : Header.parameters (Bytes.latin1 p.disposition) with
  | error fault => exact .inl ⟨fault, (Header.parameters_fault _ _).1 hps, rfl⟩
  | ok result =>
    refine .inr ⟨Option.eq_none_iff_forall_ne_some.2 fun fault hfault => ?_, ?_⟩
    · rw [(Header.parameters_fault _ _).2 hfault] at hps
      cases hps
    · simp only [Bool.and_eq_true, decide_eq_true_eq]
      split <;> rfl

end Selector

/-- What the fields of a selector are after what was heard. -/
structure Tracks (field : String) (t : Transcript) (s : Selector) : Prop where
  wanted : s.field = field
  headers : s.headers = HeaderRun.table t.headers
  name : s.name = t.pending.names.flatten
  value : s.value = t.pending.values.flatten
  headerBytes : s.headerBytes = HeaderRun.total t.headers + t.pending.size
  found : s.found = (t.file? field).isSome
  finished : s.finished = (t.endedFile? field).isSome
  inTarget : s.inTarget = (s.found && !s.finished)
  taken : s.taken.reverse.flatten = ((t.file? field).map (·.slices.flatten)).getD []
  /-- Otherwise it would have been refused. -/
  within : t.Within
  readable : t.Readable

/-- Why the selector refuses what it hears. -/
inductive Refused (t : Transcript) : ReadFault → Prop
  | tooLarge : ¬ t.Within → Refused t (.form .headersTooLarge)
  | unreadable {p : PartRun} {fault : Header.ParameterFault} : t.Within → p ∈ t.parts →
      Header.sectionFault? (Bytes.latin1 p.disposition) = some fault → Refused t (.parameters fault)

namespace Tracks

theorem start (field : String) : Tracks field {} { field } := by
  refine ⟨rfl, rfl, rfl, rfl, rfl, rfl, rfl, rfl, rfl, ?_, ?_⟩ <;> exact List.forall_mem_nil _

theorem partBegin (h : Tracks field ⟨ended, .between⟩ s) :
    Tracks field ⟨ended, .heading [] {}⟩ { s with headers := [], headerBytes := 0 } :=
  { h with
    headers := rfl, headerBytes := rfl
    within := within_heading.2 ⟨h.within, Nat.zero_le _⟩ }

theorem headerName (h : Tracks field ⟨ended, .heading headers ⟨names, []⟩⟩ s)
    (hwithin : Transcript.Within ⟨ended, .heading headers ⟨names ++ [bs], []⟩⟩) :
    Tracks field ⟨ended, .heading headers ⟨names ++ [bs], []⟩⟩ (s.addName bs) :=
  { h with
    name := by simp [Selector.addName, h.name, Transcript.pending]
    headerBytes := by
      simp only [Selector.addName, h.headerBytes, Transcript.pending, Transcript.headers,
        HeaderRun.size_names, Nat.add_assoc]
    within := hwithin }

theorem headerValue (h : Tracks field ⟨ended, .heading headers ⟨names, values⟩⟩ s)
    (hwithin : Transcript.Within ⟨ended, .heading headers ⟨names, values ++ [bs]⟩⟩) :
    Tracks field ⟨ended, .heading headers ⟨names, values ++ [bs]⟩⟩ (s.addValue bs) :=
  { h with
    value := by simp [Selector.addValue, h.value, Transcript.pending]
    headerBytes := by
      simp only [Selector.addValue, h.headerBytes, Transcript.pending, Transcript.headers,
        HeaderRun.size_values, Nat.add_assoc]
    within := hwithin }

theorem headerEnd (h : Tracks field ⟨ended, .heading headers g⟩ s) :
    Tracks field ⟨ended, .heading (headers ++ [g]) {}⟩
      { s with headers := s.headers.set (Bytes.lower s.name) s.value, name := [], value := [] } := by
  have hsize : HeaderRun.total headers + g.size = HeaderRun.total (headers ++ [g]) := by
    rw [HeaderRun.total_append, HeaderRun.total_singleton]
  exact { h with
    headers := by
      simp only [h.headers, h.name, h.value, Transcript.headers, Transcript.pending, HeaderRun.table_snoc]
      rfl
    name := rfl
    value := rfl
    headerBytes := h.headerBytes.trans hsize
    within := within_heading.2 (hsize ▸ within_heading.1 h.within) }

/-- A part is the file if none was before it. -/
theorem headersFinished (h : Tracks field ⟨ended, .heading headers {}⟩ s)
    (hreadable : PartRun.Readable { headers }) :
    Tracks field ⟨ended, .body { headers }⟩
      (if s.found = false ∧ PartRun.isFile s.field { headers } then
        { s with found := true, inTarget := true } else s) := by
  have hfound := h.found
  have htaken := h.taken
  have hfinished : s.finished = (ended.find? (·.isFile field)).isSome := h.finished
  have hwithin : Transcript.Within ⟨ended, .body { headers }⟩ :=
    within_body.2 (within_heading.1 h.within)
  have hread : Transcript.Readable ⟨ended, .body { headers }⟩ := readable_body.2 ⟨h.readable, hreadable⟩
  rw [file?_heading] at hfound htaken
  rw [h.wanted]
  split
  -- No file was before, and this part is one.
  · rename_i hfile
    have hnone : ended.find? (·.isFile field) = none :=
      Option.isNone_iff_eq_none.1 (Option.isSome_eq_false_iff.1 (hfound.symm.trans hfile.1))
    have hhere : file? field ⟨ended, .body { headers }⟩ = some { headers } := by
      rw [file?_body, hnone, if_pos hfile.2, Option.none_or]
    rw [hnone] at htaken hfinished
    exact { h with
      wanted := rfl
      found := by rw [hhere]; rfl
      inTarget := by rw [hfinished]; rfl
      taken := by rw [hhere]; exact htaken
      within := hwithin, readable := hread }
  -- The file, if there is one by now, is a part that has ended.
  · rename_i hnot
    have hbefore : file? field ⟨ended, .body { headers }⟩ = ended.find? (·.isFile field) := by
      rw [file?_body]
      cases hbefore : ended.find? (·.isFile field) with
      | some q => rfl
      | none =>
        rw [hbefore] at hfound
        rw [if_neg fun hfile => hnot ⟨hfound, hfile⟩, Option.none_or]
    exact { h with
      found := hbefore ▸ hfound
      taken := hbefore ▸ htaken
      within := hwithin, readable := hread }

/-- The part at hand is the file, or its data do not matter. -/
theorem at_hand (h : Tracks field ⟨ended, .body ⟨headers, slices⟩⟩ s) :
    (s.inTarget = true ∧ s.found = true ∧
      ∀ slices, file? field ⟨ended, .body ⟨headers, slices⟩⟩ = some ⟨headers, slices⟩) ∨
    (s.inTarget = false ∧ s.finished = s.found ∧
      ∀ slices, file? field ⟨ended, .body ⟨headers, slices⟩⟩ = ended.find? (·.isFile field)) := by
  have hfile (slices : List Bytes) : PartRun.isFile field ⟨headers, slices⟩ =
      PartRun.isFile field { headers } := rfl
  have hfound := h.found
  have hfinished : s.finished = (ended.find? (·.isFile field)).isSome := h.finished
  simp only [file?_body, hfile] at hfound ⊢
  rw [h.inTarget, hfound, hfinished]
  cases ended.find? (·.isFile field) with
  | some q => exact .inr ⟨rfl, rfl, fun _ => rfl⟩
  | none =>
    cases PartRun.isFile field { headers } with
    | true => exact .inl ⟨rfl, rfl, fun _ => rfl⟩
    | false => exact .inr ⟨rfl, rfl, fun _ => rfl⟩

theorem data (h : Tracks field ⟨ended, .body ⟨headers, slices⟩⟩ s) :
    Tracks field ⟨ended, .body ⟨headers, slices ++ [bs]⟩⟩
      (if s.inTarget then { s with taken := bs :: s.taken } else s) := by
  have hwithin : Transcript.Within ⟨ended, .body ⟨headers, slices ++ [bs]⟩⟩ :=
    within_body.2 (within_body.1 h.within)
  have hread : Transcript.Readable ⟨ended, .body ⟨headers, slices ++ [bs]⟩⟩ := by
    have hread := h.readable
    rw [readable_body] at hread ⊢
    exact hread
  have hfound := h.found
  have htaken := h.taken
  rcases h.at_hand with ⟨hin, -, hfile⟩ | ⟨hout, -, hfile⟩
  · rw [hfile] at hfound htaken
    rw [if_pos hin]
    exact { h with
      found := by rw [hfile]; exact hfound
      taken := by rw [hfile]; simpa using htaken
      within := hwithin, readable := hread }
  · rw [hfile] at hfound htaken
    rw [if_neg (Bool.eq_false_iff.1 hout)]
    exact { h with
      found := by rw [hfile]; exact hfound
      taken := by rw [hfile]; exact htaken
      within := hwithin, readable := hread }

theorem partEnd (h : Tracks field ⟨ended, .body p⟩ s) :
    Tracks field ⟨ended ++ [p], .between⟩
      (if s.inTarget then { s with inTarget := false, finished := true } else s) := by
  have hheaders : Transcript.headers ⟨ended ++ [p], .between⟩ = p.headers := by
    simp [Transcript.headers]
  have hfound : s.found = (file? field ⟨ended ++ [p], .between⟩).isSome := file?_ended ▸ h.found
  have htaken := h.taken
  rw [← file?_ended] at htaken
  have hended : endedFile? field ⟨ended ++ [p], .between⟩ = file? field ⟨ended, .body p⟩ := rfl
  rcases h.at_hand with ⟨hin, hsome, -⟩ | ⟨hout, hfinished, -⟩
  · rw [if_pos hin]
    exact { h with
      headers := hheaders ▸ h.headers
      headerBytes := hheaders ▸ h.headerBytes
      found := hfound
      finished := by rw [hended, ← h.found, hsome]
      inTarget := by simp
      taken := htaken
      within := within_ended.2 h.within, readable := readable_ended.2 h.readable }
  · rw [if_neg (Bool.eq_false_iff.1 hout)]
    exact { h with
      headers := hheaders ▸ h.headers
      headerBytes := hheaders ▸ h.headerBytes
      found := hfound
      finished := by rw [hended, ← h.found, hfinished]
      taken := htaken
      within := within_ended.2 h.within, readable := readable_ended.2 h.readable }

/-- A header fragment is taken as long as the part keeps to the budget. -/
theorem charged {make : Bytes → Event} {add : Bytes → Selector → Selector}
    (hcharged : Selector.Charged make add) (h : Tracks field ⟨ended, .heading headers g⟩ s)
    {g' : HeaderRun} (hsize : g'.size = g.size + bs.length)
    (hadd : Transcript.Within ⟨ended, .heading headers g'⟩ →
      Tracks field ⟨ended, .heading headers g'⟩ (add bs s)) :
    (∃ s', s.step (make bs) = .ok s' ∧ Tracks field ⟨ended, .heading headers g'⟩ s') ∨
      ∃ fault, s.step (make bs) = .error fault ∧ Refused ⟨ended, .heading headers g'⟩ fault := by
  have hbytes : s.headerBytes + bs.length = HeaderRun.total headers + g'.size := by
    rw [h.headerBytes, hsize, Nat.add_assoc]
    rfl
  rw [hcharged.step, hbytes]
  by_cases hover : HeaderRun.total headers + g'.size > headerBudget
  · refine .inr ⟨_, if_pos hover, .tooLarge fun hwithin => ?_⟩
    exact absurd (within_heading.1 hwithin).2 (Nat.not_le.2 hover)
  · refine .inl ⟨_, if_neg hover, hadd (within_heading.2 ?_)⟩
    exact ⟨(within_heading.1 h.within).1, Nat.not_lt.1 hover⟩

/-- **One event** is taken, or refused with a reason. -/
theorem step (h : Tracks field t s) (hears : Hears t e u) :
    (∃ s', s.step e = .ok s' ∧ Tracks field u s') ∨
      ∃ fault, s.step e = .error fault ∧ Refused u fault := by
  cases hears with
  | partBegin => exact .inl ⟨_, rfl, h.partBegin⟩
  | headerName bs => exact charged Selector.charged_name h (HeaderRun.size_names _ _ bs) h.headerName
  | headerValue bs => exact charged Selector.charged_value h (HeaderRun.size_values _ _ bs) h.headerValue
  | headerEnd => exact .inl ⟨_, rfl, h.headerEnd⟩
  | @headersFinished ended headers =>
    rcases Selector.choose_part (p := { headers }) h.headers with ⟨fault, hfault, hstep⟩ | ⟨hread, hstep⟩
    · refine .inr ⟨_, hstep, .unreadable (within_body.2 (within_heading.1 h.within)) ?_ hfault⟩
      simp [parts]
    · exact .inl ⟨_, hstep, h.headersFinished hread⟩
  | data bs => exact .inl ⟨_, rfl, h.data⟩
  | partEnd => exact .inl ⟨_, rfl, h.partEnd⟩

end Tracks

/-! ## Runs -/

namespace Selector

/-- The events that are looked at: those up to the first that fails, and that one. -/
def seen (s : Selector) : List Event → List Event
  | [] => []
  | e :: es =>
    match s.step e with
    | .error _ => [e]
    | .ok s => e :: s.seen es

end Selector

/-- **A run** is taken to its end, or up to an event that is refused with a reason. -/
theorem Tracks.run (h : Tracks field t s) (heard : Heard t events u) :
    ((s.run events).2 = none ∧ s.seen events = events ∧ Tracks field u (s.run events).1) ∨
      ∃ fault before seen rest, (s.run events).2 = some fault ∧ Tracks field before (s.run events).1 ∧
        Heard t (s.seen events) seen ∧ Heard seen rest u ∧ Refused seen fault := by
  induction heard generalizing s with
  | nil => exact .inl ⟨rfl, rfl, h⟩
  | @cons t v u e es hears heard ih =>
    rw [Selector.run, Selector.seen]
    rcases h.step hears with ⟨s', hstep, htracks⟩ | ⟨fault, hstep, hrefused⟩
    · rw [hstep]
      refine (ih htracks).imp ?_ ?_
      · rintro ⟨hrun, hseen, hlast⟩
        exact ⟨hrun, congrArg (e :: ·) hseen, hlast⟩
      · rintro ⟨fault, before, seen, rest, hrun, hbefore, hseen, hrest, hrefused⟩
        exact ⟨fault, before, seen, rest, hrun, hbefore, .cons hears hseen, hrest, hrefused⟩
    · rw [hstep]
      exact .inr ⟨fault, t, v, es, rfl, h, .cons hears .nil, heard, hrefused⟩

/-! ## Feeding in groups -/

/-- What feeding several groups of events comes to. -/
structure Feeds where
  selector : Selector
  /-- What every group returned, up to the first that failed. -/
  returned : List Bytes := []
  fault : Option ReadFault := none

/-- Feeds groups of events: after each, the data taken are handed over. -/
def Selector.feedAll (s : Selector) : List (List Event) → Feeds
  | [] => { selector := s }
  | events :: groups =>
    match s.run events with
    | (s, some fault) => { selector := s, fault := some fault }
    | (s, none) =>
      let (s, data) := s.handOver
      let rest := s.feedAll groups
      { rest with returned := data :: rest.returned }

/-- A chunk is fed as the group of its events. -/
theorem Reader.feed_scanned {r : Reader} {chunk : Bytes} {scanner : Scanner}
    (hscan : r.scanner.scan chunk = (events, .ok scanner)) :
    (r.feed chunk).1.selector = (r.selector.feedAll [events]).selector ∧
      (r.feed chunk).2 = match (r.selector.feedAll [events]).fault with
        | some fault => .error fault
        | none => .ok (r.selector.feedAll [events]).returned.flatten := by
  rw [feed, hscan, Selector.feedAll]
  dsimp only
  cases r.selector.run events with
  | mk s outcome =>
    cases outcome with
    | some fault => exact ⟨rfl, rfl⟩
    | none => exact ⟨rfl, by simp [Selector.handOver, Selector.feedAll]⟩

/-- **Groups are one run of events**: what they return is what the run takes, and only what is taken
last is not with the selector. -/
theorem Selector.feedAll_eq (htaken : s.taken = []) (groups : List (List Event)) :
    (s.feedAll groups).fault = (s.run groups.flatten).2 ∧
      (∃ slices, (s.feedAll groups).selector = { (s.run groups.flatten).1 with taken := slices }) ∧
      ((s.feedAll groups).fault = none → (s.feedAll groups).selector.taken = [] ∧
        (s.feedAll groups).returned.flatten = (s.run groups.flatten).1.taken.reverse.flatten) := by
  induction groups generalizing s with
  | nil => exact ⟨rfl, ⟨s.taken, rfl⟩, fun _ => ⟨htaken, by simp [feedAll, run, htaken]⟩⟩
  | cons events groups ih =>
    rw [feedAll, List.flatten_cons, run_append]
    cases s.run events with
    | mk t outcome =>
      cases outcome with
      | some fault =>
        refine ⟨rfl, ⟨t.taken, rfl⟩, fun hnone => ?_⟩
        cases hnone
      | none =>
        have hmore := run_taken { t with taken := [] } groups.flatten t.taken
        rw [List.nil_append] at hmore
        obtain ⟨hfault, ⟨slices, hselector⟩, hreturned⟩ := ih (s := { t with taken := [] }) rfl
        dsimp only [handOver]
        rw [show t.run groups.flatten = _ from hmore]
        refine ⟨hfault, ⟨slices, hselector⟩, fun hnone => ?_⟩
        obtain ⟨hempty, hrest⟩ := hreturned hnone
        refine ⟨hempty, ?_⟩
        rw [List.flatten_cons, hrest, List.reverse_append, List.flatten_append]

end UploadDepot.Multipart

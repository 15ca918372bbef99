/-
What a reader makes of a body is a matter of its bytes alone.

A selector that gets the events of single bytes keeps what it would keep of
the whole events, only in smaller slices (`Alike`). So a reader gives the same
file for the same bytes, whatever chunks they come in (`collect_eq`): the one
that their single bytes give (`Reader.bytes?`).
-/
import UploadDepot.Multipart.FilePart
import UploadDepot.Proofs.Multipart.Chunks

namespace UploadDepot.Multipart

namespace Selector

variable {s s' t : Selector} {events : List Event} {bs : Bytes}

theorem run_append (a b : List Event) :
    s.run (a ++ b) =
      match s.run a with
      | (t, some fault) => (t, some fault)
      | (t, none) => t.run b := by
  induction a generalizing s with
  | nil => rfl
  | cons e a ih =>
    rw [List.cons_append, run, run]
    cases s.step e with
    | error fault => rfl
    | ok s => exact ih

/-! ## The slices that were taken -/

/-- Slices that were taken before stay where they are. -/
theorem step_taken (s : Selector) (e : Event) (before : List Bytes) :
    step { s with taken := s.taken ++ before } e =
      (s.step e).map fun s => { s with taken := s.taken ++ before } := by
  cases e with
  | partBegin => rfl
  | headerName bs =>
    simp only [step, charge]
    split <;> rfl
  | headerValue bs =>
    simp only [step, charge]
    split <;> rfl
  | headerEnd => rfl
  | headersFinished =>
    simp only [step, choose]
    cases Header.parameters _ with
    | error fault => rfl
    | ok result =>
      dsimp only
      split <;> rfl
  | data bs =>
    simp only [step]
    split <;> rfl
  | partEnd =>
    simp only [step]
    split <;> rfl

theorem run_taken (s : Selector) (events : List Event) (before : List Bytes) :
    run { s with taken := s.taken ++ before } events =
      ({ (s.run events).1 with taken := (s.run events).1.taken ++ before }, (s.run events).2) := by
  induction events generalizing s with
  | nil => rfl
  | cons e events ih =>
    rw [run, run, step_taken]
    cases s.step e with
    | error fault => rfl
    | ok s => exact ih s

/-! ## Events of single bytes -/

/-- Bytes of a header name. -/
def addName (bs : Bytes) (s : Selector) : Selector :=
  { s with headerBytes := s.headerBytes + bs.length, name := s.name ++ bs }

/-- Bytes of a header value. -/
def addValue (bs : Bytes) (s : Selector) : Selector :=
  { s with headerBytes := s.headerBytes + bs.length, value := s.value ++ bs }

/-- Events whose bytes are charged to the budget, and added to what is there. -/
structure Charged (make : Bytes → Event) (add : Bytes → Selector → Selector) : Prop where
  step : ∀ (s : Selector) (bs : Bytes), s.step (make bs) =
    if s.headerBytes + bs.length > headerBudget then .error (.form .headersTooLarge)
    else .ok (add bs s)
  nil : ∀ s, add [] s = s
  append : ∀ s a b, add b (add a s) = add (a ++ b) s
  headerBytes : ∀ (s : Selector) (bs : Bytes), (add bs s).headerBytes = s.headerBytes + bs.length
  /-- What was taken has no part in it. -/
  taken : ∀ (s : Selector) (bs : Bytes) (slices : List Bytes),
    add bs { s with taken := slices } = { add bs s with taken := slices }

theorem charged_name : Charged .headerName addName := by
  refine ⟨fun s bs => ?_, fun s => ?_, fun s a b => ?_, fun s bs => rfl, fun s bs slices => rfl⟩
  · simp only [step, charge]
    split <;> rfl
  · simp [addName]
  · simp [addName, Nat.add_assoc]

theorem charged_value : Charged .headerValue addValue := by
  refine ⟨fun s bs => ?_, fun s => ?_, fun s a b => ?_, fun s bs => rfl, fun s bs slices => rfl⟩
  · simp only [step, charge]
    split <;> rfl
  · simp [addValue]
  · simp [addValue, Nat.add_assoc]

variable {make : Bytes → Event} {add : Bytes → Selector → Selector}

theorem Charged.run_ok (h : Charged make add) (hbytes : s.headerBytes + bs.length ≤ headerBudget) :
    s.run (bs.map fun b => make [b]) = (add bs s, none) := by
  induction bs generalizing s with
  | nil => rw [h.nil, List.map_nil, run]
  | cons b bs ih =>
    rw [List.length_cons] at hbytes
    have hone : ¬ s.headerBytes + [b].length > headerBudget := by
      rw [List.length_singleton]
      omega
    rw [List.map_cons, run, h.step, if_neg hone]
    dsimp only
    rw [ih (by rw [h.headerBytes, List.length_singleton]; omega), h.append, List.singleton_append]

theorem Charged.run_error (h : Charged make add) (hs : s.headerBytes ≤ headerBudget)
    (hbytes : headerBudget < s.headerBytes + bs.length) :
    ∃ t, s.run (bs.map fun b => make [b]) = (t, some (.form .headersTooLarge)) := by
  induction bs generalizing s with
  | nil =>
    rw [List.length_nil] at hbytes
    omega
  | cons b bs ih =>
    rw [List.map_cons, run, h.step, List.length_singleton]
    by_cases hone : s.headerBytes + 1 > headerBudget
    · rw [if_pos hone]
      exact ⟨s, rfl⟩
    · rw [if_neg hone]
      rw [List.length_cons] at hbytes
      have hadded := h.headerBytes s [b]
      rw [List.length_singleton] at hadded
      exact ih (by omega) (by omega)

/-- Data of single bytes, of a part that is wanted or not. -/
theorem run_dataEvents (s : Selector) (bs : Bytes) :
    s.run (dataEvents bs) =
      ({ s with taken := (if s.inTarget then (bs.map fun b => [b]).reverse else []) ++ s.taken }, none) := by
  induction bs generalizing s with
  | nil =>
    rw [dataEvents, List.map_nil, run]
    split <;> rfl
  | cons b bs ih =>
    show run _ (.data [b] :: dataEvents bs) = _
    rw [run, step]
    dsimp only
    rw [ih]
    cases hs : s.inTarget <;> simp [hs]

/-! ## Selectors that are alike -/

/-- The same, but for how what was taken is cut into slices. -/
structure Alike (s s' : Selector) : Prop where
  rest : s' = { s with taken := s'.taken }
  taken : s'.taken.reverse.flatten = s.taken.reverse.flatten

theorem Alike.refl (s : Selector) : Alike s s := ⟨rfl, rfl⟩

/-- What one event does, to selectors that are alike. -/
theorem Alike.step (h : Alike s s') (e : Event) :
    (∃ t t', s.step e = .ok t ∧ s'.step e = .ok t' ∧ Alike t t') ∨
      ∃ fault, s.step e = .error fault ∧ s'.step e = .error fault := by
  have hs := step_taken { s with taken := [] } e s.taken
  have hs' := step_taken { s with taken := [] } e s'.taken
  rw [h.rest]
  cases hstep : Selector.step { s with taken := [] } e with
  | error fault =>
    rw [hstep] at hs hs'
    exact .inr ⟨fault, hs, hs'⟩
  | ok t =>
    rw [hstep] at hs hs'
    refine .inl ⟨_, _, hs, hs', rfl, ?_⟩
    show (t.taken ++ s'.taken).reverse.flatten = (t.taken ++ s.taken).reverse.flatten
    rw [List.reverse_append, List.reverse_append, List.flatten_append, List.flatten_append, h.taken]

/-- The budget is never overdrawn. -/
theorem step_within {e : Event} (hs : s.headerBytes ≤ headerBudget) (h : s.step e = .ok t) :
    t.headerBytes ≤ headerBudget := by
  cases e with
  | partBegin =>
    cases h
    exact Nat.zero_le _
  | headerName bs =>
    rw [charged_name.step] at h
    split at h
    · cases h
    · cases h
      exact Nat.not_lt.1 ‹_›
  | headerValue bs =>
    rw [charged_value.step] at h
    split at h
    · cases h
    · cases h
      exact Nat.not_lt.1 ‹_›
  | headerEnd =>
    cases h
    exact hs
  | headersFinished =>
    rw [step, choose] at h
    dsimp only at h
    split at h
    · cases h
    split at h
    · cases h
      exact hs
    · cases h
      exact hs
  | data bs =>
    unfold step at h
    cases h
    split
    · exact hs
    · exact hs
  | partEnd =>
    unfold step at h
    cases h
    split
    · exact hs
    · exact hs

theorem Charged.alike (h : Charged make add) (halike : Alike s s') (bs : Bytes) :
    Alike (add bs s) (add bs s') := by
  have hadd : ∀ s, (add bs s).taken = s.taken := by
    intro s
    have hsame : add bs s = { add bs s with taken := s.taken } := h.taken s bs s.taken
    exact (congrArg Selector.taken hsame).trans rfl
  refine ⟨?_, by rw [hadd, hadd, halike.taken]⟩
  have hrest := h.taken s bs s'.taken
  rw [← halike.rest] at hrest
  rw [hadd]
  exact hrest

theorem Charged.single (h : Charged make add) (halike : Alike s s')
    (hs : s.headerBytes ≤ headerBudget) (bs : Bytes) :
    (∃ t t', s.step (make bs) = .ok t ∧ s'.run (bs.map fun b => make [b]) = (t', none) ∧ Alike t t') ∨
      ∃ fault t' fault', s.step (make bs) = .error fault ∧
        s'.run (bs.map fun b => make [b]) = (t', some fault') := by
  have hsame : s'.headerBytes = s.headerBytes := by rw [halike.rest]
  rw [h.step]
  by_cases hbytes : s.headerBytes + bs.length > headerBudget
  · obtain ⟨t', hrun⟩ := h.run_error (hsame ▸ hs) (hsame ▸ hbytes)
    exact .inr ⟨_, t', _, if_pos hbytes, hrun⟩
  · have hrun := h.run_ok (hsame ▸ Nat.not_lt.1 hbytes)
    exact .inl ⟨_, _, if_neg hbytes, hrun, h.alike halike bs⟩

/-- **One event**, and its single bytes. -/
theorem Alike.single (h : Alike s s') (hs : s.headerBytes ≤ headerBudget) (e : Event) :
    (∃ t t', s.step e = .ok t ∧ s'.run e.single = (t', none) ∧ Alike t t') ∨
      ∃ fault t' fault', s.step e = .error fault ∧ s'.run e.single = (t', some fault') := by
  have hone : e.single = [e] →
      (∃ t t', s.step e = .ok t ∧ s'.run e.single = (t', none) ∧ Alike t t') ∨
        ∃ fault t' fault', s.step e = .error fault ∧ s'.run e.single = (t', some fault') := by
    intro hsingle
    rw [hsingle, run]
    rcases h.step e with ⟨t, t', hstep, hstep', halike⟩ | ⟨fault, hstep, hstep'⟩
    · exact .inl ⟨t, t', hstep, by rw [hstep']; rfl, halike⟩
    · exact .inr ⟨fault, s', fault, hstep, by rw [hstep']⟩
  cases e with
  | headerName bs => exact charged_name.single h hs bs
  | headerValue bs => exact charged_value.single h hs bs
  | data bs =>
    obtain ⟨hrest, htaken⟩ := h
    generalize s'.taken = slices at hrest htaken
    subst hrest
    refine .inl ⟨_, _, rfl, run_dataEvents _ bs, ?_, ?_⟩
    · split <;> rfl
    · cases s.inTarget with
      | true => simp [htaken, ← List.flatMap_def]
      | false => simpa using htaken
  | partBegin => exact hone rfl
  | headerEnd => exact hone rfl
  | headersFinished => exact hone rfl
  | partEnd => exact hone rfl

/-- **A run of events**, and their single bytes. -/
theorem Alike.run (h : Alike s s') (hs : s.headerBytes ≤ headerBudget) (events : List Event) :
    (∃ t t', s.run events = (t, none) ∧ s'.run (events.flatMap Event.single) = (t', none) ∧
        Alike t t' ∧ t.headerBytes ≤ headerBudget) ∨
      ∃ t fault t' fault', s.run events = (t, some fault) ∧
        s'.run (events.flatMap Event.single) = (t', some fault') := by
  induction events generalizing s s' with
  | nil => exact .inl ⟨s, s', rfl, rfl, h, hs⟩
  | cons e events ih =>
    rw [Selector.run, List.flatMap_cons, run_append]
    rcases h.single hs e with ⟨t, t', hstep, hrun, halike⟩ | ⟨fault, t', fault', hstep, hrun⟩
    · rw [hstep, hrun]
      exact ih halike (step_within hs hstep)
    · rw [hstep, hrun]
      exact .inr ⟨s, fault, t', fault', rfl, rfl⟩

end Selector

/-! ## Readers -/

namespace Reader

open Selector

variable {r : Reader} {boundary : Bytes}

/-- Reads all bytes one by one: the reader at the end and the bytes of the file, unless they are no
body. -/
def bytes? (r : Reader) (bs : Bytes) : Option (Reader × Bytes) :=
  (bytewise r.scanner.delim r.scanner.place bs).bind fun read =>
    match r.selector.run read.1 with
    | (_, some _) => none
    | (s, none) =>
      some ({ scanner := { r.scanner with place := read.2 }, selector := { s with taken := [] } },
        s.taken.reverse.flatten)

/-- Reads chunks one after the other: the reader at the end, and all bytes of the file they held. -/
def collect (r : Reader) : List Bytes → Except ReadFault (Reader × Bytes)
  | [] => .ok (r, [])
  | chunk :: chunks =>
    match r.feed chunk with
    | (_, .error fault) => .error fault
    | (r, .ok bytes) => (r.collect chunks).map fun (r, more) => (r, bytes ++ more)

/-- Between two chunks. -/
structure Ready (r : Reader) (boundary : Bytes) : Prop where
  delim : r.scanner.delim = delimiter boundary
  taken : r.selector.taken = []
  within : r.selector.headerBytes ≤ headerBudget

theorem ready_start (boundary : Bytes) (field : String) :
    (Reader.start boundary field).Ready boundary := ⟨rfl, rfl, Nat.zero_le _⟩

theorem bytes?_place {bs data : Bytes} {r' : Reader} (h : r.bytes? bs = some (r', data)) :
    ∃ read, bytewise r.scanner.delim r.scanner.place bs = some read ∧ read.2 = r'.scanner.place := by
  obtain ⟨read, hread, hrun⟩ := Option.bind_eq_some_iff.1 h
  refine ⟨read, hread, ?_⟩
  split at hrun
  · cases hrun
  · cases hrun
    rfl

theorem bytes?_append (r : Reader) (a b : Bytes) :
    r.bytes? (a ++ b) =
      (r.bytes? a).bind fun first => (first.1.bytes? b).map fun rest => (rest.1, first.2 ++ rest.2) := by
  rw [bytes?, bytes?, bytewise_append]
  cases bytewise r.scanner.delim r.scanner.place a with
  | none => rfl
  | some first =>
    rw [Option.bind_some, Option.bind_some]
    cases hfirst : r.selector.run first.1 with
    | mk t outcome =>
      cases outcome with
      | some fault =>
        cases bytewise r.scanner.delim first.2 b with
        | none => rfl
        | some rest => simp [run_append, hfirst]
      | none =>
        rw [Option.bind_some, bytes?]
        cases bytewise r.scanner.delim first.2 b with
        | none => rfl
        | some rest =>
          have htaken := run_taken { t with taken := [] } rest.1 t.taken
          rw [List.nil_append] at htaken
          simp only [Option.map_some, Option.bind_some, run_append, hfirst]
          rw [show t.run rest.1 = _ from htaken]
          cases hrest : Selector.run { t with taken := [] } rest.1 with
          | mk u outcome =>
            cases outcome with
            | some fault => rfl
            | none => simp

/-- A chunk is read as these bytes are one by one: to the same reader and the same bytes of the file, or to
a failure if they are no body. -/
def ReadAs (r : Reader) (boundary chunk bs : Bytes) : Prop :=
  (∃ r' data, r.bytes? bs = some (r', data) ∧ r.feed chunk = (r', .ok data) ∧ r'.Ready boundary) ∨
    (r.bytes? bs = none ∧ ∃ r' fault, r.feed chunk = (r', .error fault))

/-- A chunk that is scanned as some bytes are is read as they are. -/
theorem readAs_of_scanned (hr : r.Ready boundary) {chunk bs : Bytes}
    (hscanned : Scanned r.scanner.delim r.scanner.place bs []
      (scanFrom r.scanner.delim r.scanner.delim_ne chunk.length [] r.scanner.place chunk)) :
    r.ReadAs boundary chunk bs := by
  obtain ⟨⟨delim, hd, place⟩, selector⟩ := r
  obtain ⟨hdelim, htaken, hwithin⟩ := hr
  dsimp only at hdelim htaken hwithin hscanned
  rw [ReadAs, feed, Scanner.scan, bytes?]
  dsimp only
  generalize scanFrom _ hd _ [] place chunk = scanned at hscanned ⊢
  cases hscanned with
  | broken hbytes =>
    rename_i events fault
    rw [hbytes]
    refine .inr ⟨rfl, ?_⟩
    dsimp only [Except.map]
    cases selector.run events with
    | mk t outcome => cases outcome <;> exact ⟨_, _, rfl⟩
  | whole hbytes =>
    rename_i events place'
    rw [hbytes, Option.bind_some]
    dsimp only [Except.map, List.reverse_nil, List.nil_append]
    rcases (Alike.refl selector).run hwithin events with
      ⟨t, t', hrun, hsingle, halike, hwithin'⟩ | ⟨t, fault, t', fault', hrun, hsingle⟩
    · rw [hrun, hsingle]
      have hsame : { t' with taken := [] } = { t with taken := [] } := by rw [halike.rest]
      refine .inl ⟨_, _, rfl, ?_, hdelim, rfl, ?_⟩
      · simp only [handOver, hsame, halike.taken]
      · exact le_of_eq_of_le (congrArg Selector.headerBytes hsame) hwithin'
    · rw [hrun, hsingle]
      exact .inr ⟨rfl, _, _, rfl⟩

theorem Ready.scanned (hr : r.Ready boundary) (hb : cr ∉ boundary) {bs : Bytes} (total : Nat)
    (hsteady : Steady r.scanner.place bs) :
    Scanned r.scanner.delim r.scanner.place bs []
      (scanFrom r.scanner.delim r.scanner.delim_ne total [] r.scanner.place bs) := by
  obtain ⟨⟨delim, hd, place⟩, selector⟩ := r
  obtain rfl : delim = delimiter boundary := hr.delim
  exact scanFrom_bytewise hb hd total [] hsteady

/-- **One chunk.** -/
theorem readAs_self (hr : r.Ready boundary) (hb : cr ∉ boundary) {chunk : Bytes}
    (hsteady : Steady r.scanner.place chunk) : r.ReadAs boundary chunk chunk :=
  readAs_of_scanned hr (hr.scanned hb chunk.length hsteady)

theorem Ready.bytes?_nil (hr : r.Ready boundary) : r.bytes? [] = some (r, []) := by
  obtain ⟨⟨delim, hd, place⟩, selector⟩ := r
  have htaken : selector.taken = [] := hr.taken
  have hselector : { selector with taken := [] } = selector := by rw [← htaken]
  rw [bytes?, bytewise, Option.bind_some, run]
  dsimp only
  rw [hselector, htaken]
  rfl

/-- **A body in chunks** is read as its bytes are, one by one. -/
theorem collect_eq (hr : r.Ready boundary) (hb : cr ∉ boundary) {chunks : List Bytes}
    (hsteady : Steady r.scanner.place chunks.flatten) :
    (r.collect chunks).toOption = r.bytes? chunks.flatten := by
  induction chunks generalizing r with
  | nil => exact hr.bytes?_nil.symm
  | cons chunk chunks ih =>
    rw [List.flatten_cons] at hsteady ⊢
    rw [bytes?_append, collect]
    rcases readAs_self hr hb hsteady.left with ⟨r', data, hbytes, hfeed, hready⟩ | ⟨hbytes, r', fault, hfeed⟩
    · obtain ⟨read, hread, hplace⟩ := bytes?_place hbytes
      rw [hr.delim] at hread
      rw [hbytes, hfeed, Option.bind_some]
      dsimp only
      rw [← ih hready (hplace ▸ hsteady.right hread)]
      cases r'.collect chunks <;> rfl
    · rw [hbytes, hfeed]
      rfl

theorem ok_of_toOption {ε α : Type} {x : Except ε α} {a : α} (h : x.toOption = some a) : x = .ok a := by
  cases x with
  | error e => cases h
  | ok b => exact congrArg Except.ok (Option.some.inj h)

/-- Bytes that begin with no line break, for a reader before its first chunk. -/
theorem collect_start (field : String) (hb : cr ∉ boundary) {chunks : List Bytes}
    (hsteady : Steady .preamble chunks.flatten) {result : Reader × Bytes}
    (h : (Reader.start boundary field).bytes? chunks.flatten = some result) :
    (Reader.start boundary field).collect chunks = .ok result :=
  ok_of_toOption ((collect_eq (ready_start boundary field) hb hsteady).trans h)

end Reader

end UploadDepot.Multipart

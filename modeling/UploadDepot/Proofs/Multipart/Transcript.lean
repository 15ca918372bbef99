/-
What a run of events says, part by part.

A `Transcript` has the parts that have ended, and what has come of the part at
hand. The runs of events with a transcript are the beginnings of parts one
after the other (`transcript_iff_prefix`), so a run may stop anywhere. `Hears`
is the same grammar event by event: which event may follow, and what it adds.
-/
import UploadDepot.Proofs.Multipart.Faults
import UploadDepot.Proofs.Table

namespace UploadDepot.Multipart

/-! ## Headers and parts -/

/-- A header in fragments. -/
structure HeaderRun where
  names : List Bytes := []
  values : List Bytes := []

namespace HeaderRun

/-- The name, in small letters. -/
def key (h : HeaderRun) : Bytes := Bytes.lower h.names.flatten

def value (h : HeaderRun) : Bytes := h.values.flatten

/-- The bytes that count against the budget. -/
def size (h : HeaderRun) : Nat := h.names.flatten.length + h.values.flatten.length

/-- The bytes of several headers. -/
def total (headers : List HeaderRun) : Nat := (headers.map size).sum

/-- Headers by name: of those with one name, the last one counts. -/
def table (headers : List HeaderRun) : Header.Parameters :=
  headers.foldl (fun t h => t.set h.key h.value) []

def fragments (h : HeaderRun) : List Event := h.names.map .headerName ++ h.values.map .headerValue

def events (h : HeaderRun) : List Event := h.fragments ++ [.headerEnd]

theorem size_names (names values : List Bytes) (bs : Bytes) :
    size ⟨names ++ [bs], values⟩ = size ⟨names, values⟩ + bs.length := by
  simp only [size, List.flatten_append, List.flatten_singleton, List.length_append]
  omega

theorem size_values (names values : List Bytes) (bs : Bytes) :
    size ⟨names, values ++ [bs]⟩ = size ⟨names, values⟩ + bs.length := by
  simp only [size, List.flatten_append, List.flatten_singleton, List.length_append]
  omega

theorem total_append (headers more : List HeaderRun) :
    total (headers ++ more) = total headers + total more := by
  rw [total, List.map_append, List.sum_append, total, total]

theorem total_singleton (h : HeaderRun) : total [h] = h.size := List.sum_singleton

theorem table_snoc (headers : List HeaderRun) (h : HeaderRun) :
    table (headers ++ [h]) = (table headers).set h.key h.value := List.foldl_concat ..

end HeaderRun

/-- A part: its headers, and its data in slices. -/
structure PartRun where
  headers : List HeaderRun
  slices : List Bytes := []

namespace PartRun

/-- The last disposition among the headers, empty if there is none. -/
def disposition (p : PartRun) : Bytes :=
  ((p.headers.filter (·.key = dispositionKey)).map HeaderRun.value).getLast?.getD []

/-- Whether the disposition gives the name of the field and a file name. -/
def isFile (field : String) (p : PartRun) : Bool :=
  match Header.parameters (Bytes.latin1 p.disposition) with
  | .error _ => false
  | .ok (_, ps) =>
    (ps.get? (Bytes.ofText "filename")).isSome &&
      decide (Bytes.latin1 ((ps.get? (Bytes.ofText "name")).getD []) = field.toList)

/-- The parameters of the disposition can be told. -/
def Readable (p : PartRun) : Prop := Header.sectionFault? (Bytes.latin1 p.disposition) = none

def events (p : PartRun) : List Event :=
  .partBegin :: (p.headers.flatMap HeaderRun.events ++
    .headersFinished :: (p.slices.map .data ++ [.partEnd]))

theorem disposition_eq (p : PartRun) :
    p.disposition = ((HeaderRun.table p.headers).get? dispositionKey).getD [] := by
  rw [HeaderRun.table, Table.get?_foldl_set, disposition, Table.get?, Option.or_none]

end PartRun

/-! ## Transcripts -/

/-- How far the part at hand has come. -/
inductive Stage where
  | between
  /-- The headers that are complete, and the one that is not. -/
  | heading (headers : List HeaderRun) (pending : HeaderRun)
  | body (part : PartRun)

/-- What has been heard. -/
structure Transcript where
  ended : List PartRun := []
  stage : Stage := .between

namespace Transcript

/-- The parts whose headers are complete. -/
def parts (t : Transcript) : List PartRun :=
  t.ended ++ match t.stage with
    | .body p => [p]
    | _ => []

/-- The complete headers of the last part that has begun. -/
def headers (t : Transcript) : List HeaderRun :=
  match t.stage with
  | .between => (t.ended.getLast?.map PartRun.headers).getD []
  | .heading headers _ => headers
  | .body p => p.headers

/-- The header that is not complete. -/
def pending (t : Transcript) : HeaderRun :=
  match t.stage with
  | .heading _ h => h
  | _ => {}

/-- The header bytes of every part that has begun. -/
def sizes (t : Transcript) : List Nat :=
  t.ended.map (HeaderRun.total ·.headers) ++ match t.stage with
    | .between => []
    | .heading headers h => [HeaderRun.total headers + h.size]
    | .body p => [HeaderRun.total p.headers]

/-- No part has more header bytes than it may. -/
def Within (t : Transcript) : Prop := ∀ n ∈ t.sizes, n ≤ headerBudget

/-- Of every part whose headers are complete, the parameters can be told. -/
def Readable (t : Transcript) : Prop := ∀ p ∈ t.parts, p.Readable

/-- The first part that is a file of the field. -/
def file? (field : String) (t : Transcript) : Option PartRun := t.parts.find? (·.isFile field)

/-- The same among the parts that have ended. -/
def endedFile? (field : String) (t : Transcript) : Option PartRun := t.ended.find? (·.isFile field)

def events (t : Transcript) : List Event :=
  t.ended.flatMap PartRun.events ++ match t.stage with
    | .between => []
    | .heading headers h => .partBegin :: (headers.flatMap HeaderRun.events ++ h.fragments)
    | .body p => .partBegin :: (p.headers.flatMap HeaderRun.events ++
        .headersFinished :: p.slices.map .data)

section Stages

variable {ended : List PartRun} {headers : List HeaderRun} {h : HeaderRun} {p : PartRun}

theorem within_between :
    Within ⟨ended, .between⟩ ↔ ∀ p ∈ ended, HeaderRun.total p.headers ≤ headerBudget := by
  simp [Within, sizes]

theorem within_heading : Within ⟨ended, .heading headers h⟩ ↔
    Within ⟨ended, .between⟩ ∧ HeaderRun.total headers + h.size ≤ headerBudget := by
  simp [Within, sizes, or_imp, forall_and]

theorem within_body :
    Within ⟨ended, .body p⟩ ↔ Within ⟨ended, .between⟩ ∧ HeaderRun.total p.headers ≤ headerBudget := by
  simp [Within, sizes, or_imp, forall_and]

/-- A part has the same header bytes when it has ended. -/
theorem within_ended : Within ⟨ended ++ [p], .between⟩ ↔ Within ⟨ended, .body p⟩ := by
  simp [Within, sizes]

theorem readable_body : Readable ⟨ended, .body p⟩ ↔ Readable ⟨ended, .between⟩ ∧ p.Readable := by
  simp [Readable, parts, or_imp, forall_and]

theorem readable_ended : Readable ⟨ended ++ [p], .between⟩ ↔ Readable ⟨ended, .body p⟩ := by
  simp [Readable, parts]

end Stages

end Transcript

/-- **The grammar of parts.** A header has the fragments of its name first and then those of its
value. -/
inductive Hears : Transcript → Event → Transcript → Prop
  | partBegin {ended} : Hears ⟨ended, .between⟩ .partBegin ⟨ended, .heading [] {}⟩
  | headerName {ended headers names} (bs : Bytes) :
    Hears ⟨ended, .heading headers ⟨names, []⟩⟩ (.headerName bs)
      ⟨ended, .heading headers ⟨names ++ [bs], []⟩⟩
  | headerValue {ended headers names values} (bs : Bytes) :
    Hears ⟨ended, .heading headers ⟨names, values⟩⟩ (.headerValue bs)
      ⟨ended, .heading headers ⟨names, values ++ [bs]⟩⟩
  | headerEnd {ended headers h} :
    Hears ⟨ended, .heading headers h⟩ .headerEnd ⟨ended, .heading (headers ++ [h]) {}⟩
  | headersFinished {ended headers} :
    Hears ⟨ended, .heading headers {}⟩ .headersFinished ⟨ended, .body { headers }⟩
  | data {ended headers slices} (bs : Bytes) :
    Hears ⟨ended, .body ⟨headers, slices⟩⟩ (.data bs) ⟨ended, .body ⟨headers, slices ++ [bs]⟩⟩
  | partEnd {ended p} : Hears ⟨ended, .body p⟩ .partEnd ⟨ended ++ [p], .between⟩

/-- A run of events that follows the grammar. -/
inductive Heard : Transcript → List Event → Transcript → Prop
  | nil {t} : Heard t [] t
  | cons {t u v e es} : Hears t e u → Heard u es v → Heard t (e :: es) v

variable {t u v : Transcript} {e : Event} {es es' : List Event}

theorem Heard.append (h : Heard t es u) (h' : Heard u es' v) : Heard t (es ++ es') v := by
  induction h with
  | nil => exact h'
  | cons hears _ ih => exact .cons hears (ih h')

theorem Heard.split (h : Heard t (es ++ es') v) : ∃ u, Heard t es u ∧ Heard u es' v := by
  induction es generalizing t with
  | nil => exact ⟨t, .nil, h⟩
  | cons e es ih =>
    obtain _ | ⟨hears, hrest⟩ := h
    obtain ⟨u, hfirst, hlast⟩ := ih hrest
    exact ⟨u, .cons hears hfirst, hlast⟩

/-- What is heard next is settled by what was heard. -/
theorem Hears.unique (h : Hears t e u) (h' : Hears t e v) : u = v := by
  cases h <;> cases h' <;> rfl

theorem Heard.unique (h : Heard t es u) (h' : Heard t es v) : u = v := by
  induction h with
  | nil =>
    cases h'
    rfl
  | cons hears _ ih =>
    obtain _ | ⟨hears', hrest⟩ := h'
    exact ih (hears'.unique hears ▸ hrest)

/-! ## What is heard is the beginning of parts -/

theorem Hears.events (h : Hears t e u) : u.events = t.events ++ [e] := by
  cases h <;> simp [Transcript.events, HeaderRun.fragments, HeaderRun.events, PartRun.events]

theorem Heard.events (h : Heard t es u) : u.events = t.events ++ es := by
  induction h with
  | nil => rw [List.append_nil]
  | cons hears _ ih => rw [ih, hears.events, List.append_assoc, List.singleton_append]

section Pieces

variable (ended : List PartRun) (headers : List HeaderRun)

theorem heard_names (names more : List Bytes) :
    Heard ⟨ended, .heading headers ⟨names, []⟩⟩ (more.map .headerName)
      ⟨ended, .heading headers ⟨names ++ more, []⟩⟩ := by
  induction more generalizing names with
  | nil => rw [List.append_nil]; exact .nil
  | cons bs more ih => exact .cons (.headerName bs) (by simpa using ih (names ++ [bs]))

theorem heard_values (names values more : List Bytes) :
    Heard ⟨ended, .heading headers ⟨names, values⟩⟩ (more.map .headerValue)
      ⟨ended, .heading headers ⟨names, values ++ more⟩⟩ := by
  induction more generalizing values with
  | nil => rw [List.append_nil]; exact .nil
  | cons bs more ih => exact .cons (.headerValue bs) (by simpa using ih (values ++ [bs]))

theorem heard_headers (more : List HeaderRun) :
    Heard ⟨ended, .heading headers {}⟩ (more.flatMap HeaderRun.events)
      ⟨ended, .heading (headers ++ more) {}⟩ := by
  induction more generalizing headers with
  | nil => rw [List.append_nil]; exact .nil
  | cons h more ih =>
    have hfragments := (heard_names ended headers [] h.names).append
      (heard_values ended headers h.names [] h.values)
    have hone := hfragments.append (.cons .headerEnd .nil)
    rw [List.flatMap_cons, List.append_cons]
    exact hone.append (ih (headers ++ [h]))

theorem heard_slices (slices more : List Bytes) :
    Heard ⟨ended, .body ⟨headers, slices⟩⟩ (more.map .data) ⟨ended, .body ⟨headers, slices ++ more⟩⟩ := by
  induction more generalizing slices with
  | nil => rw [List.append_nil]; exact .nil
  | cons bs more ih => exact .cons (.data bs) (by simpa using ih (slices ++ [bs]))

theorem heard_parts (parts : List PartRun) :
    Heard ⟨ended, .between⟩ (parts.flatMap PartRun.events) ⟨ended ++ parts, .between⟩ := by
  induction parts generalizing ended with
  | nil => rw [List.append_nil]; exact .nil
  | cons p parts ih =>
    have hbody := (heard_slices ended p.headers [] p.slices).append (.cons .partEnd .nil)
    have hpart : Heard ⟨ended, .between⟩ p.events ⟨ended ++ [p], .between⟩ :=
      .cons .partBegin ((heard_headers ended [] p.headers).append (.cons .headersFinished hbody))
    rw [List.flatMap_cons, List.append_cons]
    exact hpart.append (ih (ended ++ [p]))

end Pieces

/-- **Every transcript is heard** from its events. -/
theorem Transcript.heard (t : Transcript) : Heard {} t.events t := by
  obtain ⟨ended, stage⟩ := t
  have hended : Heard {} (ended.flatMap PartRun.events) ⟨ended, .between⟩ := heard_parts [] ended
  refine hended.append ?_
  cases stage with
  | between => exact .nil
  | heading headers h =>
    exact .cons .partBegin ((heard_headers ended [] headers).append
      ((heard_names ended headers [] h.names).append (heard_values ended headers h.names [] h.values)))
  | body p =>
    exact .cons .partBegin ((heard_headers ended [] p.headers).append
      (.cons .headersFinished (heard_slices ended p.headers [] p.slices)))

theorem Transcript.events_injective (h : t.events = u.events) : t = u := t.heard.unique (h ▸ u.heard)

/-- A transcript goes on to whole parts. -/
theorem Transcript.events_prefix (t : Transcript) :
    ∃ parts : List PartRun, t.events <+: parts.flatMap PartRun.events := by
  obtain ⟨ended, stage⟩ := t
  cases stage with
  | between => exact ⟨ended, by simp [events]⟩
  | heading headers h =>
    refine ⟨ended ++ [{ headers := headers ++ [h] }], .headerEnd :: [.headersFinished, .partEnd], ?_⟩
    simp [events, PartRun.events, HeaderRun.events]
  | body p =>
    refine ⟨ended ++ [p], [.partEnd], ?_⟩
    simp [events, PartRun.events]

/-- **The runs of events with a transcript** are the beginnings of parts one after the other. -/
theorem transcript_iff_prefix :
    (∃ t : Transcript, t.events = es) ↔ ∃ parts : List PartRun, es <+: parts.flatMap PartRun.events := by
  constructor
  · rintro ⟨t, rfl⟩
    exact t.events_prefix
  · rintro ⟨parts, rest, hrest⟩
    obtain ⟨t, h, -⟩ := (hrest ▸ heard_parts [] parts : Heard _ (es ++ rest) _).split
    exact ⟨t, h.events⟩

/-! ## What only grows -/

open Transcript

/-- Header bytes only become more. -/
theorem Hears.within (h : Hears t e u) (hu : u.Within) : t.Within := by
  cases h with
  | partBegin => exact (within_heading.1 hu).1
  | headerName bs =>
    rw [within_heading, HeaderRun.size_names] at hu
    exact within_heading.2 ⟨hu.1, by omega⟩
  | headerValue bs =>
    rw [within_heading, HeaderRun.size_values] at hu
    exact within_heading.2 ⟨hu.1, by omega⟩
  | headerEnd =>
    rw [within_heading, HeaderRun.total_append, HeaderRun.total_singleton] at hu
    exact within_heading.2 hu
  | headersFinished => exact within_heading.2 (within_body.1 hu)
  | data bs => exact within_body.2 (within_body.1 hu)
  | partEnd => exact within_ended.1 hu

/-- Parts only become more, and keep their headers. -/
theorem Hears.parts (h : Hears t e u) {p : PartRun} (hp : p ∈ t.parts) :
    ∃ q ∈ u.parts, q.headers = p.headers := by
  cases h with
  | partBegin => exact ⟨p, hp, rfl⟩
  | headerName bs => exact ⟨p, hp, rfl⟩
  | headerValue bs => exact ⟨p, hp, rfl⟩
  | headerEnd => exact ⟨p, hp, rfl⟩
  | headersFinished => exact ⟨p, List.mem_append_left _ (by simpa [Transcript.parts] using hp), rfl⟩
  | data bs =>
    rcases List.mem_append.1 hp with hp | hp
    · exact ⟨p, List.mem_append_left _ hp, rfl⟩
    · obtain rfl := List.mem_singleton.1 hp
      exact ⟨_, List.mem_append_right _ List.mem_cons_self, rfl⟩
  | partEnd => exact ⟨p, List.mem_append_left _ hp, rfl⟩

theorem Heard.within (h : Heard t es u) (hu : u.Within) : t.Within := by
  induction h with
  | nil => exact hu
  | cons hears _ ih => exact hears.within (ih hu)

theorem Heard.parts (h : Heard t es u) {p : PartRun} (hp : p ∈ t.parts) :
    ∃ q ∈ u.parts, q.headers = p.headers := by
  induction h generalizing p with
  | nil => exact ⟨p, hp, rfl⟩
  | cons hears _ ih =>
    obtain ⟨q, hq, hheaders⟩ := hears.parts hp
    rw [← hheaders]
    exact ih hq

end UploadDepot.Multipart

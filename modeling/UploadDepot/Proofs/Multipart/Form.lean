/-
Forms as they are sent, and that they are read back.

A `Form` is a list of parts between boundaries, each with the lines of its
header, a disposition among them, and its data. The bytes of a form make the
reader give the data of the first part that is a file of the wanted name
(`bytes?_encode`), so any chunks of them do (`collect_encode`).
-/
import Mathlib.Algebra.Ring.Nat
import UploadDepot.Proofs.Header.Disposition
import UploadDepot.Proofs.Multipart.Selection
import UploadDepot.Proofs.Table

namespace UploadDepot.Multipart

open Header (Token Disposition)

/-! ## Forms -/

/-- One line of the header of a part. -/
structure HeaderLine where
  name : Token
  /-- Spaces after the colon. -/
  spaces : Nat
  value : Bytes
  unbroken : cr ∉ value
  unindented : value.head? ≠ some space

/-- The name in small letters. -/
def HeaderLine.key (l : HeaderLine) : Bytes := Bytes.lower l.name.bytes

/-- The bytes that count against the budget. -/
def HeaderLine.size (l : HeaderLine) : Nat := l.name.bytes.length + l.value.length

/-- The bytes of a line. -/
def HeaderLine.encode (l : HeaderLine) : Bytes :=
  l.name.bytes ++ colon :: (List.replicate l.spaces space ++ (l.value ++ [cr, lf]))

/-- The name of the line that says what a part is. -/
def dispositionKey : Bytes := Bytes.ofText "content-disposition"

/-- A part of a form. -/
structure Part where
  lines : List HeaderLine
  disposition : Disposition
  /-- One of the lines is the disposition. -/
  disposed : (lines.filter (·.key = dispositionKey)).map HeaderLine.value = [disposition.value]
  within : (lines.map HeaderLine.size).sum ≤ headerBudget
  data : Bytes

/-- The bytes of a part. -/
def Part.encode (p : Part) : Bytes := p.lines.flatMap HeaderLine.encode ++ ([cr, lf] ++ p.data)

/-- The data of a part, if it is a file of that name. -/
def Part.file? (field : String) (p : Part) : Option Bytes :=
  let name := (p.disposition.table.get? (Bytes.ofText "name")).getD []
  let filename := p.disposition.table.get? (Bytes.ofText "filename")
  if filename.isSome ∧ Bytes.latin1 name = field.toList then some p.data else none

/-- A form, with whatever comes after its last boundary. -/
structure Form where
  boundary : Bytes
  unbroken : cr ∉ boundary
  parts : List Part
  /-- No data hold the delimiter. -/
  delimited : ∀ p ∈ parts, ¬ delimiter boundary <:+: p.data
  epilogue : Bytes

/-- The bytes of the parts, each between two boundaries. -/
def encodeParts (boundary : Bytes) (parts : List Part) : Bytes :=
  parts.flatMap fun p => [cr, lf] ++ (p.encode ++ delimiter boundary)

/-- The bytes of a form. -/
def Form.encode (f : Form) : Bytes :=
  [dash, dash] ++ f.boundary ++ (encodeParts f.boundary f.parts ++ ([dash, dash] ++ f.epilogue))

/-- The data of the first part that is a file of that name. -/
def Form.file? (f : Form) (field : String) : Option Bytes := f.parts.findSome? (Part.file? field)

/-! ## The bytes of a part -/

variable {delim boundary : Bytes} {place : Place}

/-- The bytes of a line, as events. -/
def HeaderLine.events (l : HeaderLine) : List Event :=
  (l.name.bytes.map fun b => .headerName [b]) ++ ((l.value.map fun b => .headerValue [b]) ++ [.headerEnd])

theorem bytewise_name (t : Token) :
    bytewise delim .nameStart t.bytes = some (t.bytes.map fun b => .headerName [b], .name) := by
  have hname : ∀ b, isTokenByte b = true →
      byteStep delim .name b = some ([.headerName [b]], .name) := by
    intro b hb
    rw [byteStep_name, if_pos hb]
  have htoken := t.isToken
  obtain ⟨b, bs, hbs⟩ := List.exists_cons_of_ne_nil t.nonempty
  rw [hbs] at htoken ⊢
  have hb := htoken b (by simp)
  have hfirst : byteStep delim .nameStart b = some ([.headerName [b]], .name) := by
    have hcr : b ≠ cr := by
      rintro rfl
      cases hb
    have hcolon : b ≠ colon := by
      rintro rfl
      cases hb
    rw [byteStep_nameStart, if_neg hcr, if_neg hcolon, hname b hb]
  have hrest : bytewise delim .name bs = some (bs.map fun b => .headerName [b], .name) := by
    apply bytewise_each
    intro c hc
    exact hname c (htoken c (by simp [hc]))
  rw [bytewise_cons hfirst, hrest]
  rfl

theorem bytewise_value {value : Bytes} (hcr : cr ∉ value) (hspace : value.head? ≠ some space) :
    bytewise delim .valueStart (value ++ [cr]) =
      some ((value.map fun b => .headerValue [b]) ++ [.headerEnd], .valueEnd) := by
  have hend : byteStep delim .value cr = some ([.headerEnd], .valueEnd) := by
    rw [byteStep_value, if_pos rfl]
  have hbyte : ∀ b ∈ value, byteStep delim .value b = some ([.headerValue [b]], .value) := by
    intro b hb
    have hne : b ≠ cr := by
      rintro rfl
      exact hcr hb
    rw [byteStep_value, if_neg hne]
  cases value with
  | nil =>
    refine bytewise_one ?_
    rw [byteStep_valueStart, if_neg (by decide), hend]
    rfl
  | cons b bs =>
    have hfirst : byteStep delim .valueStart b = some ([.headerValue [b]], .value) := by
      have hne : b ≠ space := by simpa using hspace
      rw [byteStep_valueStart, if_neg hne, hbyte b (by simp)]
    have hrest : bytewise delim .value bs = some (bs.map fun b => .headerValue [b], .value) := by
      apply bytewise_each
      intro c hc
      exact hbyte c (by simp [hc])
    rw [List.cons_append, bytewise_cons hfirst, bytewise_append_some hrest (bytewise_one hend)]
    rfl

/-- A line of a header. -/
theorem bytewise_line (l : HeaderLine) :
    bytewise delim .nameStart l.encode = some (l.events, .nameStart) := by
  have hcolon : byteStep delim .name colon = some ([], .valueStart) := by
    rw [byteStep_name, if_neg (by decide), if_pos rfl]
  have hspaces : bytewise delim .valueStart (List.replicate l.spaces space) = some ([], .valueStart) := by
    apply bytewise_skips
    intro b hb
    rw [byteStep_valueStart, if_pos (List.eq_of_mem_replicate hb)]
  have hlf : bytewise delim .valueEnd [lf] = some ([], .nameStart) := by
    refine bytewise_one ?_
    rw [byteStep_valueEnd, if_pos rfl]
  have hvalue : bytewise delim .valueStart (l.value ++ [cr, lf]) =
      some ((l.value.map fun b => .headerValue [b]) ++ [.headerEnd], .nameStart) := by
    have := bytewise_append_some (bytewise_value l.unbroken l.unindented) hlf
    rwa [List.append_assoc, List.append_nil] at this
  have hrest := bytewise_append_some hspaces hvalue
  unfold HeaderLine.encode HeaderLine.events
  refine bytewise_append_some (bytewise_name l.name) ?_
  rw [bytewise_cons hcolon, hrest]
  rfl

theorem bytewise_lines (lines : List HeaderLine) :
    bytewise delim .nameStart (lines.flatMap HeaderLine.encode) =
      some (lines.flatMap HeaderLine.events, .nameStart) := by
  induction lines with
  | nil => rfl
  | cons l lines ih => exact bytewise_append_some (bytewise_line l) ih

/-- What a part says, from the end of one boundary to the end of the next. -/
def Part.events (p : Part) : List Event :=
  p.lines.flatMap HeaderLine.events ++ (.headersFinished :: dataEvents p.data)

theorem bytewise_part (hb : cr ∉ boundary) {p : Part} (hno : ¬ delimiter boundary <:+: p.data) :
    bytewise (delimiter boundary) .nameStart (p.encode ++ delimiter boundary) =
      some (p.events, .data (delimiter boundary)) := by
  have hcr : byteStep (delimiter boundary) .nameStart cr = some ([], .headersEnd) := by
    rw [byteStep_nameStart, if_pos rfl]
  have hlf : byteStep (delimiter boundary) .headersEnd lf = some ([.headersFinished], .data []) := by
    rw [byteStep_headersEnd, if_pos rfl]
  unfold Part.encode Part.events
  rw [List.append_assoc]
  refine bytewise_append_some (bytewise_lines p.lines) ?_
  rw [List.append_assoc, List.cons_append, bytewise_cons hcr, List.singleton_append, bytewise_cons hlf,
    bytewise_data_delimiter hb hno]
  rfl

/-! ## The bytes of a form -/

/-- The place after a boundary, and the events that the next bytes bring with them: after the first
boundary there is no part to end. -/
inductive Joint (boundary : Bytes) : Place → List Event → Prop
  | first : Joint boundary (.opening (boundary.length + 2)) []
  | later : Joint boundary (.data (delimiter boundary)) [.partEnd]

/-- What may follow a delimiter is held back with it. -/
theorem byteStep_delimiter (boundary : Bytes) {c : UInt8} (hc : c = cr ∨ c = dash) :
    byteStep (delimiter boundary) (.data (delimiter boundary)) c =
      some ([], .data (delimiter boundary ++ [c])) := by
  have hgrows : (delimiter boundary ++ [c]).isPrefixOf (delimiter boundary ++ [cr, lf]) = true ∨
      (delimiter boundary ++ [c]).isPrefixOf (delimiter boundary ++ [dash, dash]) = true := by
    simp only [List.isPrefixOf_iff_prefix]
    rcases hc with rfl | rfl
    · exact .inl ⟨[lf], by simp⟩
    · exact .inr ⟨[dash], by simp⟩
  rw [byteStep_held _ _ (by simp [delimiter]), if_neg (by simp), if_neg (by simp),
    if_pos (by simpa using hgrows)]

theorem Joint.next {ends : List Event} (h : Joint boundary place ends) :
    bytewise (delimiter boundary) place [cr, lf] = some (ends ++ [.partBegin], .nameStart) := by
  have hlen : (delimiter boundary).length = boundary.length + 4 := by simp [delimiter]
  cases h with
  | first =>
    have hcr : byteStep (delimiter boundary) (.opening (boundary.length + 2)) cr =
        some ([], .opening (boundary.length + 3)) := by
      rw [byteStep_opening, hlen, if_pos rfl, if_neg (by decide), if_pos rfl]
    have hlf : byteStep (delimiter boundary) (.opening (boundary.length + 3)) lf =
        some ([.partBegin], .nameStart) := by
      rw [byteStep_opening, hlen, if_neg (by omega), if_pos (by omega), if_pos rfl]
    rw [bytewise_cons hcr, bytewise_one hlf]
    rfl
  | later =>
    have hcr := byteStep_delimiter boundary (.inl rfl : cr = cr ∨ cr = dash)
    have hlf : byteStep (delimiter boundary) (.data (delimiter boundary ++ [cr])) lf =
        some ([.partEnd, .partBegin], .nameStart) := by
      rw [byteStep_held _ _ (by simp), if_pos (by simp)]
    rw [bytewise_cons hcr, bytewise_one hlf]
    rfl

theorem Joint.last {ends : List Event} (h : Joint boundary place ends) :
    bytewise (delimiter boundary) place [dash, dash] = some (ends, .epilogue) := by
  have hlen : (delimiter boundary).length = boundary.length + 4 := by simp [delimiter]
  cases h with
  | first =>
    have hdash : byteStep (delimiter boundary) (.opening (boundary.length + 2)) dash =
        some ([], .closing) := by
      rw [byteStep_opening, hlen, if_pos rfl, if_pos rfl]
    have hclose : byteStep (delimiter boundary) .closing dash = some ([], .epilogue) := by
      rw [byteStep_closing, if_pos rfl]
    rw [bytewise_cons hdash, bytewise_one hclose]
    rfl
  | later =>
    have hdash := byteStep_delimiter boundary (.inr rfl : dash = cr ∨ dash = dash)
    have hclose : byteStep (delimiter boundary) (.data (delimiter boundary ++ [dash])) dash =
        some ([.partEnd], .epilogue) := by
      have hne : delimiter boundary ++ [dash] ++ [dash] ≠ delimiter boundary ++ [cr, lf] := by
        intro he
        rw [List.append_assoc] at he
        exact absurd (List.append_cancel_left he) (by decide)
      rw [byteStep_held _ _ (by simp), if_neg hne, if_pos (by simp)]
    rw [bytewise_cons hdash, bytewise_one hclose]
    rfl

/-- What all parts say. -/
def partsEvents (parts : List Part) : List Event :=
  parts.flatMap fun p => .partBegin :: (p.events ++ [.partEnd])

/-- All parts, and the end of the body. -/
theorem bytewise_parts (hb : cr ∉ boundary) (epilogue : Bytes) {parts : List Part}
    (hno : ∀ p ∈ parts, ¬ delimiter boundary <:+: p.data) {ends : List Event}
    (h : Joint boundary place ends) :
    bytewise (delimiter boundary) place (encodeParts boundary parts ++ ([dash, dash] ++ epilogue)) =
      some (ends ++ partsEvents parts, .epilogue) := by
  induction parts generalizing place ends with
  | nil =>
    have hepilogue : bytewise (delimiter boundary) .epilogue epilogue = some ([], .epilogue) :=
      bytewise_skips fun _ _ => byteStep_epilogue
    have hlast := bytewise_append_some h.last hepilogue
    exact hlast
  | cons p parts ih =>
    have hpart := bytewise_append_some h.next (bytewise_part hb (hno p List.mem_cons_self))
    have hrest := ih (fun p hp => hno p (List.mem_cons_of_mem _ hp)) .later
    have hall := bytewise_append_some hpart hrest
    rw [encodeParts, List.flatMap_cons, List.append_assoc]
    refine hall.trans ?_
    simp [partsEvents]

theorem bytewise_boundary {matched : Nat} {bs : Bytes}
    (h : (delimiter boundary).drop (matched + 2) = bs) :
    bytewise (delimiter boundary) (.opening matched) bs = some ([], .opening (matched + bs.length)) := by
  induction bs generalizing matched with
  | nil => rfl
  | cons c bs ih =>
    have hlen := congrArg List.length h
    rw [List.length_drop, List.length_cons] at hlen
    have hc : c = (delimiter boundary).getD (matched + 2) 0 := by
      rw [List.getD_eq_getElem?_getD, ← List.head?_drop, h]
      rfl
    have htail : (delimiter boundary).drop (matched + 1 + 2) = bs := by
      have := congrArg List.tail h
      rwa [List.tail_drop] at this
    have hstep : byteStep (delimiter boundary) (.opening matched) c = some ([], .opening (matched + 1)) := by
      rw [byteStep_opening, if_neg (by omega), if_neg (by omega), if_pos hc]
    rw [bytewise_cons hstep, ih htail, List.length_cons, Nat.add_assoc, Nat.add_comm 1]
    rfl

/-- The two hyphens and the boundary that a form begins with. -/
theorem bytewise_opening (boundary : Bytes) :
    bytewise (delimiter boundary) .preamble ([dash, dash] ++ boundary) =
      some ([], .opening (boundary.length + 2)) := by
  have hfrom : bytewise (delimiter boundary) (.opening 0) ([dash, dash] ++ boundary) =
      some ([], .opening (0 + ([dash, dash] ++ boundary).length)) := bytewise_boundary rfl
  have hfirst := byteStep_preamble (delimiter boundary) (c := dash) (by decide) (by decide)
  have hlen : 0 + ([dash, dash] ++ boundary).length = boundary.length + 2 := by simp
  rw [hlen] at hfrom
  rw [← hfrom, List.cons_append, bytewise, bytewise, hfirst]

/-- **The bytes of a form**, one by one. -/
theorem bytewise_form (f : Form) :
    bytewise (delimiter f.boundary) .preamble f.encode = some (partsEvents f.parts, .epilogue) :=
  bytewise_append_some (bytewise_opening f.boundary)
    (bytewise_parts f.unbroken f.epilogue f.delimited .first)

/-! ## The choice of the part -/

/-- A table with the headers that lines add to it. -/
def withLines (table : Header.Parameters) (lines : List HeaderLine) : Header.Parameters :=
  lines.foldl (fun t l => t.set l.key l.value) table

/-- The last line of a name is the one that counts. -/
theorem get?_withLines (table : Header.Parameters) (lines : List HeaderLine) (key : Bytes) :
    (withLines table lines).get? key =
      ((lines.filter (·.key = key)).map HeaderLine.value).getLast?.or (table.get? key) :=
  Table.get?_foldl_set HeaderLine.key HeaderLine.value lines table key

namespace Selector

variable {s : Selector} {field : String} {file : Option Bytes}

/-- A line is one more header. -/
theorem run_line (l : HeaderLine) (hname : s.name = []) (hvalue : s.value = [])
    (hbytes : s.headerBytes + l.size ≤ headerBudget) :
    s.run l.events =
      ({ s with headerBytes := s.headerBytes + l.size, headers := s.headers.set l.key l.value }, none) := by
  rw [HeaderLine.size, ← Nat.add_assoc] at hbytes
  rw [HeaderLine.events, run_append, charged_name.run_ok (by omega)]
  dsimp only
  rw [run_append, charged_value.run_ok hbytes]
  simp only [run, step, addName, addValue, hname, hvalue, List.nil_append, HeaderLine.size,
    HeaderLine.key, Nat.add_assoc]

theorem run_lines (lines : List HeaderLine) (hname : s.name = []) (hvalue : s.value = [])
    (hbytes : s.headerBytes + (lines.map HeaderLine.size).sum ≤ headerBudget) :
    s.run (lines.flatMap HeaderLine.events) =
      ({ s with headerBytes := s.headerBytes + (lines.map HeaderLine.size).sum
                headers := withLines s.headers lines }, none) := by
  induction lines generalizing s with
  | nil => rfl
  | cons l lines ih =>
    rw [List.map_cons, List.sum_cons, ← Nat.add_assoc] at hbytes ⊢
    rw [List.flatMap_cons, run_append, run_line l hname hvalue (by omega)]
    let next : Selector :=
      { s with headerBytes := s.headerBytes + l.size, headers := s.headers.set l.key l.value }
    have hrest : next.run (lines.flatMap HeaderLine.events) = _ := ih hname hvalue hbytes
    exact hrest

/-- What the disposition says decides. -/
theorem choose_eq {d : Disposition} (h : s.headers.get? dispositionKey = some d.value) :
    s.choose =
      if s.found = false ∧ (d.table.get? (Bytes.ofText "filename")).isSome ∧
          Bytes.latin1 ((d.table.get? (Bytes.ofText "name")).getD []) = s.field.toList then
        .ok { s with found := true, inTarget := true }
      else .ok s := by
  unfold dispositionKey at h
  rw [choose, h, Option.getD_some, Header.parameters_disposition]

/-- Between two parts: the file has come, or it has not. -/
structure Between (field : String) (s : Selector) (file : Option Bytes) : Prop where
  field : s.field = field
  name : s.name = []
  value : s.value = []
  inTarget : s.inTarget = false
  found : s.found = file.isSome
  finished : s.finished = file.isSome
  taken : s.taken.reverse.flatten = file.getD []

/-- **One part.** It is the file, unless another was before. -/
theorem Between.part (h : Between field s file) (p : Part) :
    ∃ t, s.run (.partBegin :: (p.events ++ [.partEnd])) = (t, none) ∧
      Between field t (file.or (p.file? field)) := by
  obtain ⟨rfl, hname, hvalue, htarget, hfound, hfinished, htaken⟩ := h
  have hlines := run_lines (s := { s with headers := [], headerBytes := 0 }) p.lines hname hvalue
    (by rw [Nat.zero_add]; exact p.within)
  have hheaders := get?_withLines [] p.lines dispositionKey
  rw [p.disposed] at hheaders
  generalize withLines [] p.lines = headers at hlines hheaders
  generalize 0 + (p.lines.map HeaderLine.size).sum = headerBytes at hlines
  have hchoose := choose_eq (s := { s with headers, headerBytes }) hheaders
  rw [run, step]
  dsimp only
  rw [Part.events, List.append_assoc, run_append, hlines]
  dsimp only
  rw [List.cons_append, run, step, hchoose, Part.file?, hfound]
  cases file with
  | some data =>
    rw [if_neg (by simp)]
    dsimp only
    rw [run_append, run_dataEvents]
    simp only [run, step, htarget, Bool.false_eq_true, if_false, List.nil_append, Option.some_or]
    exact ⟨_, rfl, rfl, hname, hvalue, rfl, rfl, hfinished, htaken⟩
  | none =>
    by_cases hwanted : (p.disposition.table.get? (Bytes.ofText "filename")).isSome ∧
        Bytes.latin1 ((p.disposition.table.get? (Bytes.ofText "name")).getD []) = s.field.toList
    · rw [if_pos ⟨rfl, hwanted⟩, if_pos hwanted]
      dsimp only
      rw [run_append, run_dataEvents]
      simp only [run, step, if_true, Option.none_or]
      refine ⟨_, rfl, rfl, hname, hvalue, rfl, rfl, rfl, ?_⟩
      have hbefore : s.taken.reverse.flatten = [] := htaken
      simp [hbefore, ← List.flatMap_def]
    · rw [if_neg fun hand => hwanted hand.2, if_neg hwanted]
      dsimp only
      rw [run_append, run_dataEvents]
      simp only [run, step, htarget, Bool.false_eq_true, if_false, List.nil_append, Option.none_or]
      exact ⟨_, rfl, rfl, hname, hvalue, rfl, rfl, hfinished, htaken⟩

theorem Between.parts (h : Between field s file) (parts : List Part) :
    ∃ t, s.run (partsEvents parts) = (t, none) ∧
      Between field t (file.or (parts.findSome? (Part.file? field))) := by
  induction parts generalizing s file with
  | nil => exact ⟨s, rfl, by rwa [List.findSome?_nil, Option.or_none]⟩
  | cons p parts ih =>
    obtain ⟨t, hrun, hbetween⟩ := h.part p
    obtain ⟨u, hrest, hall⟩ := ih hbetween
    refine ⟨u, ?_, ?_⟩
    · rw [partsEvents, List.flatMap_cons, run_append, hrun]
      exact hrest
    · rw [Option.or_assoc] at hall
      rw [List.findSome?_cons]
      cases hfile : p.file? field with
      | none => rwa [hfile, Option.none_or] at hall
      | some data => rwa [hfile, Option.some_or] at hall

end Selector

/-! ## Reading a form -/

open Selector (Between)

/-- What a reader has found at the end of a form. -/
structure Reader.Done (r : Reader) (file : Option Bytes) : Prop where
  found : r.found = file.isSome
  finished : r.finished = file.isSome

theorem bytes?_encode (f : Form) (field : String) :
    ∃ r, (Reader.start f.boundary field).bytes? f.encode = some (r, (f.file? field).getD []) ∧
      r.Done (f.file? field) := by
  have hstart : Between field { field } none := ⟨rfl, rfl, rfl, rfl, rfl, rfl, rfl⟩
  obtain ⟨t, hrun, hbetween⟩ := hstart.parts f.parts
  have hread : bytewise (Reader.start f.boundary field).scanner.delim
      (Reader.start f.boundary field).scanner.place f.encode = some (partsEvents f.parts, .epilogue) :=
    bytewise_form f
  rw [Option.none_or] at hbetween
  rw [Reader.bytes?, hread, Option.bind_some]
  dsimp only [Reader.start]
  rw [hrun]
  dsimp only
  rw [hbetween.taken]
  exact ⟨_, rfl, hbetween.found, hbetween.finished⟩

/-- **A form is read back**, whatever chunks its bytes come in. -/
theorem collect_encode (f : Form) (field : String) {chunks : List Bytes}
    (hchunks : chunks.flatten = f.encode) :
    ∃ r, (Reader.start f.boundary field).collect chunks = .ok (r, (f.file? field).getD []) ∧
      r.Done (f.file? field) := by
  obtain ⟨r, hbytes, hdone⟩ := bytes?_encode f field
  have hsteady : Steady .preamble chunks.flatten := by
    intro _ c hc
    rw [hchunks] at hc
    cases hc
    decide
  rw [← hchunks] at hbytes
  exact ⟨r, Reader.collect_start field f.unbroken hsteady hbytes, hdone⟩

end UploadDepot.Multipart

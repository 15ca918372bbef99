/-
The file of a form is its first part of the wanted name that has a file name.

What a part is, is said here by its disposition alone (`Part.IsFile`), without
the tables of the reader. A reader that is fed the bytes of a form, in chunks
cut anywhere, hands over the data of the first such part and nothing of any
other; without one it hands over nothing, and in the end it misses the field
(`first_file_extracted`).
-/
import UploadDepot.Proofs.Multipart.Form

namespace UploadDepot.Multipart

open Header (Disposition Parameter Token Word)

variable {p : Part} {field : String} {key : String} {text : List Char} {chunks : List Bytes}

/-! ## What a part says -/

/-- One of the parameters of a part, in letters of any case, has that text. -/
def Part.Says (p : Part) (key : String) (text : List Char) : Prop :=
  ∃ q ∈ p.disposition.parameters, q.name = Bytes.ofText key ∧ q.word.token.text = text

/-- A file of that name: it has the name, and a file name. -/
def Part.IsFile (field : String) (p : Part) : Prop :=
  p.Says "name" field.toList ∧ ∃ filename, p.Says "filename" filename

/-- The table of a disposition has what its parameters say. -/
theorem Part.says_iff :
    p.Says key text ↔
      ∃ bytes, p.disposition.table.get? (Bytes.ofText key) = some bytes ∧ Bytes.latin1 bytes = text := by
  have hdistinct : Table.Distinct p.disposition.table := by
    have hkeys : p.disposition.table.map Prod.fst = p.disposition.parameters.map Parameter.name := by
      simp [Disposition.table, Parameter.entry]
    rw [Table.Distinct, hkeys]
    exact p.disposition.distinct
  constructor
  · rintro ⟨q, hq, hname, rfl⟩
    refine ⟨q.word.token.bytes, hdistinct.get?_of_mem ?_, rfl⟩
    exact List.mem_map.2 ⟨q, hq, by rw [Parameter.entry, hname]⟩
  · rintro ⟨bytes, hget, rfl⟩
    obtain ⟨q, hq, hentry⟩ := List.mem_map.1 (Table.mem_of_get? hget)
    obtain ⟨hname, rfl⟩ := Prod.mk.inj hentry
    exact ⟨q, hq, hname, rfl⟩

theorem Part.file?_of_isFile (h : p.IsFile field) : p.file? field = some p.data := by
  obtain ⟨hname, filename, hfilename⟩ := h
  obtain ⟨name, hget, htext⟩ := Part.says_iff.1 hname
  obtain ⟨bytes, hgetFile, -⟩ := Part.says_iff.1 hfilename
  rw [Part.file?, hget, hgetFile]
  exact if_pos ⟨rfl, htext⟩

/-- A part without a name has the empty one, which no field has. -/
theorem Part.file?_of_not_isFile (hfield : field ≠ "") (h : ¬ p.IsFile field) :
    p.file? field = none := by
  rw [Part.file?, if_neg]
  rintro ⟨hfile, hname⟩
  obtain ⟨bytes, hbytes⟩ := Option.isSome_iff_exists.1 hfile
  refine h ⟨Part.says_iff.2 ?_, _, Part.says_iff.2 ⟨bytes, hbytes, rfl⟩⟩
  cases hget : p.disposition.table.get? (Bytes.ofText "name") with
  | some name =>
    rw [hget] at hname
    exact ⟨name, rfl, hname⟩
  | none =>
    rw [hget] at hname
    exact absurd (String.toList_eq_nil_iff.1 hname.symm) hfield

/-! ## Chunk by chunk -/

namespace Selector

variable {s t : Selector}

/-- The wanted field stays the same. -/
theorem step_field {e : Event} (h : s.step e = .ok t) : t.field = s.field := by
  cases e with
  | partBegin | headerEnd =>
    cases h
    rfl
  | headerName bs =>
    rw [charged_name.step] at h
    split at h
    · cases h
    · cases h
      rfl
  | headerValue bs =>
    rw [charged_value.step] at h
    split at h
    · cases h
    · cases h
      rfl
  | headersFinished =>
    rw [step, choose] at h
    dsimp only at h
    split at h
    · cases h
    · split at h <;> cases h <;> rfl
  | data bs | partEnd =>
    rw [step] at h
    cases h
    split <;> rfl

theorem run_field (events : List Event) : (s.run events).1.field = s.field := by
  induction events generalizing s with
  | nil => rfl
  | cons e events ih =>
    rw [run]
    cases hstep : s.step e with
    | error fault => rfl
    | ok t => exact ih.trans (step_field hstep)

end Selector

namespace Reader

variable {r r' : Reader} {each : List Bytes}

/-- Reads chunks one after the other: the reader at the end, and what it handed over after each. -/
def feedEach (r : Reader) : List Bytes → Except ReadFault (Reader × List Bytes)
  | [] => .ok (r, [])
  | chunk :: chunks =>
    match r.feed chunk with
    | (_, .error fault) => .error fault
    | (r, .ok bytes) => (r.feedEach chunks).map fun (r, each) => (r, bytes :: each)

/-- What is collected is what each chunk gave, together. -/
theorem collect_eq_feedEach (chunks : List Bytes) :
    r.collect chunks = (r.feedEach chunks).map fun (r, each) => (r, each.flatten) := by
  induction chunks generalizing r with
  | nil => rfl
  | cons chunk chunks ih =>
    rw [collect, feedEach]
    cases r.feed chunk with
    | mk r' outcome =>
      cases outcome with
      | error fault => rfl
      | ok bytes =>
        dsimp only
        rw [ih]
        cases r'.feedEach chunks <;> rfl

theorem feed_field (r : Reader) (chunk : Bytes) :
    (r.feed chunk).1.selector.field = r.selector.field := by
  have hrun := Selector.run_field (s := r.selector) (r.scanner.scan chunk).1
  rw [feed]
  split
  · rename_i hscan
    split
    · rename_i hselected
      rwa [hscan, hselected] at hrun
    · rename_i hselected
      rw [hscan, hselected] at hrun
      split <;> exact hrun

/-- After all chunks the field is the same, and every chunk has given something, if only nothing. -/
theorem feedEach_ok (h : r.feedEach chunks = .ok (r', each)) :
    r'.selector.field = r.selector.field ∧ each.length = chunks.length := by
  induction chunks generalizing r each with
  | nil =>
    cases h
    exact ⟨rfl, rfl⟩
  | cons chunk chunks ih =>
    have hfield := r.feed_field chunk
    rw [feedEach] at h
    split at h
    · cases h
    · rename_i r₁ bytes hfeed
      rw [hfeed] at hfield
      cases hrest : r₁.feedEach chunks with
      | error fault =>
        rw [hrest] at h
        cases h
      | ok rest =>
        rw [hrest] at h
        cases h
        obtain ⟨hfield', hlength⟩ := ih hrest
        exact ⟨hfield'.trans hfield, congrArg (· + 1) hlength⟩

end Reader

/-! ## The first file -/

/-- What a reader has handed over of a form, chunk by chunk, and where it stands in the end. -/
structure Extracted (f : Form) (field : String) (r : Reader) (each : List Bytes) : Prop where
  /-- The data of the first file are handed over, and no byte of the parts before it and after it. -/
  first : ∀ before p after, f.parts = before ++ p :: after → p.IsFile field →
    (∀ q ∈ before, ¬ q.IsFile field) →
    each.flatten = p.data ∧ r.found = true ∧ r.finished = true ∧ r.close = .ok ()
  /-- Without a file every chunk gives nothing, and the field is missed. -/
  missing : (∀ p ∈ f.parts, ¬ p.IsFile field) →
    (∀ bytes ∈ each, bytes = []) ∧ r.found = false ∧
      ∃ fault, r.close = .error fault ∧ fault.message = "Missing '" ++ field ++ "' field"

theorem Form.file?_of_first {f : Form} {before after : List Part} (hfield : field ≠ "")
    (hparts : f.parts = before ++ p :: after) (hp : p.IsFile field)
    (hbefore : ∀ q ∈ before, ¬ q.IsFile field) : f.file? field = some p.data := by
  have hnone : before.findSome? (Part.file? field) = none := by
    rw [List.findSome?_eq_none_iff]
    intro q hq
    exact Part.file?_of_not_isFile hfield (hbefore q hq)
  rw [Form.file?, hparts, List.findSome?_append, hnone, Option.none_or, List.findSome?_cons,
    Part.file?_of_isFile hp]

theorem Form.file?_eq_none {f : Form} (hfield : field ≠ "") (h : ∀ p ∈ f.parts, ¬ p.IsFile field) :
    f.file? field = none := by
  rw [Form.file?, List.findSome?_eq_none_iff]
  intro p hp
  exact Part.file?_of_not_isFile hfield (h p hp)

/-- **The first file of a form is extracted**, and nothing else, whatever chunks the form comes in. -/
theorem first_file_extracted (f : Form) (hfield : field ≠ "") (hchunks : chunks.flatten = f.encode) :
    ∃ r each, (Reader.start f.boundary field).feedEach chunks = .ok (r, each) ∧
      each.length = chunks.length ∧ Extracted f field r each := by
  obtain ⟨r, hcollect, hfound, hfinished⟩ := collect_encode f field hchunks
  rw [Reader.collect_eq_feedEach] at hcollect
  cases hfed : (Reader.start f.boundary field).feedEach chunks with
  | error fault =>
    rw [hfed] at hcollect
    cases hcollect
  | ok result =>
    obtain ⟨r', each⟩ := result
    rw [hfed] at hcollect
    obtain ⟨rfl, heach⟩ := Prod.mk.inj (Except.ok.inj hcollect)
    obtain ⟨hsame, hlength⟩ := Reader.feedEach_ok hfed
    refine ⟨r', each, rfl, hlength, ?_, ?_⟩
    · intro before p after hparts hp hbefore
      rw [Form.file?_of_first hfield hparts hp hbefore] at hfound hfinished heach
      refine ⟨heach, hfound, hfinished, ?_⟩
      rw [Reader.close, hfound, hfinished]
      rfl
    · intro hnone
      rw [Form.file?_eq_none hfield hnone] at hfound hfinished heach
      refine ⟨List.flatten_eq_nil_iff.1 heach, hfound, .missingField field, ?_, rfl⟩
      have hmissed : r'.found = false := hfound
      rw [Reader.close, if_pos hmissed, hsame]
      rfl

/-! ## A form with two files of one name -/

/-- The token that a text spells. -/
def tokenOf (text : String)
    (valid : Bytes.ofText text ≠ [] ∧ ∀ b ∈ Bytes.ofText text, isTokenByte b = true) : Token :=
  ⟨Bytes.ofText text, valid.1, valid.2⟩

/-- A parameter with its value in quotation marks. -/
def quoted (key value : Token) (unstarred : 0x2A ∉ key.bytes) : Parameter where
  spaces := 1
  key := key
  word := { token := value, quoted := true }
  unstarred := unstarred

/-- The name of all parts: the wanted one. -/
def sameName : Parameter :=
  quoted (tokenOf "name" (by decide +kernel)) (tokenOf "file" (by decide +kernel)) (by decide +kernel)

def someFilename : Parameter :=
  quoted (tokenOf "filename" (by decide +kernel)) (tokenOf "a.png" (by decide +kernel)) (by decide +kernel)

/-- A text under the name of the file. -/
def textField : Part where
  lines :=
    [{ name := tokenOf "Content-Disposition" (by decide +kernel)
       spaces := 1
       value := Disposition.value ⟨[sameName], by decide +kernel⟩
       unbroken := by decide +kernel
       unindented := by decide +kernel }]
  disposition := ⟨[sameName], by decide +kernel⟩
  disposed := by decide +kernel
  within := by decide +kernel
  data := Bytes.ofText "text\r\n--"

/-- A file of that name, with one more line in its header. -/
def fileField (data : Bytes) : Part where
  lines :=
    [{ name := tokenOf "content-disposition" (by decide +kernel)
       spaces := 1
       value := Disposition.value ⟨[sameName, someFilename], by decide +kernel⟩
       unbroken := by decide +kernel
       unindented := by decide +kernel },
     { name := tokenOf "Content-Type" (by decide +kernel)
       spaces := 0
       value := Bytes.ofText "image/png"
       unbroken := by decide +kernel
       unindented := by decide +kernel }]
  disposition := ⟨[sameName, someFilename], by decide +kernel⟩
  disposed := by decide +kernel
  within := by decide +kernel
  data := data

def threeParts : Form where
  boundary := Bytes.ofText "b"
  unbroken := by decide +kernel
  parts := [textField, fileField (Bytes.ofText "\r\nfirst\r"), fileField (Bytes.ofText "second")]
  delimited := by decide +kernel
  epilogue := Bytes.ofText "\r\n"

theorem textField_not_file (field : String) : ¬ textField.IsFile field := by
  rintro ⟨-, filename, q, hq, hname, -⟩
  obtain rfl := List.mem_singleton.1 hq
  exact absurd hname (by decide +kernel)

theorem fileField_isFile (data : Bytes) : (fileField data).IsFile "file" :=
  ⟨⟨sameName, List.mem_cons_self, by decide +kernel, by decide +kernel⟩, "a.png".toList, someFilename,
    List.mem_cons_of_mem _ List.mem_cons_self, by decide +kernel, by decide +kernel⟩

theorem fileField_not_other (data : Bytes) : ¬ (fileField data).IsFile "other" := by
  rintro ⟨⟨q, hq, hname, htext⟩, -⟩
  rcases List.mem_pair.1 hq with rfl | rfl
  · exact absurd htext (by decide +kernel)
  · exact absurd hname (by decide +kernel)

/-- The form byte by byte gives its first file; for another field it gives none. -/
theorem first_file_extracted_three :
    (∃ r each, (Reader.start threeParts.boundary "file").feedEach (threeParts.encode.map fun b => [b]) =
        .ok (r, each) ∧ each.flatten = Bytes.ofText "\r\nfirst\r" ∧ r.close = .ok ()) ∧
      ∃ r each, (Reader.start threeParts.boundary "other").feedEach
          (threeParts.encode.map fun b => [b]) = .ok (r, each) ∧ (∀ bytes ∈ each, bytes = []) ∧
        ∃ fault, r.close = .error fault ∧ fault.message = "Missing 'other' field" := by
  have hchunks : (threeParts.encode.map fun b => [b]).flatten = threeParts.encode := by
    rw [← List.flatMap_def, List.flatMap_singleton']
  constructor
  · obtain ⟨r, each, hfed, -, hextracted⟩ :=
      first_file_extracted threeParts (by decide : "file" ≠ "") hchunks
    have hbefore : ∀ q ∈ [textField], ¬ q.IsFile "file" := by
      intro q hq
      exact List.mem_singleton.1 hq ▸ textField_not_file _
    obtain ⟨heach, -, -, hclose⟩ := hextracted.first _ _ _ rfl (fileField_isFile _) hbefore
    exact ⟨r, each, hfed, heach, hclose⟩
  · obtain ⟨r, each, hfed, -, hextracted⟩ :=
      first_file_extracted threeParts (by decide : "other" ≠ "") hchunks
    have hnone : ∀ p ∈ threeParts.parts, ¬ p.IsFile "other" := by
      intro p hp
      simp only [threeParts, List.mem_cons, List.not_mem_nil, or_false] at hp
      rcases hp with rfl | rfl | rfl
      · exact textField_not_file _
      · exact fileField_not_other _
      · exact fileField_not_other _
    obtain ⟨heach, -, hclose⟩ := hextracted.missing hnone
    exact ⟨r, each, hfed, heach, hclose⟩

end UploadDepot.Multipart

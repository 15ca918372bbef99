/-
Forms that are cut short.

The file of a form is whole only when the delimiter after it is: up to its
last byte, CR LF or two hyphens included, a part has not ended. So of a form
that is cut off before that byte the reader takes what there is, in any
chunks, and in the end says that the file did not come whole
(`reader_refuses_cut`).
-/
import UploadDepot.Proofs.Multipart.FirstFile

namespace UploadDepot.Multipart

variable {boundary : Bytes} {place : Place} {field : String} {sent : Bytes} {f : Form}

/-! ## Where a file has come whole -/

/-- What completes a delimiter: with more parts after it, and without. -/
def ending (rest : List Part) : Bytes := if rest.isEmpty then [dash, dash] else [cr, lf]

/-- The bytes of a form from its first to the last of the delimiter after `parts`, its first parts. -/
def Form.through (f : Form) (parts rest : List Part) : Bytes :=
  [dash, dash] ++ f.boundary ++ (encodeParts f.boundary parts ++ ending rest)

theorem Form.through_prefix {parts rest : List Part} (h : f.parts = parts ++ rest) :
    f.through parts rest <+: f.encode := by
  rw [Form.encode, Form.through, h]
  refine (List.prefix_append_right_inj _).2 ?_
  rw [encodeParts, encodeParts, List.flatMap_append, List.append_assoc]
  refine (List.prefix_append_right_inj _).2 ?_
  cases rest with
  | nil => exact ⟨f.epilogue, rfl⟩
  | cons p rest =>
    rw [List.flatMap_cons, List.append_assoc, List.append_assoc]
    exact List.prefix_append _ _

/-- A form that is cut off before the last byte of the delimiter after its first file of that name. -/
structure Form.CutShort (f : Form) (field : String) (sent : Bytes) : Prop where
  begins : sent <+: f.encode
  early : ∃ before p after, f.parts = before ++ p :: after ∧ p.IsFile field ∧
    (∀ q ∈ before, ¬ q.IsFile field) ∧ sent.length < (f.through (before ++ [p]) after).length

/-- A cut form begins with its first hyphen, if it begins at all. -/
theorem Form.steady_of_prefix (h : sent <+: f.encode) : Steady .preamble sent := by
  intro _ c hc
  obtain ⟨rest, hrest⟩ := h
  have hhead : f.encode.head? = some c := by
    rw [← hrest, List.head?_append, Option.mem_def.1 hc, Option.some_or]
  cases hhead
  decide

/-! ## The events of a cut form -/

/-- Parts, and the delimiter after the last of them: it has not ended yet. -/
theorem bytewise_unended (hb : cr ∉ boundary) {before : List Part} {p : Part}
    (hno : ∀ q ∈ before ++ [p], ¬ delimiter boundary <:+: q.data) {ends : List Event}
    (h : Joint boundary place ends) :
    bytewise (delimiter boundary) place (encodeParts boundary (before ++ [p])) =
      some (ends ++ (partsEvents before ++ .partBegin :: p.events), .data (delimiter boundary)) := by
  induction before generalizing place ends with
  | nil =>
    have hpart := bytewise_append_some h.next (bytewise_part hb (hno p (by simp)))
    rw [encodeParts, List.nil_append, List.flatMap_singleton]
    refine hpart.trans ?_
    simp [partsEvents]
  | cons q before ih =>
    have hpart := bytewise_append_some h.next (bytewise_part hb (hno q List.mem_cons_self))
    have hrest := ih (fun q hq => hno q (List.mem_cons_of_mem _ hq)) .later
    have hall := bytewise_append_some hpart hrest
    rw [List.cons_append, encodeParts, List.flatMap_cons]
    refine hall.trans ?_
    simp [partsEvents]

/-- The first byte of what completes a delimiter says nothing yet. -/
theorem bytewise_ending (boundary : Bytes) (rest : List Part) :
    bytewise (delimiter boundary) (.data (delimiter boundary)) ((ending rest).take 1) =
      some ([], .data (delimiter boundary ++ (ending rest).take 1)) := by
  unfold ending
  split
  · exact bytewise_one (byteStep_delimiter boundary (.inr rfl))
  · exact bytewise_one (byteStep_delimiter boundary (.inl rfl))

/-- The first of some bytes make the first of their events. -/
theorem bytewise_of_prefix {delim a all : Bytes} {events : List Event} {last : Place}
    (ha : a <+: all) (h : bytewise delim place all = some (events, last)) :
    ∃ first place', bytewise delim place a = some (first, place') ∧ first <+: events := by
  obtain ⟨b, rfl⟩ := ha
  rw [bytewise_append] at h
  obtain ⟨first, hfirst, hrest⟩ := Option.bind_eq_some_iff.1 h
  obtain ⟨rest, -, hsame⟩ := Option.map_eq_some_iff.1 hrest
  exact ⟨first.1, first.2, hfirst, rest.1, congrArg Prod.fst hsame⟩

/-- **The events of a cut form** are among those before the end of the part it is cut in. -/
theorem bytewise_cut {before after : List Part} {p : Part} (hparts : f.parts = before ++ p :: after)
    (hsent : sent <+: f.encode)
    (hearly : sent.length < (f.through (before ++ [p]) after).length) :
    ∃ events place', bytewise (delimiter f.boundary) .preamble sent = some (events, place') ∧
      events <+: partsEvents before ++ .partBegin :: p.events := by
  have hsplit : f.parts = before ++ [p] ++ after := by rw [hparts, List.append_assoc]; rfl
  -- All bytes but the last.
  let most : Bytes := [dash, dash] ++ f.boundary ++
    (encodeParts f.boundary (before ++ [p]) ++ (ending after).take 1)
  have hending : (ending after).take 1 ++ (ending after).drop 1 = ending after :=
    List.take_append_drop 1 _
  have hlast : ((ending after).drop 1).length = 1 := by
    unfold ending
    split <;> rfl
  have hthrough : most ++ (ending after).drop 1 = f.through (before ++ [p]) after := by
    rw [Form.through, List.append_assoc, List.append_assoc (encodeParts _ _), hending]
  have hmost : most <+: f.encode :=
    (List.prefix_append most _).trans (hthrough ▸ Form.through_prefix hsplit)
  have hlen : sent.length ≤ most.length := by
    rw [← hthrough, List.length_append, hlast] at hearly
    omega
  have hpre : sent <+: most := List.prefix_of_prefix_length_le hsent hmost hlen
  have hno : ∀ q ∈ before ++ [p], ¬ delimiter f.boundary <:+: q.data := fun q hq =>
    f.delimited q (by rw [hsplit]; exact List.mem_append_left _ hq)
  have hbytes := bytewise_append_some (bytewise_opening f.boundary)
    (bytewise_append_some (bytewise_unended f.unbroken hno .first) (bytewise_ending f.boundary after))
  rw [List.nil_append, List.nil_append, List.append_nil] at hbytes
  exact bytewise_of_prefix hpre hbytes

/-! ## The choice of the part -/

namespace Selector

variable {s t : Selector} {e : Event} {events : List Event}

/-- The wanted part has ended only when a part ends, and then for good. -/
theorem step_finished (h : s.step e = .ok t) :
    (s.finished = true → t.finished = true) ∧ (e ≠ .partEnd → t.finished = s.finished) := by
  cases e with
  | partBegin | headerEnd =>
    cases h
    exact ⟨id, fun _ => rfl⟩
  | headerName bs =>
    rw [charged_name.step] at h
    split at h
    · cases h
    · cases h
      exact ⟨id, fun _ => rfl⟩
  | headerValue bs =>
    rw [charged_value.step] at h
    split at h
    · cases h
    · cases h
      exact ⟨id, fun _ => rfl⟩
  | headersFinished =>
    rw [step, choose] at h
    dsimp only at h
    split at h
    · cases h
    · split at h <;> cases h <;> exact ⟨id, fun _ => rfl⟩
  | data bs =>
    rw [step] at h
    cases h
    split <;> exact ⟨id, fun _ => rfl⟩
  | partEnd =>
    rw [step] at h
    cases h
    refine ⟨fun hf => ?_, fun hne => absurd rfl hne⟩
    split
    · rfl
    · exact hf

theorem run_finished_mono (h : s.run events = (t, none)) (hs : s.finished = true) :
    t.finished = true := by
  induction events generalizing s with
  | nil =>
    cases h
    exact hs
  | cons e events ih =>
    rw [run] at h
    cases hstep : s.step e with
    | error fault =>
      rw [hstep] at h
      cases h
    | ok u =>
      rw [hstep] at h
      exact ih h ((step_finished hstep).1 hs)

theorem run_finished_eq (h : s.run events = (t, none)) (hends : .partEnd ∉ events) :
    t.finished = s.finished := by
  induction events generalizing s with
  | nil =>
    cases h
    rfl
  | cons e events ih =>
    rw [run] at h
    cases hstep : s.step e with
    | error fault =>
      rw [hstep] at h
      cases h
    | ok u =>
      rw [hstep] at h
      have hne : e ≠ .partEnd := fun he => hends (he ▸ List.mem_cons_self)
      exact (ih h fun hm => hends (List.mem_cons_of_mem _ hm)).trans ((step_finished hstep).2 hne)

/-- A run that ends well does so from its first events on. -/
theorem run_left {a b : List Event} (h : s.run (a ++ b) = (t, none)) :
    ∃ u, s.run a = (u, none) ∧ u.run b = (t, none) := by
  rw [run_append] at h
  split at h
  · cases h
  · exact ⟨_, ‹_›, h⟩

end Selector

/-- What a part says before it ends. -/
theorem Part.partEnd_notMem (p : Part) : Event.partEnd ∉ Event.partBegin :: p.events := by
  simp [Part.events, HeaderLine.events, dataEvents]

/-- **The events of a cut form** are all taken, and its file does not end in them. -/
theorem run_cut {before : List Part} {p : Part} {events : List Event}
    (hbefore : before.findSome? (Part.file? field) = none)
    (hevents : events <+: partsEvents before ++ .partBegin :: p.events) :
    ∃ t, Selector.run { field } events = (t, none) ∧ t.finished = false := by
  have hstart : Selector.Between field { field } none := ⟨rfl, rfl, rfl, rfl, rfl, rfl, rfl⟩
  obtain ⟨t, hrun, hbetween⟩ := hstart.parts before
  rw [hbefore] at hbetween
  obtain ⟨u, hpart, -⟩ := hbetween.part p
  rw [← List.cons_append] at hpart
  obtain ⟨v, hopen, -⟩ := Selector.run_left hpart
  have hunfinished : v.finished = false :=
    (Selector.run_finished_eq hopen p.partEnd_notMem).trans hbetween.finished
  have hall : Selector.run { field } (partsEvents before ++ .partBegin :: p.events) = (v, none) := by
    rw [Selector.run_append, hrun]
    exact hopen
  obtain ⟨rest, hrest⟩ := hevents
  rw [← hrest] at hall
  obtain ⟨w, hcut, hmore⟩ := Selector.run_left hall
  refine ⟨w, hcut, ?_⟩
  -- What has ended would still have ended later.
  by_contra hf
  have hv := Selector.run_finished_mono hmore (by simpa using hf)
  exact Bool.false_ne_true (hunfinished.symm.trans hv)

/-! ## The reader -/

/-- **A cut form is read, but not to the end of its file**, whatever chunks it comes in. -/
theorem collect_cut (hfield : field ≠ "") (h : f.CutShort field sent) {chunks : List Bytes}
    (hchunks : chunks.flatten = sent) :
    ∃ r data, (Reader.start f.boundary field).collect chunks = .ok (r, data) ∧ r.finished = false := by
  obtain ⟨before, p, after, hparts, -, hbefore, hearly⟩ := h.early
  have hnone : before.findSome? (Part.file? field) = none := by
    rw [List.findSome?_eq_none_iff]
    exact fun q hq => Part.file?_of_not_isFile hfield (hbefore q hq)
  obtain ⟨events, place, hbytes, hevents⟩ := bytewise_cut hparts h.begins hearly
  obtain ⟨t, hrun, hfinished⟩ := run_cut hnone hevents
  have hread : bytewise (Reader.start f.boundary field).scanner.delim
      (Reader.start f.boundary field).scanner.place sent = some (events, place) := hbytes
  have hbytes? : (Reader.start f.boundary field).bytes? sent = some
      ({ scanner := { Scanner.start f.boundary with place }, selector := { t with taken := [] } },
        t.taken.reverse.flatten) := by
    rw [Reader.bytes?, hread, Option.bind_some]
    dsimp only [Reader.start]
    rw [hrun]
  subst hchunks
  exact ⟨_, _, Reader.collect_start field f.unbroken (Form.steady_of_prefix h.begins) hbytes?, hfinished⟩

/-- **The reader refuses a cut form** at its end, and not before: it takes every chunk, and then it
misses the field, or the end of the file. -/
theorem reader_refuses_cut (hfield : field ≠ "") (h : f.CutShort field sent) {chunks : List Bytes}
    (hchunks : chunks.flatten = sent) :
    ∃ r each, (Reader.start f.boundary field).feedEach chunks = .ok (r, each) ∧
      r.close = .error (if r.found then .truncated else .missingField field) := by
  obtain ⟨r, data, hcollect, hfinished⟩ := collect_cut hfield h hchunks
  rw [Reader.collect_eq_feedEach] at hcollect
  cases hfed : (Reader.start f.boundary field).feedEach chunks with
  | error fault =>
    rw [hfed] at hcollect
    cases hcollect
  | ok result =>
    obtain ⟨r', each⟩ := result
    rw [hfed] at hcollect
    obtain ⟨rfl, -⟩ := Prod.mk.inj (Except.ok.inj hcollect)
    obtain ⟨hsame, -⟩ := Reader.feedEach_ok hfed
    refine ⟨r', each, rfl, ?_⟩
    rw [Reader.close, hfinished, hsame]
    cases r'.found <;> rfl

end UploadDepot.Multipart

/-
A body read byte by byte: what one byte does at each place, and what becomes
of the data of a part.

Of the data only so much is held back as may begin a delimiter. A delimiter
has one carriage return, at its start, so two of them never overlap, and all
that is held back is given out as soon as the next byte does not fit.
-/
import UploadDepot.Multipart.Scanner

namespace UploadDepot.Multipart

/-- An event, cut into events of one byte each. -/
def Event.single : Event → List Event
  | .headerName bs => bs.map fun b => .headerName [b]
  | .headerValue bs => bs.map fun b => .headerValue [b]
  | .data bs => bs.map fun b => .data [b]
  | e => [e]

/-- One byte, read as a chunk of its own. -/
def byteStep (delim : Bytes) (place : Place) (c : UInt8) : Option (List Event × Place) :=
  match advance delim 1 place c [] with
  | .ok (events, place, _) => some (events.flatMap Event.single, place)
  | .error _ => none

/-- Bytes, each read as a chunk of its own. -/
def bytewise (delim : Bytes) (place : Place) : Bytes → Option (List Event × Place)
  | [] => some ([], place)
  | c :: bs =>
    (byteStep delim place c).bind fun step =>
      (bytewise delim step.2 bs).map fun rest => (step.1 ++ rest.1, rest.2)

variable {delim boundary : Bytes} {place : Place} {c : UInt8} {bs : Bytes}

theorem bytewise_cons {step : List Event × Place} (h : byteStep delim place c = some step)
    (bs : Bytes) :
    bytewise delim place (c :: bs) =
      (bytewise delim step.2 bs).map fun rest => (step.1 ++ rest.1, rest.2) := by
  rw [bytewise, h, Option.bind_some]

theorem bytewise_one {step : List Event × Place} (h : byteStep delim place c = some step) :
    bytewise delim place [c] = some step := by
  rw [bytewise_cons h]
  simp [bytewise]

theorem bytewise_cons_none (h : byteStep delim place c = none) (bs : Bytes) :
    bytewise delim place (c :: bs) = none := by
  rw [bytewise, h, Option.bind_none]

theorem bytewise_append (a b : Bytes) :
    bytewise delim place (a ++ b) =
      (bytewise delim place a).bind fun first =>
        (bytewise delim first.2 b).map fun rest => (first.1 ++ rest.1, rest.2) := by
  induction a generalizing place with
  | nil => simp [bytewise]
  | cons c a ih =>
    rw [List.cons_append]
    cases hstep : byteStep delim place c with
    | none => rw [bytewise_cons_none hstep, bytewise_cons_none hstep, Option.bind_none]
    | some step =>
      rw [bytewise_cons hstep, bytewise_cons hstep, ih]
      cases bytewise delim step.2 a with
      | none => rfl
      | some first => simp [Function.comp_def]

theorem bytewise_append_some {a b : Bytes} {events more : List Event} {place' last : Place}
    (ha : bytewise delim place a = some (events, place'))
    (hb : bytewise delim place' b = some (more, last)) :
    bytewise delim place (a ++ b) = some (events ++ more, last) := by
  rw [bytewise_append, ha, Option.bind_some, hb, Option.map_some]

/-- Bytes at which the reading stays where it is, with one event each. -/
theorem bytewise_stays {make : UInt8 → List Event}
    (h : ∀ c ∈ bs, byteStep delim place c = some (make c, place)) :
    bytewise delim place bs = some (bs.flatMap make, place) := by
  induction bs with
  | nil => rfl
  | cons c bs ih =>
    rw [bytewise_cons (h c List.mem_cons_self), ih fun c hc => h c (List.mem_cons_of_mem _ hc)]
    rfl

/-- Bytes that are passed over. -/
theorem bytewise_skips (h : ∀ c ∈ bs, byteStep delim place c = some ([], place)) :
    bytewise delim place bs = some ([], place) := by
  rw [bytewise_stays h]
  simp

/-- Bytes that come to one event each. -/
theorem bytewise_each {make : Bytes → Event}
    (h : ∀ c ∈ bs, byteStep delim place c = some ([make [c]], place)) :
    bytewise delim place bs = some (bs.map fun c => make [c], place) := by
  rw [bytewise_stays h, List.map_eq_flatMap]

theorem single_fragment {make : Bytes → Event} (h : ∀ bs, (make bs).single = bs.map fun b => make [b])
    (bs : Bytes) : (fragment make bs).flatMap Event.single = bs.map fun b => make [b] := by
  cases bs with
  | nil => rfl
  | cons b bs => simp [fragment, h]

/-- The bytes of data, each an event. -/
def dataEvents (bs : Bytes) : List Event := bs.map fun b => .data [b]

theorem dataEvents_append (a b : Bytes) : dataEvents (a ++ b) = dataEvents a ++ dataEvents b :=
  List.map_append

/-! ## One byte -/

theorem byteStep_name (delim : Bytes) (c : UInt8) :
    byteStep delim .name c =
      if isTokenByte c then some ([.headerName [c]], .name)
      else if c = colon then some ([], .valueStart)
      else none := by
  cases htoken : isTokenByte c with
  | true => simp [byteStep, advance, advanceName, htoken, fragment, Event.single]
  | false =>
    by_cases hc : c = colon
    · subst hc
      simp [byteStep, advance, advanceName, htoken, fragment]
    · simp [byteStep, advance, advanceName, htoken, hc]

theorem byteStep_nameStart (delim : Bytes) (c : UInt8) :
    byteStep delim .nameStart c =
      if c = cr then some ([], .headersEnd)
      else if c = colon then none
      else byteStep delim .name c := by
  by_cases hcr : c = cr
  · simp [byteStep, advance, advanceNameStart, hcr]
  by_cases hcolon : c = colon
  · subst hcolon
    simp [byteStep, advance, advanceNameStart, hcr]
  · simp only [byteStep, advance, advanceNameStart, hcr, hcolon, if_false]

theorem byteStep_value (delim : Bytes) (c : UInt8) :
    byteStep delim .value c =
      if c = cr then some ([.headerEnd], .valueEnd) else some ([.headerValue [c]], .value) := by
  by_cases hc : c = cr
  · simp [byteStep, advance, advanceValue, hc, fragment, Event.single]
  · simp [byteStep, advance, advanceValue, hc, fragment, Event.single]

theorem byteStep_valueStart :
    byteStep delim .valueStart c =
      if c = space then some ([], .valueStart) else byteStep delim .value c := by
  by_cases hc : c = space
  · simp [byteStep, advance, advanceValueStart, hc]
  · simp [byteStep, advance, advanceValueStart, hc]

theorem byteStep_epilogue : byteStep delim .epilogue c = some ([], .epilogue) := rfl

/-- A byte of data: it may begin a delimiter. -/
theorem byteStep_data_nil (hlen : 2 ≤ delim.length) :
    byteStep delim (.data []) c =
      if c = cr then some ([], .data [cr]) else some ([.data [c]], .data []) := by
  have hindex : Bytes.indexOf? delim [c] = none := by
    match delim, hlen with
    | a :: b :: delim, _ => simp [Bytes.indexOf?, Bytes.indexFrom]
  have hsure : 1 - delim.length = 0 := by omega
  by_cases hc : c = cr
  · subst hc
    simp [byteStep, advance, advanceData, hindex, hsure, fragment]
  · simp [byteStep, advance, advanceData, hindex, hsure, hc, fragment, Event.single]

/-- A byte after held-back bytes. -/
theorem byteStep_held (delim : Bytes) (c : UInt8) {held : Bytes} (hheld : held ≠ []) :
    byteStep delim (.data held) c =
      if held ++ [c] = delim ++ [cr, lf] then some ([.partEnd, .partBegin], .nameStart)
      else if held ++ [c] = delim ++ [dash, dash] then some ([.partEnd], .epilogue)
      else if (held ++ [c]).isPrefixOf (delim ++ [cr, lf]) ||
          (held ++ [c]).isPrefixOf (delim ++ [dash, dash]) then
        some ([], .data (held ++ [c]))
      else (byteStep delim (.data []) c).map fun step => (dataEvents held ++ step.1, step.2) := by
  have hempty : held.isEmpty = false := by simpa using hheld
  rw [byteStep, advance, hempty, if_neg (by decide), advanceHeld]
  dsimp only
  by_cases hnext : held ++ [c] = delim ++ [cr, lf]
  · rw [if_pos hnext, if_pos hnext]
    rfl
  rw [if_neg hnext, if_neg hnext]
  by_cases hlast : held ++ [c] = delim ++ [dash, dash]
  · rw [if_pos hlast, if_pos hlast]
    rfl
  rw [if_neg hlast, if_neg hlast]
  by_cases hgrows : ((held ++ [c]).isPrefixOf (delim ++ [cr, lf]) ||
      (held ++ [c]).isPrefixOf (delim ++ [dash, dash])) = true
  · rw [if_pos hgrows, if_pos hgrows]
    rfl
  rw [if_neg hgrows, if_neg hgrows, byteStep, advance, List.isEmpty_nil, if_pos rfl]
  cases advanceData delim [c] with
  | error fault => rfl
  | ok result => rfl

theorem byteStep_opening {matched : Nat} :
    byteStep delim (.opening matched) c =
      if matched + 2 = delim.length then
        if c = dash then some ([], .closing)
        else if c = cr then some ([], .opening (matched + 1))
        else none
      else if matched + 1 = delim.length then
        if c = lf then some ([.partBegin], .nameStart) else none
      else if c = delim.getD (matched + 2) 0 then some ([], .opening (matched + 1))
      else none := by
  rw [byteStep, advance, advanceOpening]
  by_cases hend : matched + 2 = delim.length
  · rw [if_pos hend, if_pos hend]
    by_cases hdash : c = dash
    · rw [if_pos hdash, if_pos hdash]
      rfl
    rw [if_neg hdash, if_neg hdash]
    by_cases hcr : c = cr
    · rw [if_pos hcr, if_pos hcr]
      rfl
    · rw [if_neg hcr, if_neg hcr]
  rw [if_neg hend, if_neg hend]
  by_cases hline : matched + 1 = delim.length
  · rw [if_pos hline, if_pos hline]
    by_cases hlf : c = lf
    · rw [if_pos hlf, if_pos hlf]
      rfl
    · rw [if_neg hlf, if_neg hlf]
  rw [if_neg hline, if_neg hline]
  by_cases hc : c = delim.getD (matched + 2) 0
  · rw [if_pos hc, if_pos hc]
    rfl
  · rw [if_neg hc, if_neg hc]

theorem byteStep_closing :
    byteStep delim .closing c = if c = dash then some ([], .epilogue) else none := by
  by_cases hc : c = dash <;> simp [byteStep, advance, hc]

theorem byteStep_valueEnd :
    byteStep delim .valueEnd c = if c = lf then some ([], .nameStart) else none := by
  by_cases hc : c = lf <;> simp [byteStep, advance, hc]

theorem byteStep_headersEnd :
    byteStep delim .headersEnd c = if c = lf then some ([.headersFinished], .data []) else none := by
  by_cases hc : c = lf <;> simp [byteStep, advance, hc, Event.single]

theorem byteStep_preamble (delim : Bytes) (hcr : c ≠ cr) (hlf : c ≠ lf) :
    byteStep delim .preamble c = byteStep delim (.opening 0) c := by
  simp only [byteStep, advance, advancePreamble, hcr, hlf, or_self, if_false]

/-! ## The data of a part -/

/-- The beginning of a delimiter, but not all of it. -/
def Begins (boundary held : Bytes) : Prop :=
  held <+: delimiter boundary ∧ held ≠ delimiter boundary

theorem begins_nil : Begins boundary [] := ⟨List.nil_prefix, nofun⟩

theorem begins_cr : Begins boundary [cr] := ⟨⟨lf :: dash :: dash :: boundary, rfl⟩, nofun⟩

theorem Begins.length_lt {held : Bytes} (h : Begins boundary held) :
    held.length < (delimiter boundary).length := by
  obtain ⟨⟨rest, hrest⟩, hne⟩ := h
  rw [← hrest, List.length_append]
  have : rest ≠ [] := by
    rintro rfl
    exact hne (by rw [← hrest, List.append_nil])
  have := List.length_pos_iff.2 this
  omega

/-- What begins a delimiter has its carriage return at its first place alone. -/
theorem Begins.snoc_cr (hb : cr ∉ boundary) {held : Bytes} :
    held ++ [cr] <+: delimiter boundary ↔ held = [] := by
  constructor
  · intro h
    cases held with
    | nil => rfl
    | cons c held =>
      obtain ⟨rest, hrest⟩ := h
      have htail := (List.cons.inj hrest).2
      have hmem : cr ∈ [lf, dash, dash] ++ boundary := by
        rw [show [lf, dash, dash] ++ boundary = held ++ [cr] ++ rest from htail.symm]
        simp
      rcases List.mem_append.1 hmem with hmark | hmem
      · exact absurd hmark (by decide)
      · exact absurd hmem hb
  · rintro rfl
    exact begins_cr.1

/-- One byte of the data, after the beginning of a delimiter. -/
theorem byteStep_data {held : Bytes} (h : Begins boundary held) :
    byteStep (delimiter boundary) (.data held) c =
      if held ++ [c] <+: delimiter boundary then some ([], .data (held ++ [c]))
      else if c = cr then some (dataEvents held, .data [cr])
      else some (dataEvents held ++ [.data [c]], .data []) := by
  have hlen : 2 ≤ (delimiter boundary).length := by simp [delimiter]
  by_cases hheld : held = []
  · subst hheld
    rw [byteStep_data_nil hlen, List.nil_append]
    by_cases hc : c = cr
    · rw [if_pos hc, if_pos (hc ▸ begins_cr.1), hc]
    · have hnot : ¬ [c] <+: delimiter boundary := fun ⟨rest, hrest⟩ => hc (List.cons.inj hrest).1
      rw [if_neg hc, if_neg hnot, if_neg hc]
      rfl
  have hshort := h.length_lt
  -- Two more bytes are needed to end the delimiter.
  have hends : ∀ x y : UInt8, held ++ [c] ≠ delimiter boundary ++ [x, y] := by
    intro x y he
    have := congrArg List.length he
    simp only [List.length_append, List.length_cons, List.length_nil] at this
    omega
  have hpre : ∀ x y : UInt8, held ++ [c] <+: delimiter boundary ++ [x, y] ↔
      held ++ [c] <+: delimiter boundary := by
    intro x y
    refine ⟨fun hp => ?_, fun hp => hp.trans (List.prefix_append _ _)⟩
    refine List.prefix_of_prefix_length_le hp (List.prefix_append _ _) ?_
    rw [List.length_append]
    exact hshort
  rw [byteStep_held _ _ hheld, if_neg (hends _ _), if_neg (hends _ _), byteStep_data_nil hlen]
  simp only [Bool.or_eq_true, List.isPrefixOf_iff_prefix, hpre, or_self]
  split
  · rfl
  split
  · simp [dataEvents]
  · rfl

/-- Data without a delimiter: what is not given out yet begins one. -/
theorem bytewise_data {held : Bytes} (h : Begins boundary held)
    (hno : ¬ delimiter boundary <:+: held ++ bs) :
    ∃ given held', held ++ bs = given ++ held' ∧ Begins boundary held' ∧
      bytewise (delimiter boundary) (.data held) bs = some (dataEvents given, .data held') := by
  induction bs generalizing held with
  | nil => exact ⟨[], held, List.append_nil held, h, rfl⟩
  | cons c bs ih =>
    have hstep := byteStep_data (c := c) h
    by_cases hgrows : held ++ [c] <+: delimiter boundary
    · rw [if_pos hgrows] at hstep
      have hbegins : Begins boundary (held ++ [c]) := by
        refine ⟨hgrows, fun he => hno ⟨[], bs, ?_⟩⟩
        rw [List.nil_append, ← he, List.append_assoc, List.singleton_append]
      have hsplit : held ++ c :: bs = held ++ [c] ++ bs := by simp
      obtain ⟨given, held', heq, hheld', hbytes⟩ := ih hbegins (hsplit ▸ hno)
      refine ⟨given, held', hsplit.trans heq, hheld', ?_⟩
      rw [bytewise_cons hstep, hbytes]
      rfl
    have hrest : ∀ rest, rest <:+ held ++ c :: bs → ¬ delimiter boundary <:+: rest :=
      fun rest hsuffix hin => hno (hin.trans hsuffix.isInfix)
    rw [if_neg hgrows] at hstep
    by_cases hc : c = cr
    · rw [if_pos hc] at hstep
      obtain ⟨given, held', heq, hheld', hbytes⟩ :=
        ih begins_cr (hrest ([cr] ++ bs) ⟨held, by simp [hc]⟩)
      refine ⟨held ++ given, held', ?_, hheld', ?_⟩
      · rw [hc, List.append_assoc, ← heq]
        rfl
      · rw [bytewise_cons hstep, hbytes, dataEvents_append]
        rfl
    · rw [if_neg hc] at hstep
      obtain ⟨given, held', heq, hheld', hbytes⟩ :=
        ih begins_nil (hrest ([] ++ bs) ⟨held ++ [c], by simp⟩)
      refine ⟨held ++ [c] ++ given, held', ?_, hheld', ?_⟩
      · rw [List.append_assoc _ given, ← heq]
        simp
      · rw [bytewise_cons hstep, hbytes, dataEvents_append, dataEvents_append]
        rfl

/-- The rest of a delimiter. -/
theorem bytewise_grow {held : Bytes} (h : held ++ bs = delimiter boundary) :
    bytewise (delimiter boundary) (.data held) bs = some ([], .data (delimiter boundary)) := by
  induction bs generalizing held with
  | nil =>
    rw [List.append_nil] at h
    rw [h]
    rfl
  | cons c bs ih =>
    have hgrows : held ++ [c] <+: delimiter boundary := ⟨bs, by simpa using h⟩
    have hbegins : Begins boundary held := by
      refine ⟨⟨c :: bs, h⟩, fun he => ?_⟩
      rw [he] at h
      exact absurd (List.append_right_eq_self.1 h) (List.cons_ne_nil _ _)
    have hstep := byteStep_data (c := c) hbegins
    rw [if_pos hgrows] at hstep
    rw [bytewise_cons hstep, ih (by simpa using h)]
    rfl

/-- A carriage return may always begin a delimiter. -/
theorem byteStep_cr (hb : cr ∉ boundary) {held : Bytes} (h : Begins boundary held) :
    byteStep (delimiter boundary) (.data held) cr = some (dataEvents held, .data [cr]) := by
  rw [byteStep_data h]
  by_cases hheld : held = []
  · subst hheld
    rw [if_pos ((Begins.snoc_cr hb).2 rfl)]
    rfl
  · rw [if_neg fun hp => hheld ((Begins.snoc_cr hb).1 hp), if_pos rfl]

/-- A delimiter, after what might have begun another. -/
theorem bytewise_delimiter (hb : cr ∉ boundary) {held : Bytes} (h : Begins boundary held) :
    bytewise (delimiter boundary) (.data held) (delimiter boundary) =
      some (dataEvents held, .data (delimiter boundary)) := by
  have hrest : bytewise (delimiter boundary) (.data [cr]) (lf :: dash :: dash :: boundary) =
      some ([], .data (delimiter boundary)) := bytewise_grow rfl
  show bytewise _ _ (cr :: lf :: dash :: dash :: boundary) = _
  rw [bytewise_cons (byteStep_cr hb h), hrest]
  simp

/-- **Data and the delimiter that ends them.** -/
theorem bytewise_data_delimiter (hb : cr ∉ boundary) (hno : ¬ delimiter boundary <:+: bs) :
    bytewise (delimiter boundary) (.data []) (bs ++ delimiter boundary) =
      some (dataEvents bs, .data (delimiter boundary)) := by
  obtain ⟨given, held, heq, hheld, hbytes⟩ := bytewise_data begins_nil hno
  rw [List.nil_append] at heq
  rw [bytewise_append_some hbytes (bytewise_delimiter hb hheld), ← dataEvents_append, heq]

end UploadDepot.Multipart

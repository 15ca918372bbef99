/-
However a body is cut into chunks, it is read as if every byte came in a
chunk of its own (`scanFrom_bytewise`): the same bytes of names, of values and
of data come out, in the same order, and the reading stands at the same place.

The one exception are line breaks before the first boundary, with which all is
skipped that follows them in their chunk; so the reading has to begin at
another place, or at another byte (`Steady`).
-/
import Mathlib.Data.List.TakeWhile
import UploadDepot.Proofs.Bytes
import UploadDepot.Proofs.Multipart.Bytewise

namespace UploadDepot.Multipart

variable {delim boundary : Bytes} {place place' : Place} {c : UInt8} {bs rest : Bytes} {total : Nat}

/-! ## Advances -/

/-- An advance does to bytes what they do one by one. -/
def Agrees (delim : Bytes) (place : Place) (bs : Bytes) : Advance → Prop
  | .ok (events, place', rest) => ∃ read, bs = read ++ rest ∧
      bytewise delim place read = some (events.flatMap Event.single, place')
  | .error _ => bytewise delim place bs = none

/-- An advance by one byte, with what the byte does by itself. -/
inductive OneByte (rest : Bytes) : Option (List Event × Place) → Advance → Prop
  | taken {step : Option (List Event × Place)} {events : List Event} {place : Place} :
      step = some (events.flatMap Event.single, place) → OneByte rest step (.ok (events, place, rest))
  | refused {fault : Fault} : OneByte rest none (.error fault)

/-- Both look at the byte in the same way. -/
theorem OneByte.ite {p : Prop} [Decidable p] {step step' : Option (List Event × Place)}
    {result result' : Advance} (hpos : p → OneByte rest step result)
    (hneg : ¬ p → OneByte rest step' result') :
    OneByte rest (if p then step else step') (if p then result else result') := by
  split
  · exact hpos ‹_›
  · exact hneg ‹_›

theorem OneByte.agrees {result : Advance} (h : OneByte rest (byteStep delim place c) result) :
    Agrees delim place (c :: rest) result := by
  generalize hstep : byteStep delim place c = step at h
  cases h with
  | taken htaken => exact ⟨[c], rfl, bytewise_one (hstep.trans htaken)⟩
  | refused => exact bytewise_cons_none hstep rest

/-- An advance after bytes that are passed over. -/
theorem Agrees.after {first : Bytes} {result : Advance} (h : Agrees delim place' bs result)
    (hfirst : bytewise delim place first = some ([], place')) :
    Agrees delim place (first ++ bs) result := by
  match result, h with
  | .ok (events, last, rest), ⟨read, hread, hbytes⟩ =>
    refine ⟨first ++ read, by rw [hread, List.append_assoc], ?_⟩
    rw [bytewise_append_some hfirst hbytes, List.nil_append]
  | .error fault, h =>
    show bytewise delim place (first ++ bs) = none
    rw [bytewise_append, hfirst, Option.bind_some, show bytewise delim place' bs = none from h]
    rfl

/-- An advance from another place, where the first byte does the same. -/
theorem Agrees.of_step_eq {result : Advance} (h : Agrees delim place' (c :: bs) result)
    (hstep : byteStep delim place c = byteStep delim place' c)
    (hlen : ∀ {events last rest}, result = .ok (events, last, rest) → rest.length < (c :: bs).length) :
    Agrees delim place (c :: bs) result := by
  have hbytes : ∀ bs, bytewise delim place (c :: bs) = bytewise delim place' (c :: bs) := by
    intro bs
    rw [bytewise, bytewise, hstep]
  cases result with
  | error fault => exact (hbytes bs).trans h
  | ok result =>
    obtain ⟨events, last, rest⟩ := result
    obtain ⟨read, hread, hagrees⟩ := h
    cases read with
    | nil =>
      have := hlen rfl
      rw [hread, List.nil_append] at this
      omega
    | cons b read =>
      obtain ⟨rfl, _⟩ := List.cons.inj hread
      exact ⟨c :: read, hread, (hbytes read).trans hagrees⟩

/-- What a run of bytes ends at. -/
theorem of_dropWhile {p : UInt8 → Bool} (h : bs.dropWhile p = c :: rest) :
    bs = bs.takeWhile p ++ c :: rest ∧ p c = false := by
  refine ⟨by rw [← h, List.takeWhile_append_dropWhile], ?_⟩
  have hhead := List.head?_dropWhile_not p bs
  rw [h] at hhead
  simpa using hhead

theorem of_dropWhile_nil {p : UInt8 → Bool} (h : bs.dropWhile p = []) : bs.takeWhile p = bs := by
  have hbs := List.takeWhile_append_dropWhile (p := p) (l := bs)
  rwa [h, List.append_nil] at hbs

theorem advanceName_agrees : Agrees delim .name bs (advanceName total bs) := by
  have hstays : bytewise delim .name (bs.takeWhile isTokenByte) =
      some ((fragment .headerName (bs.takeWhile isTokenByte)).flatMap Event.single, .name) := by
    rw [single_fragment fun _ => rfl]
    apply bytewise_each
    intro b hb
    rw [byteStep_name, if_pos (List.mem_takeWhile_imp hb)]
  unfold advanceName
  split
  · rename_i hdrop
    exact ⟨_, by rw [List.append_nil, of_dropWhile_nil hdrop], hstays⟩
  · rename_i b rest hdrop
    obtain ⟨hbs, htoken⟩ := of_dropWhile hdrop
    have hstep := byteStep_name delim b
    rw [htoken, if_neg (by decide)] at hstep
    split
    · rename_i hcolon
      rw [if_pos hcolon] at hstep
      refine ⟨bs.takeWhile isTokenByte ++ [b], by rw [List.append_assoc]; exact hbs, ?_⟩
      rw [bytewise_append_some hstays (bytewise_one hstep), List.append_nil]
    · rename_i hcolon
      rw [if_neg hcolon] at hstep
      show bytewise delim .name bs = none
      rw [hbs, bytewise_append, hstays, Option.bind_some, bytewise_cons_none hstep]
      rfl

theorem advanceNameStart_agrees :
    Agrees delim .nameStart (c :: rest) (advanceNameStart total c rest) := by
  have hstep := byteStep_nameStart delim c
  by_cases hcr : c = cr
  · refine OneByte.agrees ?_
    rw [hstep, advanceNameStart]
    exact .ite (fun _ => .taken rfl) fun hne => absurd hcr hne
  by_cases hcolon : c = colon
  · refine OneByte.agrees ?_
    rw [hstep, advanceNameStart, if_neg hcr, if_neg hcr, if_pos hcolon, if_pos hcolon]
    exact .refused
  · rw [if_neg hcr, if_neg hcolon] at hstep
    rw [advanceNameStart, if_neg hcr, if_neg hcolon]
    exact advanceName_agrees.of_step_eq hstep fun h => advanceName_length h (List.cons_ne_nil _ _)

theorem advanceValue_agrees : Agrees delim .value bs (advanceValue bs) := by
  have hstays : bytewise delim .value (bs.takeWhile (· != cr)) =
      some ((fragment .headerValue (bs.takeWhile (· != cr))).flatMap Event.single, .value) := by
    rw [single_fragment fun _ => rfl]
    apply bytewise_each
    intro b hb
    have hne : b ≠ cr := by simpa using List.mem_takeWhile_imp hb
    rw [byteStep_value, if_neg hne]
  unfold advanceValue
  split
  · rename_i hdrop
    exact ⟨_, by rw [List.append_nil, of_dropWhile_nil hdrop], hstays⟩
  · rename_i b rest hdrop
    obtain ⟨hbs, hne⟩ := of_dropWhile hdrop
    have hcr : b = cr := by simpa using hne
    have hstep := byteStep_value delim b
    rw [if_pos hcr] at hstep
    refine ⟨bs.takeWhile (· != cr) ++ [b], by rw [List.append_assoc]; exact hbs, ?_⟩
    rw [bytewise_append_some hstays (bytewise_one hstep), List.flatMap_append]
    rfl

theorem advanceValueStart_agrees : Agrees delim .valueStart bs (advanceValueStart bs) := by
  have hstays : bytewise delim .valueStart (bs.takeWhile (· == space)) = some ([], .valueStart) := by
    apply bytewise_skips
    intro b hb
    have hspace : b = space := by simpa using List.mem_takeWhile_imp hb
    rw [byteStep_valueStart, if_pos hspace]
  unfold advanceValueStart
  split
  · rename_i hdrop
    exact ⟨_, by rw [List.append_nil, of_dropWhile_nil hdrop], hstays⟩
  · rename_i b rest hdrop
    obtain ⟨hbs, hne⟩ := of_dropWhile hdrop
    have hspace : b ≠ space := by simpa using hne
    rw [hbs]
    refine Agrees.after (advanceValue_agrees.of_step_eq ?_ ?_) hstays
    · rw [byteStep_valueStart, if_neg hspace]
    · exact fun h => advanceValue_length h (List.cons_ne_nil _ _)

/-- Where no whole delimiter is in the bytes, none is begun in those that are surely data: it would
have to end in the bytes after them. -/
theorem held_of_tail {given held tail : Bytes} (hbegins : Begins boundary held)
    (hend : given ++ held = rest ++ tail) (htail : cr ∉ tail)
    (hlen : held.length ≤ tail.length) : held = [] := by
  obtain ⟨hpre, _⟩ := hbegins
  cases held with
  | nil => rfl
  | cons b held =>
    obtain ⟨more, hmore⟩ := hpre
    have hb : b = cr := (List.cons.inj hmore).1
    have hsuffix : b :: held <:+ tail :=
      List.suffix_of_suffix_length_le ⟨given, hend⟩ (List.suffix_append rest tail) hlen
    exact absurd (hb ▸ hsuffix.subset List.mem_cons_self) htail

theorem advanceData_agrees (hb : cr ∉ boundary) :
    Agrees (delimiter boundary) (.data []) bs (advanceData (delimiter boundary) bs) := by
  have hne : delimiter boundary ≠ [] := nofun
  unfold advanceData
  split
  · rename_i n hindex
    obtain ⟨hdrop, hlen, hno⟩ := Bytes.indexOf?_some hindex hne
    refine ⟨bs.take n ++ delimiter boundary, ?_, ?_⟩
    · rw [List.append_assoc, ← hdrop, List.take_append_drop]
    · rw [bytewise_data_delimiter hb hno, single_fragment fun _ => rfl, dataEvents]
  rename_i hindex
  have hno := Bytes.indexOf?_none hindex
  generalize hsure : bs.length - (delimiter boundary).length = sure
  have hbs := List.take_append_drop sure bs
  dsimp only
  split
  -- No carriage return is among the last bytes, so nothing is held back.
  · rename_i hdrop
    have hlate := of_dropWhile_nil hdrop
    have hcr : cr ∉ bs.drop sure := by
      intro hmem
      rw [← hlate] at hmem
      simpa using List.mem_takeWhile_imp hmem
    obtain ⟨given, held, heq, hbegins, hbytes⟩ := bytewise_data begins_nil hno
    rw [List.nil_append] at heq
    have hlen : held.length ≤ (bs.drop sure).length := by
      have := hbegins.length_lt
      have := congrArg List.length heq
      rw [List.length_append] at this
      rw [List.length_drop]
      omega
    obtain rfl := held_of_tail hbegins (heq.symm.trans hbs.symm) hcr hlen
    refine ⟨bs, (List.append_nil bs).symm, ?_⟩
    rw [hlate, hbs, hbytes, single_fragment fun _ => rfl, heq, List.append_nil, dataEvents]
  -- Whatever was begun before the carriage return is ended by it.
  · rename_i b rest hdrop
    obtain ⟨hlate, hcr⟩ := of_dropWhile hdrop
    have hcr : b = cr := by simpa using hcr
    subst hcr
    generalize (bs.drop sure).takeWhile (· != cr) = text at hlate ⊢
    have hsplit : bs = bs.take sure ++ text ++ cr :: rest := by
      rw [List.append_assoc, ← hlate, hbs]
    have hslice : ¬ delimiter boundary <:+: [] ++ (bs.take sure ++ text) := fun hin =>
      hno (hin.trans ⟨[], cr :: rest, hsplit.symm⟩)
    obtain ⟨given, held, heq, hbegins, hbytes⟩ := bytewise_data begins_nil hslice
    rw [List.nil_append] at heq
    refine ⟨bs.take sure ++ text ++ [cr], by rw [List.append_assoc]; exact hsplit, ?_⟩
    rw [bytewise_append_some hbytes (bytewise_one (byteStep_cr hb hbegins)), single_fragment fun _ => rfl,
      ← dataEvents_append, ← heq, dataEvents]

theorem advanceHeld_agrees (hb : cr ∉ boundary) {held : Bytes} (hheld : held ≠ []) :
    Agrees (delimiter boundary) (.data held) (c :: rest)
      (advanceHeld (delimiter boundary) held c rest) := by
  have hstep := byteStep_held (delimiter boundary) c hheld
  unfold advanceHeld
  dsimp only
  by_cases hnext : held ++ [c] = delimiter boundary ++ [cr, lf]
  · rw [if_pos hnext] at hstep ⊢
    exact OneByte.agrees (hstep ▸ .taken rfl)
  by_cases hlast : held ++ [c] = delimiter boundary ++ [dash, dash]
  · rw [if_neg hnext, if_pos hlast] at hstep ⊢
    exact OneByte.agrees (hstep ▸ .taken rfl)
  by_cases hgrows : ((held ++ [c]).isPrefixOf (delimiter boundary ++ [cr, lf]) ||
      (held ++ [c]).isPrefixOf (delimiter boundary ++ [dash, dash])) = true
  · rw [if_neg hnext, if_neg hlast, if_pos hgrows] at hstep ⊢
    exact OneByte.agrees (hstep ▸ .taken rfl)
  rw [if_neg hnext, if_neg hlast, if_neg hgrows] at hstep ⊢
  -- What was held back is data, and the byte is read again.
  have hbytes : ∀ bs, bytewise (delimiter boundary) (.data held) (c :: bs) =
      (bytewise (delimiter boundary) (.data []) (c :: bs)).map fun result =>
        (dataEvents held ++ result.1, result.2) := by
    intro bs
    rw [bytewise, bytewise, hstep]
    cases byteStep (delimiter boundary) (.data []) c with
    | none => rfl
    | some step => simp [Function.comp_def, dataEvents]
  have hagrees : Agrees (delimiter boundary) (.data []) (c :: rest)
      (advanceData (delimiter boundary) (c :: rest)) := advanceData_agrees hb
  cases hdata : advanceData (delimiter boundary) (c :: rest) with
  | error fault =>
    rw [hdata] at hagrees
    exact (hbytes rest).trans (by rw [show bytewise _ _ (c :: rest) = none from hagrees]; rfl)
  | ok result =>
    obtain ⟨events, place, rest'⟩ := result
    rw [hdata] at hagrees
    obtain ⟨read, hread, hdone⟩ := hagrees
    have hlen := advanceData_length hdata (List.cons_ne_nil _ _) (List.cons_ne_nil c rest)
    cases read with
    | nil =>
      rw [hread, List.nil_append] at hlen
      exact absurd hlen (Nat.lt_irrefl _)
    | cons b read =>
      obtain ⟨rfl, _⟩ := List.cons.inj hread
      exact ⟨c :: read, hread, (hbytes read).trans (by rw [hdone]; rfl)⟩

/-- Bytes that do not begin with a line break, if the first boundary has not begun. -/
def Steady (place : Place) (bs : Bytes) : Prop :=
  place = .preamble → ∀ c ∈ bs.head?, c ≠ cr ∧ c ≠ lf

/-- **One advance**, from any place. -/
theorem advance_agrees (total : Nat) (hb : cr ∉ boundary) (hsteady : Steady place (c :: rest)) :
    Agrees (delimiter boundary) place (c :: rest)
      (advance (delimiter boundary) total place c rest) := by
  have hopening : ∀ matched, Agrees (delimiter boundary) (.opening matched) (c :: rest)
      (advanceOpening (delimiter boundary) total matched c rest) := by
    intro matched
    refine OneByte.agrees ?_
    rw [byteStep_opening, advanceOpening]
    refine .ite (fun _ => ?_) fun _ => .ite (fun _ => ?_) fun _ => ?_
    · exact .ite (fun _ => .taken rfl) fun _ => .ite (fun _ => .taken rfl) fun _ => .refused
    · exact .ite (fun _ => .taken rfl) fun _ => .refused
    · exact .ite (fun _ => .taken rfl) fun _ => .refused
  cases place with
  | preamble =>
    obtain ⟨hcr, hlf⟩ := hsteady rfl c rfl
    rw [advance, advancePreamble, if_neg (not_or.2 ⟨hcr, hlf⟩)]
    refine (hopening 0).of_step_eq (byteStep_preamble _ hcr hlf) fun h => ?_
    exact Nat.lt_succ_of_le (advanceOpening_length h)
  | opening matched => exact hopening matched
  | closing =>
    refine OneByte.agrees ?_
    rw [byteStep_closing, advance]
    exact .ite (fun _ => .taken rfl) fun _ => .refused
  | nameStart => exact advanceNameStart_agrees
  | name => exact advanceName_agrees
  | valueStart => exact advanceValueStart_agrees
  | value => exact advanceValue_agrees
  | valueEnd =>
    refine OneByte.agrees ?_
    rw [byteStep_valueEnd, advance]
    exact .ite (fun _ => .taken rfl) fun _ => .refused
  | headersEnd =>
    refine OneByte.agrees ?_
    rw [byteStep_headersEnd, advance]
    exact .ite (fun _ => .taken rfl) fun _ => .refused
  | data held =>
    rw [advance]
    split
    · rename_i hempty
      rw [List.isEmpty_iff.1 hempty]
      exact advanceData_agrees hb
    · rename_i hempty
      exact advanceHeld_agrees hb fun he => hempty (List.isEmpty_iff.2 he)
  | epilogue =>
    refine ⟨c :: rest, (List.append_nil _).symm, ?_⟩
    exact bytewise_skips fun _ _ => byteStep_epilogue

/-! ## Chunks -/

/-- No byte leads back to before the first boundary. -/
theorem byteStep_ne_preamble {step : List Event × Place} (hsteady : Steady place [c])
    (h : byteStep (delimiter boundary) place c = some step) : step.2 ≠ .preamble := by
  have hopening : ∀ matched, byteStep (delimiter boundary) (.opening matched) c = some step →
      step.2 ≠ .preamble := by
    intro matched h
    rw [byteStep_opening] at h
    grind
  have hname : byteStep (delimiter boundary) .name c = some step → step.2 ≠ .preamble := by
    intro h
    rw [byteStep_name] at h
    grind
  have hvalue : byteStep (delimiter boundary) .value c = some step → step.2 ≠ .preamble := by
    intro h
    rw [byteStep_value] at h
    grind
  have hdata : ∀ first, byteStep (delimiter boundary) (.data []) c = some first →
      first.2 ≠ .preamble := by
    intro first h
    rw [byteStep_data begins_nil] at h
    grind
  cases place with
  | preamble =>
    obtain ⟨hcr, hlf⟩ := hsteady rfl c rfl
    exact hopening 0 (byteStep_preamble _ hcr hlf ▸ h)
  | opening matched => exact hopening matched h
  | closing =>
    rw [byteStep_closing] at h
    grind
  | nameStart =>
    rw [byteStep_nameStart] at h
    grind
  | name => exact hname h
  | valueStart =>
    rw [byteStep_valueStart] at h
    grind
  | value => exact hvalue h
  | valueEnd =>
    rw [byteStep_valueEnd] at h
    grind
  | headersEnd =>
    rw [byteStep_headersEnd] at h
    grind
  | data held =>
    by_cases hheld : held = []
    · exact hdata step (hheld ▸ h)
    rw [byteStep_held _ _ hheld] at h
    cases hfirst : byteStep (delimiter boundary) (.data []) c with
    | none => grind
    | some first =>
      have := hdata first hfirst
      grind
  | epilogue =>
    rw [byteStep_epilogue] at h
    grind

theorem bytewise_ne_preamble {result : List Event × Place} (hne : bs ≠ [])
    (hsteady : Steady place bs) (h : bytewise (delimiter boundary) place bs = some result) :
    result.2 ≠ .preamble := by
  induction bs generalizing place result with
  | nil => exact absurd rfl hne
  | cons c bs ih =>
    obtain ⟨step, hstep, hrest⟩ := Option.bind_eq_some_iff.1 h
    obtain ⟨rest, htail, rfl⟩ := Option.map_eq_some_iff.1 hrest
    have hplace := byteStep_ne_preamble hsteady hstep
    cases bs with
    | nil =>
      obtain rfl := Option.some.inj htail
      exact hplace
    | cons b bs =>
      have hlast := ih (List.cons_ne_nil b bs) (fun he => absurd he hplace) htail
      exact hlast

theorem Steady.left {a b : Bytes} (h : Steady place (a ++ b)) : Steady place a := by
  intro he c hc
  refine h he c ?_
  rw [List.head?_append, Option.mem_def.1 hc]
  rfl

/-- After bytes that were read, the rest may be read as well. -/
theorem Steady.right {a b : Bytes} {result : List Event × Place} (h : Steady place (a ++ b))
    (ha : bytewise (delimiter boundary) place a = some result) : Steady result.2 b := by
  by_cases hne : a = []
  · subst hne
    obtain rfl := Option.some.inj ha
    exact h
  · exact fun he => absurd he (bytewise_ne_preamble hne h.left ha)

/-- What a scan finds is what the bytes are, one by one. -/
inductive Scanned (delim : Bytes) (place : Place) (bs : Bytes) (seen : List Event) :
    List Event × Except Fault Place → Prop
  | whole {events : List Event} {place' : Place} :
      bytewise delim place bs = some (events.flatMap Event.single, place') →
      Scanned delim place bs seen (seen.reverse ++ events, .ok place')
  | broken {events : List Event} {fault : Fault} :
      bytewise delim place bs = none → Scanned delim place bs seen (events, .error fault)

theorem scanFrom_bytewise (hb : cr ∉ boundary) (hd : delimiter boundary ≠ []) (total : Nat)
    (seen : List Event) (hsteady : Steady place bs) :
    Scanned (delimiter boundary) place bs seen
      (scanFrom (delimiter boundary) hd total seen place bs) := by
  fun_induction scanFrom (delimiter boundary) hd total seen place bs with
  | case1 seen place =>
    have hscanned : Scanned (delimiter boundary) place [] seen (seen.reverse ++ [], .ok place) :=
      .whole rfl
    rwa [List.append_nil] at hscanned
  | case2 seen place c rest fault hadvance =>
    have hagrees := advance_agrees total hb hsteady
    rw [hadvance] at hagrees
    exact .broken hagrees
  | case3 seen place c rest events place' rest' hadvance hlen ih =>
    have hagrees := advance_agrees total hb hsteady
    rw [hadvance] at hagrees
    obtain ⟨read, hread, hbytes⟩ := hagrees
    rw [hread] at hsteady ⊢
    have hscanned := ih (hsteady.right hbytes)
    generalize scanFrom _ hd total _ place' rest' = result at hscanned ⊢
    cases hscanned with
    | whole hrest =>
      rename_i more last
      have hall := bytewise_append_some hbytes hrest
      rw [← List.flatMap_append] at hall
      have hscanned : Scanned (delimiter boundary) place (read ++ rest') seen
        (seen.reverse ++ (events ++ more), .ok last) := .whole hall
      simpa using hscanned
    | broken hrest =>
      refine .broken ?_
      rw [bytewise_append, hbytes, Option.bind_some, hrest]
      rfl

end UploadDepot.Multipart

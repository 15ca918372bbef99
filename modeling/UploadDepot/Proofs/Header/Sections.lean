/-
The header values that have no parameters to give.

A value of bytes is read, whatever it is, unless the names of its sections are
against it: a number in them may be too long, and of one parameter some may be
numbered and some not. What the names say is told without reading the value
(`sectionFault?`), and the reading ends as they say (`parameters_fault`).
-/
import UploadDepot.Header.Parameters
import UploadDepot.Proofs.Bytes
import UploadDepot.Proofs.Table
import UploadDepot.Proofs.Text

namespace UploadDepot.Header

/-! ## The names of the sections -/

/-- The sections among some pieces by their names alone: of which parameter, and with which digits. -/
def namesOf (pieces : List (List Char)) : List (List Char × List Char) :=
  pieces.filterMap fun piece => sectionName? (split piece).1

theorem namesOf_cons (piece : List Char) (rest : List (List Char)) :
    namesOf (piece :: rest) = (sectionName? (split piece).1).toList ++ namesOf rest := by
  unfold namesOf
  cases h : sectionName? (split piece).1 with
  | none => exact List.filterMap_cons_none h
  | some s => exact List.filterMap_cons_some h

/-- The sections of a header value by their names alone. -/
def sectionNames (text : List Char) : List (List Char × List Char) :=
  namesOf (pieces false false text).tail

/-- Of one parameter, some sections are numbered and some are not. -/
def Unordered (names : List (List Char × List Char)) : Prop :=
  ∃ s ∈ names, ∃ t ∈ names, s.1 = t.1 ∧ s.2 = [] ∧ t.2 ≠ []

instance (names : List (List Char × List Char)) : Decidable (Unordered names) :=
  inferInstanceAs (Decidable (∃ s ∈ names, ∃ t ∈ names, s.1 = t.1 ∧ s.2 = [] ∧ t.2 ≠ []))

/-- Why the sections of a header value are not read, if they are not. -/
def sectionFault? (text : List Char) : Option ParameterFault :=
  match (sectionNames text).find? fun s => sectionDigits < s.2.length with
  | some s => some (.sectionNumberLength s.2.length)
  | none => if Unordered (sectionNames text) then some .unorderedSections else none

/-! ## Characters of bytes -/

/-- Every character has a byte. -/
def IsLatin1 (cs : List Char) : Prop := ∀ c ∈ cs, c.toNat < 256

variable {cs ds name base digits raw : List Char}

theorem IsLatin1.mono (h : IsLatin1 cs) (hsub : ds ⊆ cs) : IsLatin1 ds := fun c hc => h c (hsub hc)

theorem isLatin1_latin1 (bs : Bytes) : IsLatin1 (Bytes.latin1 bs) := by
  have hbyte : ∀ b : UInt8, (Char.ofNat b.toNat).toNat < 256 := by
    apply Bytes.forall_byte
    decide +kernel
  intro c hc
  obtain ⟨b, -, rfl⟩ := List.mem_map.1 hc
  exact hbyte b

theorem IsLatin1.encode (h : IsLatin1 cs) : ∃ bs, encode cs = .ok bs := by
  have hread : ∃ bs, Bytes.ofLatin1? cs = some bs := by
    induction cs with
    | nil => exact ⟨[], rfl⟩
    | cons c cs ih =>
      obtain ⟨bs, hbs⟩ := ih fun d hd => h d (List.mem_cons_of_mem c hd)
      rw [Bytes.ofLatin1?] at hbs ⊢
      exact ⟨UInt8.ofNat c.toNat :: bs, by simp [Bytes.ofLatin1Char?, h c List.mem_cons_self, hbs]⟩
  obtain ⟨bs, hbs⟩ := hread
  exact ⟨bs, by rw [Header.encode, hbs]⟩

theorem IsLatin1.lower (h : IsLatin1 cs) : IsLatin1 (Text.lower cs) := by
  have hchar : ∀ n : Fin 256, (Text.lowerChar (Char.ofNat n)).toNat < 256 := by decide +kernel
  intro c hc
  obtain ⟨d, hd, rfl⟩ := List.mem_map.1 hc
  have hlower := hchar ⟨d.toNat, h d hd⟩
  rwa [Char.ofNat_toNat] at hlower

theorem pieces_subset {escaped quoted : Bool} {piece : List Char}
    (h : piece ∈ pieces escaped quoted cs) : piece ⊆ cs := by
  induction cs generalizing escaped quoted piece with
  | nil =>
    obtain rfl := List.mem_singleton.1 h
    exact List.Subset.refl _
  | cons c cs ih =>
    unfold pieces at h
    split at h
    · rcases List.mem_cons.1 h with rfl | h
      · exact List.nil_subset _
      · exact List.Subset.trans (ih h) (List.subset_cons_self c cs)
    · dsimp only at h
      split at h
      · obtain rfl := List.mem_singleton.1 h
        exact List.cons_subset_cons c (List.nil_subset cs)
      · rename_i p ps hps
        rcases List.mem_cons.1 h with rfl | h
        · exact List.cons_subset_cons c (ih (hps ▸ List.mem_cons_self))
        · exact List.Subset.trans (ih (hps ▸ List.mem_cons_of_mem p h)) (List.subset_cons_self c cs)

theorem IsLatin1.split (h : IsLatin1 cs) : IsLatin1 (split cs).1 ∧ IsLatin1 (split cs).2 := by
  unfold Header.split
  split
  · exact ⟨h.mono (Text.strip_subset cs), nofun⟩
  · rename_i c value hdrop
    have hname := h.mono (List.takeWhile_sublist (· != '=')).subset
    have hvalue : value ⊆ cs :=
      (List.cons_subset.1 (hdrop ▸ (List.dropWhile_sublist (· != '=')).subset)).2
    exact ⟨(hname.mono (Text.strip_subset _)).lower,
      h.mono (List.Subset.trans (Text.strip_subset _) hvalue)⟩

theorem dropBefore_subset (a b : Char) (cs : List Char) : dropBefore a b cs ⊆ cs := by
  fun_induction dropBefore a b cs with
  | case1 x y cs hpair ih =>
    obtain ⟨rfl, rfl⟩ := hpair
    exact List.cons_subset.2 ⟨by simp, fun c hc => by simp [ih hc]⟩
  | case2 x y cs hpair ih => exact List.cons_subset_cons x ih
  | case3 cs => exact List.Subset.refl cs

theorem inner_subset (cs : List Char) : inner cs ⊆ cs :=
  List.Subset.trans (List.dropLast_subset _) (List.tail_sublist cs).subset

theorem unquote_subset (cs : List Char) : unquote cs ⊆ cs := by
  unfold unquote
  split
  · exact List.Subset.refl cs
  · split
    · exact List.Subset.trans (dropBefore_subset _ _ _)
        (List.Subset.trans (dropBefore_subset _ _ _) (inner_subset cs))
    · split
      · exact inner_subset cs
      · exact List.Subset.refl cs

theorem IsLatin1.escape (h : IsLatin1 cs) : IsLatin1 (escape cs) := by
  intro c hc
  obtain ⟨d, hd, hc⟩ := List.mem_flatMap.1 hc
  split at hc
  · rw [List.mem_cons, List.mem_singleton] at hc
    rcases hc with rfl | rfl
    · decide
    · exact h c hd
  · exact List.mem_singleton.1 hc ▸ h d hd

theorem IsLatin1.enclose (h : IsLatin1 cs) : IsLatin1 (enclose cs) := by
  intro c hc
  rw [Header.enclose, List.cons_append, List.mem_cons, List.mem_append, List.mem_singleton] at hc
  rcases hc with rfl | hc | rfl
  · decide
  · exact h c hc
  · decide

theorem hexValue?_lt {c : Char} {n : Nat} (h : hexValue? c = some n) : n < 16 := by
  unfold hexValue? at h
  grind

theorem IsLatin1.percentDecode (h : IsLatin1 cs) : IsLatin1 (percentDecode cs) := by
  have hbyte : ∀ n : Fin 256, (Char.ofNat n).toNat < 256 := by decide +kernel
  fun_induction Header.percentDecode cs with
  | case1 a b cs x y hx hy ih =>
    have hx := hexValue?_lt hx
    have hy := hexValue?_lt hy
    intro c hc
    rcases List.mem_cons.1 hc with rfl | hc
    · exact hbyte ⟨16 * x + y, by omega⟩
    · exact ih (h.mono fun d hd => by simp [hd]) c hc
  | case2 a b cs hhex ih =>
    intro c hc
    rcases List.mem_cons.1 hc with rfl | hc
    · decide
    · exact ih (h.mono (List.subset_cons_self _ _)) c hc
  | case3 c cs hpercent ih =>
    intro d hd
    rcases List.mem_cons.1 hd with rfl | hd
    · exact h d List.mem_cons_self
    · exact ih (h.mono (List.subset_cons_self _ _)) d hd
  | case4 => exact h

theorem afterLanguage_subset (cs : List Char) : afterLanguage cs ⊆ cs := by
  unfold afterLanguage
  split
  · exact List.Subset.refl cs
  · rename_i c text hdrop
    have htext := (List.cons_subset.1 (hdrop ▸ (List.dropWhile_sublist _).subset)).2
    exact List.Subset.trans htext
      (List.Subset.trans (List.tail_sublist _).subset (List.dropWhile_sublist _).subset)

theorem baseName_subset (cs : List Char) : baseName cs ⊆ cs := by
  unfold baseName
  split
  · intro c hc
    exact List.mem_reverse.1 ((List.takeWhile_sublist _).subset (List.mem_reverse.1 hc))
  · exact List.Subset.refl cs

theorem sectionName?_subset (h : sectionName? name = some (base, digits)) : base ⊆ name := by
  have hbase : base = name.takeWhile isWordChar := by
    unfold sectionName? at h
    grind
  exact hbase ▸ (List.takeWhile_sublist _).subset

/-! ## Collecting -/

variable {acc : Collected} {names : List (List Char × List Char)} {sections : List Section}

/-- A name and a value of bytes. -/
def BytePair (p : List Char × List Char) : Prop := IsLatin1 p.1 ∧ IsLatin1 p.2

/-- All that was collected is made of bytes, and these are the sections that came. -/
structure Collected.Holds (acc : Collected) (names : List (List Char × List Char)) : Prop where
  plain : ∀ p ∈ acc.plain, BytePair p
  distinct : acc.sectioned.Distinct
  sectioned : ∀ p ∈ acc.sectioned, IsLatin1 p.1 ∧ ∀ s ∈ p.2, IsLatin1 s.text
  /-- Under each name the sections are in the order in which they came. -/
  numbers : ∀ base, ((acc.sectioned.get? base).getD []).map (fun s => s.number.isSome) =
    (names.filter fun s => s.1 = base).map fun s => decide (s.2 ≠ [])

theorem Collected.Holds.nil : Collected.Holds { plain := [], sectioned := [] } [] :=
  ⟨nofun, Table.Distinct.nil, nofun, fun _ => rfl⟩

theorem Collected.add_plain (acc : Collected) (raw : List Char) (h : sectionName? name = none) :
    acc.add name raw =
      .ok { acc with plain := acc.plain ++ [(name, enclose (escape (unquote raw)))] } := by
  rw [Collected.add, h]

theorem Collected.add_section (acc : Collected) (raw : List Char)
    (h : sectionName? name = some (base, digits)) :
    acc.add name raw =
      if digits.length > sectionDigits then .error (.sectionNumberLength digits.length)
      else .ok { acc with sectioned := acc.sectioned.set base ((acc.sectioned.get? base).getD [] ++
        [{ number := if digits = [] then none else some (digitsValue digits)
           text := unquote raw
           encoded := name.getLast? = some '*' }]) } := by
  rw [Collected.add, h]

theorem Collected.Holds.plain_added (h : acc.Holds names) (hname : IsLatin1 name)
    (hraw : IsLatin1 raw) :
    Collected.Holds { acc with plain := acc.plain ++ [(name, enclose (escape (unquote raw)))] } names := by
  refine ⟨fun p hp => ?_, h.distinct, h.sectioned, h.numbers⟩
  rcases List.mem_append.1 hp with hp | hp
  · exact h.plain p hp
  · obtain rfl := List.mem_singleton.1 hp
    exact ⟨hname, (hraw.mono (unquote_subset raw)).escape.enclose⟩

theorem Collected.Holds.section_added (h : acc.Holds names) (hbase : IsLatin1 base) (digits : List Char)
    {s : Section} (htext : IsLatin1 s.text) (hnumber : s.number.isSome = decide (digits ≠ [])) :
    Collected.Holds { acc with
        sectioned := acc.sectioned.set base ((acc.sectioned.get? base).getD [] ++ [s]) }
      (names ++ [(base, digits)]) := by
  have hbefore : ∀ s ∈ (acc.sectioned.get? base).getD [], IsLatin1 s.text := by
    cases hget : acc.sectioned.get? base with
    | none => exact nofun
    | some sections => exact (h.sectioned _ (Table.mem_of_get? hget)).2
  refine ⟨h.plain, h.distinct.set _ _, fun p hp => ?_, fun other => ?_⟩
  · rcases Table.mem_set hp with rfl | hp
    · refine ⟨hbase, fun t ht => ?_⟩
      rcases List.mem_append.1 ht with ht | ht
      · exact hbefore t ht
      · exact List.mem_singleton.1 ht ▸ htext
    · exact h.sectioned p hp
  · by_cases hother : other = base
    · subst hother
      rw [Table.get?_set_self]
      simp [h.numbers other, hnumber]
    · rw [Table.get?_set_other _ _ hother]
      simp [h.numbers other, Ne.symm hother]

/-- What comes of some more pieces: all are taken, unless a section number is too long. -/
theorem Collected.Holds.collect (h : acc.Holds names) {rest : List (List Char)}
    (hrest : ∀ piece ∈ rest, IsLatin1 piece) :
    (∃ s, (namesOf rest).find? (fun s => sectionDigits < s.2.length) = some s ∧
        rest.foldlM (fun acc piece => acc.add (split piece).1 (split piece).2) acc =
          .error (.sectionNumberLength s.2.length)) ∨
      ((namesOf rest).find? (fun s => sectionDigits < s.2.length) = none ∧
        ∃ acc', rest.foldlM (fun acc piece => acc.add (split piece).1 (split piece).2) acc = .ok acc' ∧
          acc'.Holds (names ++ namesOf rest)) := by
  induction rest generalizing acc names with
  | nil => exact .inr ⟨rfl, acc, rfl, by rwa [namesOf, List.filterMap_nil, List.append_nil]⟩
  | cons piece rest ih =>
    obtain ⟨hname, hraw⟩ := (hrest piece List.mem_cons_self).split
    have hrest := fun p hp => hrest p (List.mem_cons_of_mem piece hp)
    rw [namesOf_cons, List.foldlM_cons]
    cases hsection : sectionName? (split piece).1 with
    | none =>
      rw [Option.toList_none, List.nil_append, acc.add_plain _ hsection]
      exact ih (h.plain_added hname hraw) hrest
    | some s =>
      obtain ⟨base, digits⟩ := s
      rw [Option.toList_some, List.singleton_append, List.find?_cons, acc.add_section _ hsection]
      by_cases hdigits : digits.length > sectionDigits
      · refine .inl ⟨(base, digits), ?_, ?_⟩
        · simp [hdigits]
        · rw [if_pos hdigits]
          rfl
      · have hadded := h.section_added (hname.mono (sectionName?_subset hsection)) digits
          (s := { number := if digits = [] then none else some (digitsValue digits)
                  text := unquote (split piece).2
                  encoded := (split piece).1.getLast? = some '*' })
          (hraw.mono (unquote_subset _)) (by split <;> simp [*])
        have hrest := ih hadded hrest
        rw [List.append_assoc, List.singleton_append] at hrest
        simpa [hdigits, bind, Except.bind] using hrest

/-! ## Joining -/

/-- Some of the sections are numbered and some are not. -/
def Jumbled (sections : List Section) : Prop :=
  false ∈ sections.map (fun s => s.number.isSome) ∧ true ∈ sections.map fun s => s.number.isSome

theorem Collected.Holds.unordered_iff (h : acc.Holds names) :
    Unordered names ↔ ∃ p ∈ acc.sectioned, Jumbled p.2 := by
  constructor
  · rintro ⟨s, hs, t, ht, hbase, hnone, hsome⟩
    have hnumbers := h.numbers s.1
    have hfalse : false ∈ (names.filter fun t => t.1 = s.1).map fun t => decide (t.2 ≠ []) :=
      List.mem_map.2 ⟨s, List.mem_filter.2 ⟨hs, by simp⟩, by simp [hnone]⟩
    have htrue : true ∈ (names.filter fun t => t.1 = s.1).map fun t => decide (t.2 ≠ []) :=
      List.mem_map.2 ⟨t, List.mem_filter.2 ⟨ht, by simp [hbase]⟩, by simp [hsome]⟩
    rw [← hnumbers] at hfalse htrue
    cases hget : acc.sectioned.get? s.1 with
    | none =>
      rw [hget] at hfalse
      cases hfalse
    | some sections =>
      rw [hget] at hfalse htrue
      exact ⟨(s.1, sections), Table.mem_of_get? hget, hfalse, htrue⟩
  · rintro ⟨p, hp, hfalse, htrue⟩
    have hnumbers := h.numbers p.1
    rw [h.distinct.get?_of_mem hp, Option.getD_some] at hnumbers
    rw [hnumbers] at hfalse htrue
    obtain ⟨s, hs, hnone⟩ := List.mem_map.1 hfalse
    obtain ⟨t, ht, hsome⟩ := List.mem_map.1 htrue
    simp only [List.mem_filter, decide_eq_true_eq] at hs ht
    exact ⟨s, hs.1, t, ht.1, hs.2.trans ht.2.symm, by simpa using hnone, by simpa using hsome⟩

theorem join_jumbled (h : Jumbled sections) : join sections = .error .unorderedSections := by
  obtain ⟨hfalse, htrue⟩ := h
  obtain ⟨s, hs, hnone⟩ := List.mem_map.1 hfalse
  obtain ⟨t, ht, hsome⟩ := List.mem_map.1 htrue
  have hboth : (sections.any (·.number.isNone) && sections.any (·.number.isSome)) = true := by
    rw [Bool.and_eq_true, List.any_eq_true, List.any_eq_true]
    exact ⟨⟨s, hs, by simpa using hnone⟩, t, ht, hsome⟩
  rw [join, if_pos hboth]

theorem join_ok (h : ¬ Jumbled sections) (htexts : ∀ s ∈ sections, IsLatin1 s.text) :
    ∃ text, join sections = .ok text ∧ IsLatin1 text := by
  have hnot : ¬ (sections.any (·.number.isNone) && sections.any (·.number.isSome)) = true := by
    rw [Bool.and_eq_true, List.any_eq_true, List.any_eq_true]
    rintro ⟨⟨s, hs, hnone⟩, t, ht, hsome⟩
    exact h ⟨List.mem_map.2 ⟨s, hs, by simpa using hnone⟩, List.mem_map.2 ⟨t, ht, hsome⟩⟩
  have hjoined : IsLatin1 ((sections.mergeSort Section.le).flatMap fun s =>
      if s.encoded then percentDecode s.text else s.text) := by
    intro c hc
    obtain ⟨s, hs, hc⟩ := List.mem_flatMap.1 hc
    have htext := htexts s (List.mem_mergeSort.1 hs)
    split at hc
    · exact htext.percentDecode c hc
    · exact htext c hc
  refine ⟨_, by rw [join, if_neg hnot], IsLatin1.enclose ?_⟩
  split
  · exact hjoined.escape.mono (afterLanguage_subset _)
  · exact hjoined.escape

/-- What comes of the sections of all parameters. -/
theorem join_all {table : Table (List Char) (List Section)}
    (h : ∀ p ∈ table, IsLatin1 p.1 ∧ ∀ s ∈ p.2, IsLatin1 s.text) :
    ((∃ p ∈ table, Jumbled p.2) ∧
        table.mapM (fun p => do return (p.1, ← join p.2)) = .error .unorderedSections) ∨
      ((¬ ∃ p ∈ table, Jumbled p.2) ∧ ∃ joined, table.mapM (fun p => do return (p.1, ← join p.2)) =
        Except.ok joined ∧ ∀ p ∈ joined, BytePair p) := by
  induction table with
  | nil => exact .inr ⟨by simp, [], rfl, nofun⟩
  | cons p table ih =>
    obtain ⟨hname, htexts⟩ := h p List.mem_cons_self
    rw [List.mapM_cons]
    by_cases hp : Jumbled p.2
    · exact .inl ⟨⟨p, List.mem_cons_self, hp⟩, by rw [join_jumbled hp]; rfl⟩
    obtain ⟨text, hjoin, htext⟩ := join_ok hp htexts
    rw [hjoin]
    rcases ih fun q hq => h q (List.mem_cons_of_mem p hq) with
      ⟨⟨q, hq, hjumbled⟩, hfault⟩ | ⟨hnone, joined, hrest, hpairs⟩
    · exact .inl ⟨⟨q, List.mem_cons_of_mem p hq, hjumbled⟩, by rw [hfault]; rfl⟩
    · refine .inr ⟨?_, (p.1, text) :: joined, by rw [hrest]; rfl, ?_⟩
      · rintro ⟨q, hq, hjumbled⟩
        rcases List.mem_cons.1 hq with rfl | hq
        · exact hp hjumbled
        · exact hnone ⟨q, hq, hjumbled⟩
      · intro q hq
        rcases List.mem_cons.1 hq with rfl | hq
        · exact ⟨hname, htext⟩
        · exact hpairs q hq

/-! ## Storing -/

theorem store_ok (ps : Parameters) {p : List Char × List Char} (h : BytePair p) :
    ∃ ps', store ps p = .ok ps' := by
  have hvalue := h.2.mono (unquote_subset p.2)
  have hbase : IsLatin1 (if p.1 = "filename".toList then baseName (unquote p.2) else unquote p.2) := by
    split
    · exact hvalue.mono (baseName_subset _)
    · exact hvalue
  obtain ⟨name, hname⟩ := h.1.encode
  obtain ⟨value, hstored⟩ := hbase.encode
  refine ⟨ps.set name value, ?_⟩
  unfold store
  dsimp only
  rw [hname, hstored]
  rfl

theorem store_all {entries : List (List Char × List Char)} (ps : Parameters)
    (h : ∀ p ∈ entries, BytePair p) : ∃ ps', entries.foldlM store ps = .ok ps' := by
  induction entries generalizing ps with
  | nil => exact ⟨ps, rfl⟩
  | cons p entries ih =>
    obtain ⟨ps', hstore⟩ := store_ok ps (h p List.mem_cons_self)
    rw [List.foldlM_cons, hstore]
    exact ih ps' fun q hq => h q (List.mem_cons_of_mem p hq)

/-! ## Reading -/

theorem pieces_of_notMem {escaped quoted : Bool} (h : ';' ∉ cs) :
    (pieces escaped quoted cs).tail = [] := by
  induction cs generalizing escaped quoted with
  | nil => rfl
  | cons c cs ih =>
    simp only [List.mem_cons, not_or] at h
    rw [pieces, if_neg fun hcut => h.1 hcut.1.symm]
    dsimp only
    have hrest := @ih (c = '\\') (if c = '"' ∧ escaped = false then !quoted else quoted) h.2
    cases hpieces : pieces (c = '\\') (if c = '"' ∧ escaped = false then !quoted else quoted) cs with
    | nil => rfl
    | cons p ps => rwa [hpieces] at hrest

/-- A value without a semicolon has no sections, and is read. -/
theorem parameters_uncut (h : IsLatin1 cs) (huncut : ';' ∉ cs) :
    sectionFault? cs = none ∧ ∃ result, parameters cs = .ok result := by
  refine ⟨by rw [sectionFault?, sectionNames, pieces_of_notMem huncut]; rfl, ?_⟩
  rw [parameters]
  split
  · exact ⟨_, rfl⟩
  · obtain ⟨main, hmain⟩ := (h.lower.mono (Text.strip_subset _)).encode
    exact ⟨(main, []), by rw [if_pos (by simpa using huncut), hmain]; rfl⟩

/-- What was collected is read, unless its sections have no order. -/
theorem Collected.Holds.read (h : acc.Holds names) {main : List Char} (hmain : IsLatin1 main) :
    let outcome : Except ParameterFault (Bytes × Parameters) := do
      let joined ← acc.sectioned.mapM fun p => do return (p.1, ← join p.2)
      let main ← encode main
      let ps ← (acc.plain ++ joined).foldlM store []
      return (main, ps)
    (Unordered names ∧ outcome = .error .unorderedSections) ∨
      (¬ Unordered names ∧ ∃ result, outcome = .ok result) := by
  intro outcome
  rw [h.unordered_iff]
  rcases join_all h.sectioned with ⟨hjumbled, hfault⟩ | ⟨hnone, joined, hjoined, hpairs⟩
  · exact .inl ⟨hjumbled, by dsimp only [outcome]; rw [hfault]; rfl⟩
  · obtain ⟨name, hname⟩ := hmain.encode
    have hentries : ∀ p ∈ acc.plain ++ joined, BytePair p := fun p hp =>
      (List.mem_append.1 hp).elim (h.plain p) (hpairs p)
    obtain ⟨ps, hps⟩ := store_all [] hentries
    refine .inr ⟨hnone, (name, ps), ?_⟩
    dsimp only [outcome]
    rw [hjoined, hname]
    dsimp only [bind, Except.bind]
    rw [hps]
    rfl

/-- **A header value of bytes is read**, unless the names of its sections are against it, and then it
fails as they say. -/
theorem parameters_cases (bs : Bytes) :
    (∃ fault, sectionFault? (Bytes.latin1 bs) = some fault ∧
        parameters (Bytes.latin1 bs) = .error fault) ∨
      (sectionFault? (Bytes.latin1 bs) = none ∧
        ∃ result, parameters (Bytes.latin1 bs) = .ok result) := by
  have hbytes := isLatin1_latin1 bs
  generalize Bytes.latin1 bs = text at hbytes
  by_cases hcut : ';' ∈ text
  case neg => exact .inr (parameters_uncut hbytes hcut)
  have hcontains : ¬ text.contains ';' = false := by simpa using hcut
  rw [sectionFault?, sectionNames, parameters, if_neg (List.ne_nil_of_mem hcut), if_neg hcontains]
  have hpieces : ∀ piece ∈ pieces false false text, IsLatin1 piece := fun piece hpiece =>
    hbytes.mono (pieces_subset hpiece)
  cases htext : pieces false false text with
  | nil => exact .inr ⟨rfl, _, rfl⟩
  | cons main rest =>
    rw [htext] at hpieces
    rw [List.tail_cons]
    dsimp only
    rcases Collected.Holds.nil.collect fun p hp => hpieces p (List.mem_cons_of_mem main hp) with
      ⟨s, hs, hfault⟩ | ⟨hshort, acc, hcollect, hacc⟩
    · rw [hs, hfault]
      exact .inl ⟨_, rfl, rfl⟩
    · rw [hshort, hcollect]
      rcases hacc.read (hpieces main List.mem_cons_self).split.1 with
        ⟨hunordered, hfault⟩ | ⟨hordered, result, hok⟩
      · exact .inl ⟨_, if_pos hunordered, hfault⟩
      · exact .inr ⟨if_neg hordered, result, hok⟩

theorem parameters_fault (bs : Bytes) (fault : ParameterFault) :
    parameters (Bytes.latin1 bs) = .error fault ↔ sectionFault? (Bytes.latin1 bs) = some fault := by
  rcases parameters_cases bs with ⟨other, htold, hread⟩ | ⟨htold, result, hread⟩
  · rw [htold, hread, Option.some.injEq, Except.error.injEq]
  · simp [htold, hread]

/-- Numbers in another order, and twice the same, are no fault; a section without one is. -/
example : sectionFault? "form-data; name*1=b; name*0=a; name*1=c".toList = none ∧
    sectionFault? "form-data; name*1=b; filename*=a; name*=c".toList = some .unorderedSections := by
  decide +kernel

end UploadDepot.Header

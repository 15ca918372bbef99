/-
What is cut off at the ends of a text and at a character in it, and the
letters and digits of ASCII among those of every script.
-/
import UploadDepot.Text.Blank
import UploadDepot.Text.Digit
import UploadDepot.Text.Lower
import UploadDepot.Text.Split

namespace UploadDepot.Text

variable {p : Char → Bool} {cs rest : List Char} {c : Char}

/-! ## The ends of a text -/

theorem dropWhile_eq_self (h : ∀ c ∈ cs.head?, p c = false) : cs.dropWhile p = cs := by
  cases cs with
  | nil => rfl
  | cons c cs => simp [h c rfl]

theorem trim_eq_self (hhead : ∀ c ∈ cs.head?, p c = false) (hlast : ∀ c ∈ cs.getLast?, p c = false) :
    trim p cs = cs := by
  rw [trim, dropWhile_eq_self hhead, dropWhile_eq_self (by rwa [List.head?_reverse]), List.reverse_reverse]

/-- What a text has of a class at its two ends goes, and nothing else does. -/
theorem trim_padded {pad slack : List Char} (hpad : ∀ c ∈ pad, p c = true)
    (hslack : ∀ c ∈ slack, p c = true) (hhead : ∀ c ∈ cs.head?, p c = false)
    (hlast : ∀ c ∈ cs.getLast?, p c = false) : trim p (pad ++ (cs ++ slack)) = cs := by
  rw [trim, List.dropWhile_append_of_pos hpad]
  by_cases hcs : cs = []
  · subst hcs
    have hnone : (slack ++ []).dropWhile p = [] := List.dropWhile_append_of_pos hslack
    rw [List.append_nil] at hnone
    rw [List.nil_append, hnone]
    rfl
  · have hhead' : ∀ c ∈ (cs ++ slack).head?, p c = false := by
      rwa [List.head?_append, Option.or_of_isSome (List.isSome_head?.2 hcs)]
    have hslack' : ∀ c ∈ slack.reverse, p c = true := fun c hc => hslack c (List.mem_reverse.1 hc)
    rw [dropWhile_eq_self hhead', List.reverse_append, List.dropWhile_append_of_pos hslack',
      dropWhile_eq_self (by rwa [List.head?_reverse]), List.reverse_reverse]

/-- A text is something that does not end in a class, and then characters of that class. -/
theorem exists_slack (p : Char → Bool) (cs : List Char) :
    ∃ core slack, cs = core ++ slack ∧ (∀ c ∈ slack, p c = true) ∧ ∀ c ∈ core.getLast?, p c = false := by
  refine ⟨(cs.reverse.dropWhile p).reverse, (cs.reverse.takeWhile p).reverse, ?_, ?_, ?_⟩
  · rw [← List.reverse_append, List.takeWhile_append_dropWhile, List.reverse_reverse]
  · intro c hc
    exact List.all_eq_true.1 List.all_takeWhile c (List.mem_reverse.1 hc)
  · intro c hc
    rw [List.getLast?_reverse] at hc
    have hnot := List.head?_dropWhile_not p cs.reverse
    rw [hc] at hnot
    simpa using hnot

/-- Every text is something between characters of a class, at which it neither begins nor ends. -/
theorem exists_padded (p : Char → Bool) (cs : List Char) :
    ∃ pad core slack, cs = pad ++ (core ++ slack) ∧ (∀ c ∈ pad, p c = true) ∧
      (∀ c ∈ slack, p c = true) ∧ (∀ c ∈ core.head?, p c = false) ∧ ∀ c ∈ core.getLast?, p c = false := by
  obtain ⟨core, slack, hcore, hslack, hlast⟩ := exists_slack p (cs.dropWhile p)
  refine ⟨cs.takeWhile p, core, slack, ?_, ?_, hslack, ?_, hlast⟩
  · rw [← hcore, List.takeWhile_append_dropWhile]
  · exact fun c hc => List.all_eq_true.1 List.all_takeWhile c hc
  · intro c hc
    have hnot := List.head?_dropWhile_not p cs
    rw [hcore, List.head?_append, hc] at hnot
    simpa using hnot

theorem strip_subset (cs : List Char) : strip cs ⊆ cs := by
  intro c hc
  rw [strip, trim, List.mem_reverse] at hc
  exact (List.dropWhile_sublist _).subset (List.mem_reverse.1 ((List.dropWhile_sublist _).subset hc))

theorem mem_dropWhile (hc : c ∈ cs) (hp : p c = false) : c ∈ cs.dropWhile p := by
  rw [← List.takeWhile_append_dropWhile (p := p) (l := cs), List.mem_append] at hc
  refine hc.resolve_left fun hc => ?_
  rw [List.all_eq_true.1 List.all_takeWhile c hc] at hp
  cases hp

/-- A character stays unless it is of the class. -/
theorem mem_trim (hc : c ∈ cs) (hp : p c = false) : c ∈ trim p cs := by
  rw [trim, List.mem_reverse]
  exact mem_dropWhile (List.mem_reverse.2 (mem_dropWhile hc hp)) hp

/-! ## Cutting at a character -/

/-- Up to the first of a character. -/
theorem before_append (hcs : c ∉ cs) (hrest : ∀ d ∈ rest.head?, d = c) : before c (cs ++ rest) = cs := by
  have hne : ∀ d ∈ cs, (d != c) = true := fun d hd => bne_iff_ne.2 (ne_of_mem_of_not_mem hd hcs)
  rw [before, List.takeWhile_append_of_pos hne]
  cases rest with
  | nil => exact List.append_nil cs
  | cons d rest => rw [hrest d rfl, List.takeWhile_cons_of_neg (by simp), List.append_nil]

theorem before_of_not_mem (h : c ∉ cs) : before c cs = cs := by
  have hnone : before c (cs ++ []) = cs := before_append h nofun
  rwa [List.append_nil] at hnone

theorem before_append_of_mem (h : c ∈ cs) (rest : List Char) : before c (cs ++ rest) = before c cs := by
  obtain ⟨a, b, rfl, ha⟩ := List.eq_append_cons_of_mem h
  rw [List.append_assoc, List.cons_append, before_append ha (by simp), before_append ha (by simp)]

theorem partsAt_of_not_mem : ∀ {cs : List Char}, c ∉ cs → partsAt c cs = [cs]
  | [], _ => rfl
  | x :: cs, h => by
    rw [List.mem_cons, not_or] at h
    rw [partsAt, if_neg (Ne.symm h.1), partsAt_of_not_mem h.2]

theorem partsAt_append (rest : List Char) (h : c ∉ cs) :
    partsAt c (cs ++ c :: rest) = cs :: partsAt c rest := by
  induction cs with
  | nil => rw [List.nil_append, partsAt, if_pos rfl]
  | cons x cs ih =>
    rw [List.mem_cons, not_or] at h
    rw [List.cons_append, partsAt, if_neg (Ne.symm h.1), ih h.2]

/-- The first part is what stands before the first of the character. -/
theorem partsAt_before (c : Char) (cs : List Char) : ∃ parts, partsAt c cs = before c cs :: parts := by
  by_cases h : c ∈ cs
  · obtain ⟨a, b, rfl, ha⟩ := List.eq_append_cons_of_mem h
    exact ⟨partsAt c b, by rw [partsAt_append b ha, before_append ha (by simp)]⟩
  · exact ⟨[], by rw [partsAt_of_not_mem h, before_of_not_mem h]⟩

/-- Blanks at the end are cut off, whether before or after a cut. -/
theorem strip_before_append {slack : List Char} (hc : isBlank c = false)
    (hslack : ∀ d ∈ slack, isBlank d = true) :
    strip (before c (cs ++ slack)) = strip (before c cs) := by
  have hmem : c ∉ slack := fun hmem => by
    rw [hslack c hmem] at hc
    cases hc
  by_cases h : c ∈ cs
  · rw [before_append_of_mem h]
  · rw [before_of_not_mem h, before_of_not_mem (by simp [h, hmem])]
    obtain ⟨pad, core, slack', rfl, hpad, hslack', hhead, hlast⟩ := exists_padded isBlank cs
    have hboth : ∀ d ∈ slack' ++ slack, isBlank d = true := fun d hd =>
      (List.mem_append.1 hd).elim (hslack' d) (hslack d)
    rw [List.append_assoc, List.append_assoc, strip, strip, trim_padded hpad hboth hhead hlast,
      trim_padded hpad hslack' hhead hlast]

/-! ## Letters -/

/-- Outside ASCII no letter has a small form in it, but for the Kelvin sign. -/
theorem lowerChar_of_not_ascii (h : 128 ≤ c.toNat) : 128 ≤ (lowerChar c).toNat ∨ lowerChar c = 'k' := by
  by_cases hlatin : c.toNat < 256
  · have hall : ∀ n : Fin 256, 128 ≤ n.val → 128 ≤ (lowerChar (Char.ofNat n)).toNat := by decide +kernel
    have hlarge := hall ⟨c.toNat, hlatin⟩ h
    rw [Char.ofNat_toNat] at hlarge
    exact .inl hlarge
  · unfold lowerChar
    dsimp only
    rw [if_neg (by omega), if_neg (by omega)]
    split
    · exact .inl (by decide)
    split
    · exact .inl (by decide)
    split
    · exact .inr rfl
    split
    · exact .inl (by decide)
    · exact .inl h

theorem toLower_of_not_ascii (h : 128 ≤ c.toNat) : c.toLower = c := by
  refine dif_neg ?_
  rintro ⟨-, hZ⟩
  have : c.toNat ≤ 90 := UInt32.le_iff_toNat_le.1 hZ
  omega

/-- The letters of ASCII other than `k` are those whose small form is the same as in ASCII. -/
theorem lowerChar_eq_iff {d : Char} (hd : d.toNat < 128) (hk : d ≠ 'k') :
    lowerChar c = d ↔ c.toLower = d := by
  by_cases hc : c.toNat < 128
  · have hall : ∀ n : Fin 128, lowerChar (Char.ofNat n) = (Char.ofNat n).toLower := by decide +kernel
    have hsame := hall ⟨c.toNat, hc⟩
    rw [Char.ofNat_toNat] at hsame
    rw [hsame]
  · rw [toLower_of_not_ascii (Nat.not_lt.1 hc)]
    constructor
    · rintro rfl
      rcases lowerChar_of_not_ascii (Nat.not_lt.1 hc) with hlarge | he
      · omega
      · exact absurd he hk
    · rintro rfl
      exact absurd hd hc

/-- What is checked character by character holds of every character of a text. -/
theorem forall_mem_of_all {motive : Char → Prop} [DecidablePred motive]
    (h : cs.all (fun c => decide (motive c)) = true) : ∀ c ∈ cs, motive c := fun c hc =>
  of_decide_eq_true (List.all_eq_true.1 h c hc)

/-! ## Digits -/

/-- What holds of the characters from `0` to `9` holds of every digit of ASCII. -/
theorem forall_isDigit {motive : Char → Prop} (h : ∀ n : Fin 10, motive (Char.ofNat (48 + n)))
    (hc : c.isDigit = true) : motive c := by
  simp only [Char.isDigit, Bool.and_eq_true, decide_eq_true_eq] at hc
  have hlow : 48 ≤ c.toNat := UInt32.le_iff_toNat_le.1 hc.1
  have hhigh : c.toNat ≤ 57 := UInt32.le_iff_toNat_le.1 hc.2
  have hn := h ⟨c.toNat - 48, by omega⟩
  rwa [Nat.add_sub_cancel' hlow, Char.ofNat_toNat] at hn

theorem digitValue?_of_isDigit (h : c.isDigit = true) : digitValue? c = some (c.toNat - 48) :=
  forall_isDigit (motive := fun c => digitValue? c = some (c.toNat - 48)) (by decide +kernel) h

end UploadDepot.Text

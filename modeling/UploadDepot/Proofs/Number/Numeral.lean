/-
Whole numbers in the digits of ASCII: what is read is the number that the text
denotes, unless there are more digits than a number may have (`readInt_decimal`).
A text with a character that no number is written with is never read
(`readInt_of_mem`).
-/
import Mathlib.Data.Nat.Digits.Defs
import UploadDepot.Number.Numeral
import UploadDepot.Proofs.Text

namespace UploadDepot.Numeral

variable {text : String} {cs : List Char} {c : Char}

/-- A text of digits from `0` to `9`, one at least. -/
def IsDecimal (text : String) : Prop := text ≠ "" ∧ ∀ c ∈ text.toList, c.isDigit = true

instance : Decidable (IsDecimal text) := inferInstanceAs (Decidable (_ ∧ _))

/-- The number that such a text denotes. -/
def decimal (text : String) : Nat := Nat.ofDigits 10 (text.toList.reverse.map fun c => c.toNat - 48)

/-! ## Digits -/

theorem value_eq_ofDigits (ds : List Nat) : value ds = Nat.ofDigits 10 ds.reverse := by
  rw [value, Nat.ofDigits_eq_foldr, List.foldr_reverse]
  congr 1
  funext n d
  rw [Nat.mul_comm, Nat.add_comm]
  rfl

theorem digits?_of_isDigit (h : ∀ c ∈ cs, c.isDigit = true) :
    digits? true cs = some (cs.map fun c => c.toNat - 48) := by
  induction cs with
  | nil => rfl
  | cons c cs ih =>
    have hc := h c List.mem_cons_self
    have hline : c ≠ '_' := by
      rintro rfl
      cases hc
    rw [digits?, if_neg hline, Text.digitValue?_of_isDigit hc]
    dsimp only
    rw [ih fun c hc => h c (List.mem_cons_of_mem _ hc)]
    rfl

/-- Between the first digits and the later ones a low line is all the difference. -/
theorem digits?_false (hc : c ≠ '_') : digits? false (c :: cs) = digits? true (c :: cs) := by
  rw [digits?, digits?, if_neg hc, if_neg hc]

theorem digits?_eq_none {afterDigit : Bool} (hc : c ∈ cs) (hvalue : Text.digitValue? c = none)
    (hline : c ≠ '_') : digits? afterDigit cs = none := by
  induction cs generalizing afterDigit with
  | nil => cases hc
  | cons d cs ih =>
    rw [digits?]
    rcases List.mem_cons.1 hc with rfl | hc
    · rw [if_neg hline, hvalue]
    split
    · split
      · exact ih hc
      · rfl
    · split
      · rw [ih hc]
        rfl
      · rfl

/-! ## Whole numbers -/

theorem sign_of_ne (hminus : ∀ c ∈ cs.head?, c ≠ '-') (hplus : ∀ c ∈ cs.head?, c ≠ '+') :
    sign cs = (false, cs) := by
  unfold sign
  split
  · exact absurd rfl (hminus '-' rfl)
  · exact absurd rfl (hplus '+' rfl)
  · rfl

/-- **A text of digits is read as the number that it denotes**, unless it has too many of them. -/
theorem readInt_decimal (h : IsDecimal text) :
    readInt text =
      if digitLimit < text.length then .error (.tooLong text.length) else .ok (decimal text) := by
  obtain ⟨hne, hdigits⟩ := h
  have hpadding : ∀ c ∈ text.toList, isPadding c = false := fun c hc =>
    Text.forall_isDigit (motive := fun c => isPadding c = false) (by decide +kernel) (hdigits c hc)
  have hsigns : ∀ c ∈ text.toList, c ≠ '-' ∧ c ≠ '+' ∧ c ≠ '_' := fun c hc =>
    Text.forall_isDigit (motive := fun c => c ≠ '-' ∧ c ≠ '+' ∧ c ≠ '_') (by decide +kernel) (hdigits c hc)
  have hread : digits? false text.toList = some (text.toList.map fun c => c.toNat - 48) := by
    rw [← digits?_of_isDigit hdigits]
    cases hcs : text.toList with
    | nil => exact absurd (String.toList_eq_nil_iff.1 hcs) hne
    | cons c cs => exact digits?_false (hsigns c (hcs ▸ List.mem_cons_self)).2.2
  rw [readInt, Text.trim_eq_self (fun c hc => hpadding c (List.mem_of_head? hc))
    fun c hc => hpadding c (List.mem_of_getLast? hc)]
  rw [sign_of_ne (fun c hc => (hsigns c (List.mem_of_head? hc)).1)
    fun c hc => (hsigns c (List.mem_of_head? hc)).2.1]
  dsimp only
  rw [hread]
  dsimp only
  rw [List.length_map, String.length_toList, value_eq_ofDigits, ← List.map_reverse]
  rfl

theorem mem_sign (hc : c ∈ cs) (hminus : c ≠ '-') (hplus : c ≠ '+') : c ∈ (sign cs).2 := by
  unfold sign
  split
  · exact List.mem_of_ne_of_mem hminus hc
  · exact List.mem_of_ne_of_mem hplus hc
  · exact hc

/-- **A character that is no digit**, and none of the others that may stand in a whole number, makes a
text unreadable. -/
theorem readInt_of_mem (hc : c ∈ text.toList) (hvalue : Text.digitValue? c = none)
    (hpadding : isPadding c = false) (hminus : c ≠ '-') (hplus : c ≠ '+') (hline : c ≠ '_') :
    readInt text = .error .malformed := by
  have hmem : c ∈ (sign (Text.trim isPadding text.toList)).2 :=
    mem_sign (Text.mem_trim hc hpadding) hminus hplus
  rw [readInt]
  dsimp only
  rw [digits?_eq_none hmem hvalue hline]

end UploadDepot.Numeral

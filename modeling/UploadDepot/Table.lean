/-
Finite tables as lists of key and value, in the order in which the keys
came. Every key occurs once as long as a table is made by `set` and `erase`.
-/

namespace UploadDepot

/-- A finite table. -/
abbrev Table (κ α : Type) := List (κ × α)

namespace Table

variable {κ α : Type} [DecidableEq κ]

/-- The value under a key. -/
def get? : Table κ α → κ → Option α
  | [], _ => none
  | (k, v) :: t, key => if k = key then some v else get? t key

/-- Puts a value under a key: in the place of the value there, or else at the end. -/
def set : Table κ α → κ → α → Table κ α
  | [], key, value => [(key, value)]
  | (k, v) :: t, key, value => if k = key then (k, value) :: t else (k, v) :: set t key value

/-- Takes a key out. -/
def erase (t : Table κ α) (key : κ) : Table κ α := t.filter fun p => p.1 ≠ key

/-- Whether there is a value under a key. -/
def has (t : Table κ α) (key : κ) : Bool := (t.get? key).isSome

theorem get?_set_self (t : Table κ α) (key : κ) (value : α) :
    (t.set key value).get? key = some value := by
  induction t with
  | nil => simp [set, get?]
  | cons p t ih =>
    obtain ⟨k, v⟩ := p
    by_cases h : k = key
    · simp [set, get?, h]
    · simp [set, get?, h, ih]

theorem get?_set_other (t : Table κ α) {key other : κ} (value : α) (h : other ≠ key) :
    (t.set key value).get? other = t.get? other := by
  induction t with
  | nil => simp [set, get?, Ne.symm h]
  | cons p t ih =>
    obtain ⟨k, v⟩ := p
    by_cases hk : k = key
    · subst hk
      simp [set, get?, Ne.symm h]
    · by_cases ho : k = other
      · subst ho
        simp [set, get?, h]
      · simp [set, get?, hk, ho, ih]

theorem get?_erase_self (t : Table κ α) (key : κ) : (t.erase key).get? key = none := by
  induction t with
  | nil => rfl
  | cons p t ih =>
    obtain ⟨k, v⟩ := p
    simp only [erase] at ih ⊢
    by_cases h : k = key
    · simpa [h] using ih
    · simpa [h, get?] using ih

theorem get?_erase_other (t : Table κ α) {key other : κ} (h : other ≠ key) :
    (t.erase key).get? other = t.get? other := by
  induction t with
  | nil => rfl
  | cons p t ih =>
    obtain ⟨k, v⟩ := p
    simp only [erase] at ih ⊢
    by_cases hk : k = key
    · subst hk
      simpa [get?, Ne.symm h] using ih
    · by_cases ho : k = other
      · subst ho
        simp [h, get?]
      · simpa [hk, get?, ho] using ih

end Table

/-- Adds to a counter; a counter that is not in the table stands at zero. -/
def Table.add {κ : Type} [DecidableEq κ] (t : Table κ Nat) (key : κ) (n : Nat) : Table κ Nat :=
  t.set key ((t.get? key).getD 0 + n)

theorem Table.getD_add {κ : Type} [DecidableEq κ] (t : Table κ Nat) (key other : κ) (n : Nat) :
    ((t.add key n).get? other).getD 0 = (t.get? other).getD 0 + if other = key then n else 0 := by
  rw [Table.add]
  by_cases h : other = key
  · rw [if_pos h, h, Table.get?_set_self, Option.getD_some]
  · rw [if_neg h, Table.get?_set_other _ _ h, Nat.add_zero]

end UploadDepot

/-
Bytes as characters of Latin-1, finding bytes in bytes, where the position
that is found is that of the first occurrence, and cutting bytes into pieces.
-/
import UploadDepot.Bytes

namespace UploadDepot.Bytes

/-! ## Characters -/

/-- What holds of the bytes of all numbers below 256 holds of all bytes. -/
theorem forall_byte {P : UInt8 → Prop} (h : ∀ n : Fin 256, P (UInt8.ofFin n)) (b : UInt8) : P b :=
  h b.toFin

theorem ofLatin1Char?_ofNat (b : UInt8) : ofLatin1Char? (Char.ofNat b.toNat) = some b := by
  revert b
  apply forall_byte
  decide +kernel

/-- Every byte string can be read in Latin-1, and written again. -/
theorem ofLatin1?_latin1 (bs : Bytes) : ofLatin1? (latin1 bs) = some bs := by
  induction bs with
  | nil => rfl
  | cons b bs ih =>
    simp only [latin1, ofLatin1?] at ih
    simp [latin1, ofLatin1?, ofLatin1Char?_ofNat, ih]

theorem latin1_append (a b : Bytes) : latin1 (a ++ b) = latin1 a ++ latin1 b := List.map_append

/-! ## Positions -/

variable {needle bs : Bytes}

theorem indexFrom_some {start n : Nat} (h : indexFrom needle start bs = some n) :
    ∃ before after, bs = before ++ needle ++ after ∧ n = start + before.length ∧
      ∀ first last, before = first ++ last → last ≠ [] → ¬ needle <+: last ++ needle ++ after := by
  induction bs generalizing start with
  | nil =>
    unfold indexFrom at h
    split at h
    · rename_i hempty
      cases h
      rw [List.isEmpty_iff.1 hempty]
      refine ⟨[], [], rfl, rfl, fun first last hlast hne => ?_⟩
      exact absurd (List.append_eq_nil_iff.1 hlast.symm).2 hne
    · cases h
  | cons b bs ih =>
    unfold indexFrom at h
    split at h
    · rename_i hpre
      cases h
      obtain ⟨after, hafter⟩ := List.isPrefixOf_iff_prefix.1 hpre
      refine ⟨[], after, hafter.symm, rfl, fun first last hlast hne => ?_⟩
      exact absurd (List.append_eq_nil_iff.1 hlast.symm).2 hne
    · rename_i hpre
      obtain ⟨before, after, rfl, rfl, hfirst⟩ := ih h
      refine ⟨b :: before, after, rfl, by simp; omega, fun first last hlast hne => ?_⟩
      cases first with
      | nil =>
        rw [List.nil_append] at hlast
        subst hlast
        exact fun hp => hpre (List.isPrefixOf_iff_prefix.2 hp)
      | cons a first => exact hfirst first last (List.cons.inj hlast).2 hne

theorem indexFrom_none {start : Nat} (h : indexFrom needle start bs = none) : ¬ needle <:+: bs := by
  induction bs generalizing start with
  | nil =>
    unfold indexFrom at h
    split at h
    · cases h
    · rename_i hne
      rw [List.infix_nil]
      exact fun he => hne (List.isEmpty_iff.2 he)
  | cons b bs ih =>
    unfold indexFrom at h
    split at h
    · cases h
    · rename_i hpre
      rw [List.infix_cons_iff, not_or]
      exact ⟨fun hp => hpre (List.isPrefixOf_iff_prefix.2 hp), ih h⟩

/-- The first occurrence: nothing before it holds the whole needle. -/
theorem indexOf?_some {n : Nat} (h : indexOf? needle bs = some n) (hne : needle ≠ []) :
    bs.drop n = needle ++ bs.drop (n + needle.length) ∧ n + needle.length ≤ bs.length ∧
      ¬ needle <:+: bs.take n := by
  obtain ⟨before, after, rfl, rfl, hfirst⟩ := indexFrom_some h
  rw [Nat.zero_add]
  refine ⟨by simp, by simp, ?_⟩
  rw [List.append_assoc, List.take_left]
  rintro ⟨first, last, hbefore⟩
  refine hfirst first (needle ++ last) (by rw [← hbefore, List.append_assoc]) (by simp [hne]) ?_
  rw [List.append_assoc, List.append_assoc]
  exact List.prefix_append _ _

theorem indexOf?_none (h : indexOf? needle bs = none) : ¬ needle <:+: bs := indexFrom_none h

/-! ## Pieces -/

variable {size k : Nat}

theorem piecesOnto_eq (size : Nat) (cut : List Bytes) (bs : Bytes) :
    piecesOnto size cut bs = cut.reverse ++ pieces size bs := by
  by_cases hbs : bs = []
  · subst hbs
    simp [pieces, piecesOnto]
  · have hcut (cut : List Bytes) : piecesOnto size cut bs =
        piecesOnto size (bs.take (max size 1) :: cut) (bs.drop (max size 1)) := by
      rw [piecesOnto, if_neg hbs]
    have hrest (cut : List Bytes) := piecesOnto_eq size cut (bs.drop (max size 1))
    rw [pieces, hcut, hcut, hrest, hrest]
    simp
termination_by bs.length
decreasing_by
  have := List.length_pos_iff.2 hbs
  rw [List.length_drop]
  omega

theorem pieces_nil (size : Nat) : pieces size [] = [] := by
  rw [pieces, piecesOnto, if_pos rfl, List.reverse_nil]

theorem pieces_of_ne_nil (hsize : 0 < size) {bs : Bytes} (hbs : bs ≠ []) :
    pieces size bs = bs.take size :: pieces size (bs.drop size) := by
  rw [pieces, piecesOnto, if_neg hbs, piecesOnto_eq, Nat.max_eq_left hsize]
  rfl

/-- The first pieces are the first bytes. -/
theorem flatten_take_pieces (hsize : 0 < size) (k : Nat) (bs : Bytes) :
    ((pieces size bs).take k).flatten = bs.take (k * size) := by
  induction k generalizing bs with
  | zero => simp
  | succ k ih =>
    by_cases hbs : bs = []
    · simp [hbs, pieces_nil]
    · rw [pieces_of_ne_nil hsize hbs, List.take_succ_cons, List.flatten_cons, ih, Nat.succ_mul,
        Nat.add_comm, List.take_add]

/-- There are as many pieces as begin before the end. -/
theorem lt_length_pieces (hsize : 0 < size) {bs : Bytes} :
    k < (pieces size bs).length ↔ k * size < bs.length := by
  induction k generalizing bs with
  | zero =>
    by_cases hbs : bs = []
    · simp [hbs, pieces_nil]
    · simp [pieces_of_ne_nil hsize hbs, List.length_pos_iff.2 hbs]
  | succ k ih =>
    by_cases hbs : bs = []
    · simp [hbs, pieces_nil]
    · rw [pieces_of_ne_nil hsize hbs, List.length_cons, Nat.succ_lt_succ_iff, ih, List.length_drop,
        Nat.succ_mul]
      omega

theorem length_le_pieces (hsize : 0 < size) (bs : Bytes) : bs.length ≤ (pieces size bs).length * size :=
  Nat.not_lt.1 ((not_congr (lt_length_pieces hsize)).1 (Nat.lt_irrefl _))

theorem flatten_pieces (hsize : 0 < size) (bs : Bytes) : (pieces size bs).flatten = bs := by
  have hall := flatten_take_pieces hsize (pieces size bs).length bs
  rwa [List.take_length, List.take_of_length_le (length_le_pieces hsize bs)] at hall

theorem nil_notMem_pieces (hsize : 0 < size) (bs : Bytes) : [] ∉ pieces size bs := by
  by_cases hbs : bs = []
  · simp [hbs, pieces_nil]
  · have hfirst : bs.take size ≠ [] := by
      simp [hbs, Nat.ne_of_gt hsize]
    rw [pieces_of_ne_nil hsize hbs, List.mem_cons, not_or]
    exact ⟨hfirst.symm, nil_notMem_pieces hsize _⟩
termination_by bs.length
decreasing_by
  have := List.length_pos_iff.2 hbs
  rw [List.length_drop]
  omega

end UploadDepot.Bytes

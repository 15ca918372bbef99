/-
Plain names: what a path can be joined with to lead one step down.
-/
import UploadDepot.Files.Path
import UploadDepot.Proofs.Text

namespace UploadDepot.Files

/-- A name that is one part of a path, and leads down. -/
structure Plain (name : String) : Prop where
  nonempty : name ≠ ""
  here : name ≠ "."
  up : name ≠ ".."
  slash : '/' ∉ name.toList
  nul : Char.ofNat 0 ∉ name.toList

namespace Path

theorem ofText_plain {name : String} (h : Plain name) : ofText name = { anchor := "", parts := [name] } := by
  have hparts : partsOf name.toList = [name] := by
    rw [partsOf, Text.partsAt_of_not_mem h.slash, List.map_singleton, String.ofList_toList]
    simp [h.nonempty, h.here]
  have hanchor : anchorOf name.toList = "" := by
    have : name.toList.takeWhile (· == '/') = [] := by
      cases hcs : name.toList with
      | nil => rfl
      | cons c cs =>
        have hc : c ≠ '/' := fun he => h.slash (by rw [hcs, he]; exact List.mem_cons_self)
        rw [List.takeWhile_cons, if_neg (by simpa using hc)]
    rw [anchorOf, this]
    rfl
  rw [ofText, hparts, hanchor]

/-- A plain name is one part more. -/
theorem join_plain (base : Path) {name : String} (h : Plain name) :
    base.join name = { base with parts := base.parts ++ [name] } := by
  simp only [join, ofText_plain h, if_true]

theorem hasNul_join (base : Path) {name : String} (h : Plain name) :
    (base.join name).hasNul = base.hasNul := by
  have hnul : name.toList.contains (Char.ofNat 0) = false := by
    rw [List.contains_eq_mem, decide_eq_false_iff_not]
    exact h.nul
  simp only [join_plain base h, hasNul, List.any_append, List.any_cons, List.any_nil, hnul,
    Bool.or_false]

end Path

end UploadDepot.Files

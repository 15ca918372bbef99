/-
Tables that hold every key once: what `set` and filters leave of that, and
what a lookup finds after the values have been changed one by one.
-/
import UploadDepot.Table

namespace UploadDepot.Table

variable {κ α : Type}

/-- Every key occurs once. -/
def Distinct (t : Table κ α) : Prop := (t.map Prod.fst).Nodup

theorem Distinct.nil : Distinct ([] : Table κ α) := List.nodup_nil

theorem Distinct.sublist {t t' : Table κ α} (h : Distinct t) (hs : t'.Sublist t) : Distinct t' :=
  List.Nodup.sublist (hs.map _) h

/-- Changing values, but not keys, keeps the keys distinct. -/
theorem Distinct.mapValues {t : Table κ α} {f : κ × α → κ × α} (hf : ∀ p, (f p).1 = p.1)
    (h : Distinct t) : Distinct (t.map f) := by
  have : (t.map f).map Prod.fst = t.map Prod.fst := by
    rw [List.map_map]
    exact List.map_congr_left fun p _ => hf p
  rw [Distinct, this]
  exact h

variable [DecidableEq κ]

theorem get?_eq_none {t : Table κ α} {key : κ} (h : key ∉ t.map Prod.fst) : t.get? key = none := by
  induction t with
  | nil => rfl
  | cons p t ih =>
    obtain ⟨k, v⟩ := p
    simp only [List.map_cons, List.mem_cons, not_or] at h
    rw [get?, if_neg (Ne.symm h.1)]
    exact ih h.2

theorem isSome_get? {t : Table κ α} {key : κ} : (t.get? key).isSome ↔ key ∈ t.map Prod.fst := by
  induction t with
  | nil => simp [get?]
  | cons p t ih =>
    obtain ⟨k, v⟩ := p
    by_cases hk : k = key
    · simp [get?, hk]
    · simp [get?, hk, Ne.symm hk, ih]

theorem mem_of_get? {t : Table κ α} {key : κ} {v : α} (h : t.get? key = some v) : (key, v) ∈ t := by
  induction t with
  | nil => cases h
  | cons p t ih =>
    obtain ⟨k, w⟩ := p
    by_cases hk : k = key
    · rw [get?, if_pos hk] at h
      cases h
      exact hk ▸ List.mem_cons_self
    · rw [get?, if_neg hk] at h
      exact List.mem_cons_of_mem _ (ih h)

/-- A lookup finds every entry. -/
theorem Distinct.get?_of_mem {t : Table κ α} (h : Distinct t) {key : κ} {v : α} (hm : (key, v) ∈ t) :
    t.get? key = some v := by
  induction t with
  | nil => cases hm
  | cons p t ih =>
    obtain ⟨k, w⟩ := p
    rw [Distinct, List.map_cons, List.nodup_cons] at h
    rcases List.mem_cons.1 hm with he | ht
    · cases he
      rw [get?, if_pos rfl]
    · have hk : k ≠ key := by
        rintro rfl
        exact h.1 (List.mem_map.2 ⟨(k, v), ht, rfl⟩)
      rw [get?, if_neg hk]
      exact ih h.2 ht

theorem mem_set {t : Table κ α} {key : κ} {v : α} {p : κ × α} (h : p ∈ t.set key v) :
    p = (key, v) ∨ p ∈ t := by
  induction t with
  | nil => exact .inl (List.mem_singleton.1 h)
  | cons q t ih =>
    obtain ⟨k, w⟩ := q
    by_cases hk : k = key
    · rw [set, if_pos hk] at h
      rcases List.mem_cons.1 h with he | ht
      · exact .inl (hk ▸ he)
      · exact .inr (List.mem_cons_of_mem _ ht)
    · rw [set, if_neg hk] at h
      rcases List.mem_cons.1 h with he | ht
      · exact .inr (he ▸ List.mem_cons_self)
      · exact (ih ht).imp_right (List.mem_cons_of_mem _)

/-- Of the values that are put in one after the other under a key, the last one is found. -/
theorem get?_foldl_set {β : Type} (key : β → κ) (value : β → α) (l : List β) (t : Table κ α) (k : κ) :
    Table.get? (l.foldl (fun t b => t.set (key b) (value b)) t) k =
      ((l.filter (key · = k)).map value).getLast?.or (t.get? k) := by
  induction l generalizing t with
  | nil => rfl
  | cons b l ih =>
    rw [List.foldl_cons, ih]
    by_cases hk : key b = k
    · rw [← hk, Table.get?_set_self, List.filter_cons_of_pos (by simp), List.map_cons,
        List.getLast?_cons]
      cases List.getLast? _ <;> rfl
    · rw [Table.get?_set_other _ _ (Ne.symm hk), List.filter_cons_of_neg (by simpa using hk)]

/-- A new key comes at the end. -/
theorem set_of_not_mem (t : Table κ α) {key : κ} (h : key ∉ t.map Prod.fst) (v : α) :
    t.set key v = t ++ [(key, v)] := by
  induction t with
  | nil => rfl
  | cons p t ih =>
    obtain ⟨k, w⟩ := p
    simp only [List.map_cons, List.mem_cons, not_or] at h
    rw [set, if_neg (Ne.symm h.1), ih h.2, List.cons_append]

theorem Distinct.set {t : Table κ α} (h : Distinct t) (key : κ) (v : α) :
    Distinct (t.set key v) := by
  induction t with
  | nil => simp [Table.set, Distinct]
  | cons p t ih =>
    obtain ⟨k, w⟩ := p
    rw [Distinct, List.map_cons, List.nodup_cons] at h
    by_cases hk : k = key
    · rw [Table.set, if_pos hk]
      exact List.nodup_cons.2 h
    · rw [Table.set, if_neg hk, Distinct, List.map_cons, List.nodup_cons]
      refine ⟨fun hm => ?_, ih h.2⟩
      obtain ⟨q, hq, rfl⟩ := List.mem_map.1 hm
      rcases mem_set hq with rfl | hq
      · exact hk rfl
      · exact h.1 (List.mem_map.2 ⟨q, hq, rfl⟩)

/-- After the values have been changed one by one and some entries dropped, a key leads to its
changed value, unless its entry was dropped. -/
theorem get?_filter_map {t : Table κ α} (hd : t.Distinct) (f : κ → α → α) (keep : α → Bool)
    (key : κ) :
    Table.get? ((t.map fun (k, v) => (k, f k v)).filter fun (_, v) => keep v) key =
      ((t.get? key).map (f key)).filter keep := by
  induction t with
  | nil => rfl
  | cons p t ih =>
    obtain ⟨k, v⟩ := p
    have hd' := hd
    rw [Distinct, List.map_cons, List.nodup_cons] at hd'
    have ih := ih hd'.2
    rw [List.map_cons, List.filter_cons]
    by_cases hk : k = key
    · subst hk
      cases hkeep : keep (f k v) with
      | true => simp [get?, Option.filter, hkeep]
      | false =>
        have hnone : Table.get? t k = none := get?_eq_none hd'.1
        simpa [get?, Option.filter, hkeep, hnone] using ih
    · cases hkeep : keep (f k v) with
      | true => simpa [get?, hkeep, hk] using ih
      | false => simpa [get?, hkeep, hk] using ih

end UploadDepot.Table

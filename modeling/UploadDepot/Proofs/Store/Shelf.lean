/-
What stores have in common.

A store keeps objects at homes in a world: files at places of a disk, or
entries of a bucket. Whatever happens in between, a commit of data adds
nothing but these data at the home of their digest (`Grows`), and in the end
it has created that object, has found it there, or has failed and left all
as it was (`Commits`). A `Shelf` is a store with the proof of that.
-/
import UploadDepot.Proofs.Dialogue
import UploadDepot.Store.Basic
import UploadDepot.Digest.Sha256

namespace UploadDepot.Store

variable {Q : Type} {A : Q → Type} {σ κ ε : Type}

/-- The objects of a state are still there, and every new one is at the home of its digest and
among those that were to be stored. -/
def Grows (objects : σ → κ → Option Bytes) (home : String → κ) (stored : Bytes → Prop)
    (s s' : σ) : Prop :=
  ∀ k, objects s' k = objects s k ∨
    (objects s k = none ∧
      ∃ data, objects s' k = some data ∧ k = home (Sha256.hexOf data) ∧ stored data)

namespace Grows

variable {objects : σ → κ → Option Bytes} {home : String → κ} {stored : Bytes → Prop} {s s' s'' : σ}

theorem same (h : objects s' = objects s) : Grows objects home stored s s' :=
  fun k => .inl (congrFun h k)

theorem refl (s : σ) : Grows objects home stored s s := same rfl

theorem trans (h : Grows objects home stored s s') (h' : Grows objects home stored s' s'') :
    Grows objects home stored s s'' := by
  intro k
  rcases h' k with hsame | ⟨hnone, hnew⟩
  · rw [hsame]
    exact h k
  · rcases h k with hsame | ⟨_, data, hsome, _⟩
    · exact .inr ⟨hsame ▸ hnone, hnew⟩
    · rw [hsome] at hnone
      cases hnone

theorem imp {stored' : Bytes → Prop} (h : Grows objects home stored s s')
    (himp : ∀ data, stored data → stored' data) : Grows objects home stored' s s' := by
  intro k
  refine (h k).imp_right ?_
  rintro ⟨hnone, data, hsome, hhome, hstored⟩
  exact ⟨hnone, data, hsome, hhome, himp data hstored⟩

/-- An object that is there stays. -/
theorem keeps (h : Grows objects home stored s s') {k : κ} {data : Bytes}
    (hk : objects s k = some data) : objects s' k = some data := by
  rcases h k with hsame | ⟨hnone, _⟩
  · rw [hsame, hk]
  · rw [hk] at hnone
    cases hnone

/-- What was not there before is in its own place. -/
theorem integrity (h : Grows objects home stored s s') (hempty : ∀ k, objects s k = none) {k : κ}
    {data : Bytes} (hk : objects s' k = some data) : k = home (Sha256.hexOf data) ∧ stored data := by
  rcases h k with hsame | ⟨_, data', hsome, hhome, hstored⟩
  · rw [hsame, hempty k] at hk
    cases hk
  · rw [hk] at hsome
    cases hsome
    exact ⟨hhome, hstored⟩

end Grows

/-- What a commit of data to a home can come to, given the objects before and after it. -/
inductive Commits (before after : κ → Option Bytes) (home : κ) (data : Bytes) :
    Except ε Bool → Prop
  | created : before home = none → after home = some data →
      (∀ k, k ≠ home → after k = before k) → Commits before after home data (.ok true)
  | present {old : Bytes} : before home = some old → after = before →
      Commits before after home data (.ok false)
  | failed {fault : ε} : after = before → Commits before after home data (.error fault)

namespace Commits

variable {before after : κ → Option Bytes} {home : κ} {data : Bytes}

/-- After a commit that did not fail, there is an object. -/
theorem isSome {created : Bool} (h : Commits before after home data (.ok created : Except ε Bool)) :
    (after home).isSome = true := by
  cases h with
  | created _ hafter _ => rw [hafter, Option.isSome_some]
  | present hold hsame => rw [hsame, hold, Option.isSome_some]

/-- A commit creates its object if, and only if, there was none. -/
theorem created_iff {created : Bool}
    (h : Commits before after home data (.ok created : Except ε Bool)) :
    created = true ↔ before home = none := by
  cases h with
  | created hnone _ _ => exact ⟨fun _ => hnone, fun _ => rfl⟩
  | present hold _ => exact ⟨nofun, fun hnone => by rw [hold] at hnone; cases hnone⟩

/-- Other homes are left alone. -/
theorem other {value : Except ε Bool} (h : Commits before after home data value) {k : κ}
    (hk : k ≠ home) : after k = before k := by
  cases h with
  | created _ _ hothers => exact hothers k hk
  | present _ hsame => rw [hsame]
  | failed hsame => rw [hsame]

theorem error {ε' : Type} {fault : ε} {fault' : ε'}
    (h : Commits before after home data (.error fault : Except ε Bool)) :
    Commits before after home data (.error fault' : Except ε' Bool) := by
  cases h with
  | failed hsame => exact .failed hsame

theorem ok {ε' : Type} {created : Bool}
    (h : Commits before after home data (.ok created : Except ε Bool)) :
    Commits before after home data (.ok created : Except ε' Bool) := by
  cases h with
  | created hnone hafter hothers => exact .created hnone hafter hothers
  | present hold hsame => exact .present hold hsame

end Commits

/-- A store in a world, the homes of its objects, and what its commits come to. -/
structure Shelf (Q : Type) (A : Q → Type) (σ κ : Type) where
  store : UploadDepot.Store Q A
  world : World Q A σ
  objects : σ → κ → Option Bytes
  home : String → κ
  home_injective : ∀ {digest digest' : String}, home digest = home digest' → digest = digest'
  /-- No commit is under way. -/
  Ready : σ → Prop
  commits : ∀ {s : σ}, Ready s → ∀ (mime : String) (spool : Spool) (size : Int),
    (store.commit (Sha256.hexOf spool.content) mime spool size).Always world
      (Grows objects home (· = spool.content))
      (fun committed s' => Ready s' ∧
        Commits (objects s) (objects s') (home (Sha256.hexOf spool.content)) spool.content
          committed.value) s

end UploadDepot.Store

/-
Texts of hexadecimal digits, in small letters. A digest is one, of sixty-four
digits; so are the first two of them, which name its directory.
-/
import UploadDepot.Digest.Sha256
import UploadDepot.Proofs.Files.Path
import UploadDepot.Http.Route

namespace UploadDepot

open Sha256

/-- Whether a character is a hexadecimal digit, in small letters. -/
def isHexChar (c : Char) : Bool := c.isDigit || ('a' ≤ c && c ≤ 'f')

/-- A text of so many hexadecimal digits. -/
structure IsHex (size : Nat) (text : String) : Prop where
  length : text.toList.length = size
  chars : ∀ c ∈ text.toList, isHexChar c = true

theorem isHexChar_hexDigit {n : Nat} (h : n < 16) : isHexChar (Bytes.hexDigit n) = true := by
  have hall : ∀ k : Fin 16, isHexChar (Bytes.hexDigit k) = true := by decide
  exact hall ⟨n, h⟩

theorem isHex_hex (bs : Bytes) : IsHex (2 * bs.length) (Bytes.hex bs) := by
  constructor
  · rw [Bytes.hex, String.toList_ofList]
    induction bs with
    | nil => rfl
    | cons b bs ih =>
      rw [List.flatMap_cons, List.length_append, ih, List.length_cons]
      simp only [List.length_cons, List.length_nil]
      omega
  · intro c hc
    rw [Bytes.hex, String.toList_ofList, List.mem_flatMap] at hc
    obtain ⟨b, _, hc⟩ := hc
    have hb := b.toNat_lt
    simp only [List.mem_cons, List.not_mem_nil, or_false] at hc
    rcases hc with rfl | rfl
    · exact isHexChar_hexDigit (by omega)
    · exact isHexChar_hexDigit (by omega)

theorem Sha256.Hasher.length_digest (s : Hasher) : s.digest.length = 32 := by
  simp only [digest, List.flatMap_cons, List.flatMap_nil, List.length_append, wordBytes,
    List.length_cons, List.length_nil]

theorem isHex_hexOf (bs : Bytes) : IsHex 64 (hexOf bs) := by
  have h := isHex_hex (({} : Hasher).update bs).digest
  rw [Hasher.length_digest] at h
  exact h

theorem isDigest_iff (text : String) : Http.Route.isDigest text = true ↔ IsHex 64 text := by
  rw [Http.Route.isDigest, Bool.and_eq_true, decide_eq_true_iff, List.all_eq_true]
  exact ⟨fun h => ⟨h.1, h.2⟩, fun h => ⟨h.length, h.chars⟩⟩

namespace IsHex

variable {size : Nat} {text : String}

theorem take (h : IsHex size text) (n : Nat) :
    IsHex (min n size) (String.ofList (text.toList.take n)) := by
  constructor
  · rw [String.toList_ofList, List.length_take, h.length]
  · rw [String.toList_ofList]
    exact fun c hc => h.chars c (List.mem_of_mem_take hc)

theorem not_mem (h : IsHex size text) {c : Char} (hc : isHexChar c = false) : c ∉ text.toList := by
    intro hm
    rw [h.chars c hm] at hc
    cases hc

theorem ne (h : IsHex size text) {other : String} (hc : other.toList.any (fun c => !isHexChar c) = true) :
    text ≠ other := by
  rintro rfl
  obtain ⟨c, hm, hc⟩ := List.any_eq_true.1 hc
  rw [h.chars c hm] at hc
  cases hc

theorem plain (h : IsHex size text) (hsize : 0 < size) : Files.Plain text := by
  refine ⟨?_, h.ne (by decide), h.ne (by decide), h.not_mem (by decide), h.not_mem (by decide)⟩
  rintro rfl
  rw [← h.length] at hsize
  exact absurd hsize (by decide)

/-- Every digit is one byte. -/
theorem utf8ByteSize (h : IsHex size text) : text.utf8ByteSize = size := by
  have hall : ∀ cs : List Char, (∀ c ∈ cs, isHexChar c = true) →
      (String.ofList cs).utf8ByteSize = cs.length := by
    intro cs hcs
    induction cs with
    | nil => rfl
    | cons c cs ih =>
      have hc : c.utf8Size = 1 := by
        have := hcs c List.mem_cons_self
        rw [Char.utf8Size_eq_one_iff]
        simp only [isHexChar, Char.isDigit, Bool.or_eq_true, Bool.and_eq_true, decide_eq_true_iff] at this
        rcases this with ⟨_, h9⟩ | ⟨_, hf⟩
        · exact UInt32.le_trans h9 (by decide)
        · exact UInt32.le_trans hf (by decide)
      rw [String.ofList_cons, String.utf8ByteSize_append, String.utf8ByteSize_singleton, hc,
        ih fun c hc => hcs c (List.mem_cons_of_mem _ hc), List.length_cons, Nat.add_comm]
  rw [← String.ofList_toList (s := text), hall _ h.chars, h.length]

end IsHex

end UploadDepot

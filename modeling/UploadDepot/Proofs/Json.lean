/-
A text in quotation marks can be read back, whatever follows it: so two JSON
objects with the same text agree on the texts they begin with.
-/
import Mathlib.Tactic.SplitIfs
import UploadDepot.Json

namespace UploadDepot

/-! ## Bytes of a text -/

theorem byteArray_loop (bs : ByteArray) (i : Nat) (seen : List UInt8) :
    ByteArray.toList.loop bs i seen = seen.reverse ++ bs.data.toList.drop i := by
  fun_induction ByteArray.toList.loop bs i seen with
  | case1 i seen hi ih =>
    have hlen : i < bs.data.toList.length := by rwa [Array.length_toList]
    have hget : bs.get! i = bs.data.toList[i] := by
      rw [Array.getElem_toList]
      exact getElem!_pos bs.data i hi
    rw [ih, List.reverse_cons, List.append_assoc, List.drop_eq_getElem_cons hlen, hget]
    rfl
  | case2 i seen hi =>
    have hlen : bs.data.toList.length ≤ i := by
      rw [Array.length_toList]
      exact Nat.le_of_not_lt hi
    rw [List.drop_eq_nil_of_le hlen, List.append_nil]

theorem byteArray_toList (bs : ByteArray) : bs.toList = bs.data.toList := byteArray_loop bs 0 []

theorem ofText_injective {s s' : String} (h : Bytes.ofText s = Bytes.ofText s') : s = s' := by
  rw [Bytes.ofText, Bytes.ofText, byteArray_toList, byteArray_toList, String.toUTF8_eq_toByteArray,
    String.toUTF8_eq_toByteArray] at h
  exact String.toByteArray_inj.1 (ByteArray.ext (Array.toList_inj.1 h))

namespace Json

/-! ## Reading back -/

/-- The value of a hexadecimal digit in small letters. -/
def digitValue (c : Char) : Nat := if c.isDigit then c.toNat - 48 else c.toNat - 87

/-- The character at the beginning of an escaped text, and the rest. -/
def readChar : List Char → Char × List Char
  | '\\' :: 'n' :: cs => ('\n', cs)
  | '\\' :: 'r' :: cs => ('\r', cs)
  | '\\' :: 't' :: cs => ('\t', cs)
  | '\\' :: 'b' :: cs => ('\x08', cs)
  | '\\' :: 'f' :: cs => ('\x0c', cs)
  | '\\' :: 'u' :: _ :: _ :: a :: b :: cs => (Char.ofNat (16 * digitValue a + digitValue b), cs)
  | '\\' :: c :: cs => (c, cs)
  | c :: cs => (c, cs)
  | [] => ('"', [])

theorem readChar_escape (c : Char) (rest : List Char) : readChar (escape c ++ rest) = (c, rest) := by
  have hcontrol : ∀ n : Fin 32, Char.ofNat
      (16 * digitValue (Bytes.hexDigit (n / 16)) + digitValue (Bytes.hexDigit (n % 16))) =
        Char.ofNat n := by decide
  unfold escape
  split_ifs with h1 h2 h3 h4 h5 h6 h7 h8
  · rw [h1]; rfl
  · rw [h2]; rfl
  · rw [h3]; rfl
  · rw [h4]; rfl
  · rw [h5]; rfl
  · rw [h6]; rfl
  · rw [h7]; rfl
  · have := hcontrol ⟨c.toNat, h8⟩
    rw [Char.ofNat_toNat] at this
    exact congrArg (·, rest) this
  · rw [List.singleton_append, readChar.eq_def]
    split <;> simp_all

theorem escape_ne (c : Char) (rest tail : List Char) : escape c ++ rest ≠ '"' :: tail := by
  intro h
  unfold escape at h
  split_ifs at h with h1 <;> simp_all

/-- Where an escaped text ends is seen from the text itself. -/
theorem escaped_inj {cs cs' tail tail' : List Char}
    (h : cs.flatMap escape ++ '"' :: tail = cs'.flatMap escape ++ '"' :: tail') :
    cs = cs' ∧ tail = tail' := by
  induction cs generalizing cs' with
  | nil =>
    cases cs' with
    | nil => exact ⟨rfl, (List.cons.inj h).2⟩
    | cons c cs' =>
      rw [List.flatMap_cons, List.append_assoc] at h
      exact absurd h.symm (escape_ne c _ _)
  | cons c cs ih =>
    rw [List.flatMap_cons, List.append_assoc] at h
    cases cs' with
    | nil => exact absurd h (escape_ne c _ _)
    | cons c' cs' =>
      rw [List.flatMap_cons, List.append_assoc] at h
      have hread := congrArg readChar h
      rw [readChar_escape, readChar_escape] at hread
      obtain ⟨rfl, hrest⟩ := Prod.mk.inj hread
      obtain ⟨rfl, htail⟩ := ih hrest
      exact ⟨rfl, htail⟩

theorem quoted_inj {s s' tail tail' : String} (h : quoted s ++ tail = quoted s' ++ tail') :
    s = s' ∧ tail = tail' := by
  have hlist := congrArg String.toList h
  simp only [quoted, String.toList_append, String.toList_ofList, List.append_assoc] at hlist
  have hrest := List.append_cancel_left hlist
  obtain ⟨hs, htail⟩ := escaped_inj hrest
  exact ⟨String.toList_inj.1 hs, String.toList_inj.1 htail⟩

end Json

end UploadDepot

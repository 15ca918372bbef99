/-
Byte strings, as lists, with the few operations the service needs of them:
searching for a delimiter, cutting a head, and the Latin-1 and hexadecimal
readings.
-/

namespace UploadDepot

/-- A string of bytes. -/
abbrev Bytes := List UInt8

namespace Bytes

/-- The bytes of a text in UTF-8. -/
def ofText (s : String) : Bytes := s.toUTF8.toList

/-- The text whose characters are the bytes, one character a byte (Latin-1). -/
def latin1 (bs : Bytes) : List Char := bs.map fun b => Char.ofNat b.toNat

/-- The byte a character of Latin-1 stands for; other characters have none. -/
def ofLatin1Char? (c : Char) : Option UInt8 :=
  if c.toNat < 256 then some (UInt8.ofNat c.toNat) else none

/-- The inverse of `latin1`; `none` as soon as a character is outside Latin-1. -/
def ofLatin1? (cs : List Char) : Option Bytes := cs.mapM ofLatin1Char?

/-- The position of the first occurrence of `needle`, counting from `start`. -/
def indexFrom (needle : Bytes) : Nat → Bytes → Option Nat
  | start, [] => if needle.isEmpty then some start else none
  | start, b :: bs =>
    if needle.isPrefixOf (b :: bs) then some start else indexFrom needle (start + 1) bs

/-- The position of the first occurrence of `needle`, if it occurs. -/
def indexOf? (needle bs : Bytes) : Option Nat := indexFrom needle 0 bs

/-- The head of a byte string up to a signed position: a negative one counts from the end. -/
def upTo (bs : Bytes) : Int → Bytes
  | .ofNat n => bs.take n
  | .negSucc n => bs.take (bs.length - (n + 1))

/-- A letter A to Z becomes its small letter; every other byte stays. -/
def lowerByte (b : UInt8) : UInt8 := if 0x41 ≤ b ∧ b ≤ 0x5A then b + 0x20 else b

/-- ASCII letters in small form. -/
def lower (bs : Bytes) : Bytes := bs.map lowerByte

/-- The digit of a number below sixteen. -/
def hexDigit (n : Nat) : Char :=
  if n < 10 then Char.ofNat (0x30 + n) else Char.ofNat (0x61 + (n - 10))

/-- Two hexadecimal digits a byte, small letters. -/
def hex (bs : Bytes) : String :=
  String.ofList (bs.flatMap fun b => [hexDigit (b.toNat / 16), hexDigit (b.toNat % 16)])

/-- The pieces already cut, latest first, followed by the pieces of `bs`. -/
def piecesOnto (size : Nat) (cut : List Bytes) (bs : Bytes) : List Bytes :=
  if bs = [] then cut.reverse
  else piecesOnto size (bs.take (max size 1) :: cut) (bs.drop (max size 1))
termination_by bs.length
decreasing_by
  rename_i nonempty
  have : 0 < bs.length := List.length_pos_iff.2 nonempty
  simp only [List.length_drop]
  omega

/-- Consecutive pieces of `size` bytes, the last one possibly shorter; `size` 0 counts as 1. -/
def pieces (size : Nat) (bs : Bytes) : List Bytes := piecesOnto size [] bs

end Bytes

end UploadDepot

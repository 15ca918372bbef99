/-
Small letters, for texts that are compared with words of the Latin
alphabet.
-/

namespace UploadDepot.Text

/-- The small form of a letter, for every letter whose small form lies in Latin-1: A to Z, the
accented capitals, and the four letters outside Latin-1 with a small form inside it. All other
characters stay. -/
def lowerChar (c : Char) : Char :=
  let n := c.toNat
  if 0x41 ≤ n ∧ n ≤ 0x5A then Char.ofNat (n + 0x20)
  else if 0xC0 ≤ n ∧ n ≤ 0xDE ∧ n ≠ 0xD7 then Char.ofNat (n + 0x20)
  else if n = 0x178 then Char.ofNat 0xFF
  else if n = 0x1E9E then Char.ofNat 0xDF
  else if n = 0x212A then 'k'
  else if n = 0x212B then Char.ofNat 0xE5
  else c

/-- Every letter in its small form. -/
def lower (cs : List Char) : List Char := cs.map lowerChar

/-- The text in small letters; no character outside Latin-1 has a small form spelt in ASCII but
the Kelvin sign, so words without `k` are recognised exactly. -/
def lowerString (s : String) : String := String.ofList (lower s.toList)

end UploadDepot.Text

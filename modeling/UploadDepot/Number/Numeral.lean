/-
Numbers as people and programs write them: whole numbers and doubles, with
the decimal digits of any script, blanks around, and single low lines
between digits.
-/
import UploadDepot.Number.Shortest
import UploadDepot.Text.Blank
import UploadDepot.Text.Digit

namespace UploadDepot.Numeral

/-- The blanks around a numeral: those of text, less the information separators. -/
def isPadding (c : Char) : Bool := Text.isBlank c && !(0x1C ≤ c.toNat && c.toNat ≤ 0x1F)

/-- Reads digits with single low lines between them; `afterDigit` tells whether a low line may
come next. -/
def digits? (afterDigit : Bool) : List Char → Option (List Nat)
  | [] => if afterDigit then some [] else none
  | c :: cs =>
    if c = '_' then if afterDigit then digits? false cs else none
    else
      match Text.digitValue? c with
      | some d => (digits? true cs).map (d :: ·)
      | none => none

/-- The number that decimal digits stand for. -/
def value (ds : List Nat) : Nat := ds.foldl (fun n d => n * 10 + d) 0

/-- The most digits a whole number may be written with, zeros in front included. -/
def digitLimit : Nat := 4300

/-- Why a text is not a whole number. -/
inductive IntFault where
  | malformed
  | tooLong (digits : Nat)
  deriving DecidableEq, Repr

/-- A sign in front, and the rest. -/
def sign : List Char → Bool × List Char
  | '-' :: cs => (true, cs)
  | '+' :: cs => (false, cs)
  | cs => (false, cs)

/-- Reads a whole number. -/
def readInt (s : String) : Except IntFault Int :=
  let (negative, cs) := sign (Text.trim isPadding s.toList)
  match digits? false cs with
  | none => .error .malformed
  | some ds =>
    if ds.length > digitLimit then .error (.tooLong ds.length)
    else .ok (if negative then -(value ds : Int) else value ds)

/-! ## Doubles -/

/-- Every decimal digit as the digit 0 to 9 of the same value. -/
def plainDigit (c : Char) : Char :=
  match Text.digitValue? c with
  | some d => Char.ofNat (48 + d)
  | none => c

/-- Removes the low lines; `none` if one does not stand between two digits. `last` is the character
before. -/
def joinDigits? (last : Char) : List Char → Option (List Char)
  | [] => if last = '_' then none else some []
  | c :: cs =>
    if c = '_' then if last.isDigit then joinDigits? c cs else none
    else if last = '_' ∧ c.isDigit = false then none
    else (joinDigits? c cs).map (c :: ·)

/-- The value of digits 0 to 9. -/
def plainValue (cs : List Char) : Nat := value (cs.map fun c => c.toNat - 48)

/-- Reads the part after the mantissa: nothing, or `e` and a whole number. -/
def exponentPart? : List Char → Option Int
  | [] => some 0
  | c :: cs =>
    if c = 'e' ∨ c = 'E' then
      let (negative, ds) := sign cs
      if ds = [] ∨ ds.all Char.isDigit = false then none
      else some (if negative then -(plainValue ds : Int) else plainValue ds)
    else none

/-- The double nearest to `digits * 10 ^ exponent`. Numbers of more than four hundred digits before
the point are infinite, and those with four hundred zeros after it are zero. -/
def ofDecimal (negative : Bool) (digits : Nat) (exponent : Int) : Float :=
  let size := Binary64.digitCount digits + exponent
  if digits = 0 ∨ size < -400 then Binary64.ofRatio negative 0 1
  else if size > 400 then Binary64.ofRatio negative (Binary64.pow2 1024) 1
  else Binary64.ofRatio negative (digits * Binary64.pow10 exponent.toNat)
    (Binary64.pow10 (-exponent).toNat)

/-- Reads an unsigned decimal number. -/
def readDecimal? (negative : Bool) (cs : List Char) : Option Float :=
  let before := cs.takeWhile Char.isDigit
  let rest := cs.dropWhile Char.isDigit
  let (after, rest) :=
    match rest with
    | '.' :: tail => (tail.takeWhile Char.isDigit, tail.dropWhile Char.isDigit)
    | _ => ([], rest)
  if before = [] ∧ after = [] then none
  else (exponentPart? rest).map fun e =>
    ofDecimal negative (plainValue (before ++ after)) (e - after.length)

/-- Reads a double: a decimal number, or an infinity or a NaN by name, in letters of any size. -/
def readDouble? (s : String) : Option Float :=
  match joinDigits? ' ' ((Text.trim isPadding s.toList).map plainDigit) with
  | none => none
  | some cs =>
    let (negative, cs) := sign cs
    let word := String.ofList (cs.map Char.toLower)
    if word = "inf" ∨ word = "infinity" then some (Binary64.ofRatio negative (Binary64.pow2 1024) 1)
    else if word = "nan" then some (Float.ofBits 0x7FF8000000000000)
    else readDecimal? negative cs

end UploadDepot.Numeral

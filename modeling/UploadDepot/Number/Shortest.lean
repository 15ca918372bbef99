/-
The text of a double: of the decimal numbers that read back as the double,
the one with the fewest digits, and of those the nearest.

`shortest` finds the digits in exact arithmetic. The numbers of `n` digits
form a grid; if any point of it reads back, one of the two neighbours of
the double does. `Layout` holds how the digits are written down.
-/
import UploadDepot.Number.Binary64

namespace UploadDepot.Binary64

/-- The number of decimal digits of a natural number; zero has none. -/
def digitCount (n : Nat) : Nat := if n = 0 then 0 else (Nat.toDigits 10 n).length

/-- The exponent `k` with `10 ^ (k - 1) ≤ num / den < 10 ^ k`. -/
def decimalExponent (num den : Nat) : Int :=
  if den ≤ num then digitCount (num / den) else 1 - (digitCount ((den - 1) / num) : Int)

/-- The point of the grid of multiples of `10 ^ step` that reads back as the double `magnitude * 2 ^
exponent`, if one does; of two, the nearer, or the even one in a tie. The numbers between
half-way to the lower and half-way to the upper neighbour read back, the ends among them if
`magnitude` is even; below a power of two the lower neighbour is half as far. -/
def gridPoint? (magnitude : Nat) (exponent step : Int) : Option Nat :=
  let lower := 4 * magnitude - (if magnitude = exponentUnit ∧ -1074 < exponent then 1 else 2)
  let upper := 4 * magnitude + 2
  let quarter := exponent - 2
  let unit := pow2 quarter.toNat * pow10 (-step).toNat
  let grid := pow10 step.toNat * pow2 (-quarter).toNat
  let inside (a : Nat) : Bool :=
    if magnitude % 2 = 0 then lower * unit ≤ a * grid && a * grid ≤ upper * unit
    else lower * unit < a * grid && a * grid < upper * unit
  let value := 4 * magnitude * unit
  let below := value / grid
  let above := below + 1
  match inside below, inside above with
  | true, true =>
    let up := above * grid - value
    let down := value - below * grid
    if up < down ∨ (up = down ∧ below % 2 = 1) then some above else some below
  | true, false => some below
  | false, true => some above
  | false, false => none

/-- The shortest decimal `digits * 10 ^ exponent` that reads back as a positive double. Seventeen
digits always suffice. -/
def shortest (magnitude : Nat) (exponent : Int) : Nat × Int :=
  let k := decimalExponent (magnitude * pow2 exponent.toNat) (pow2 (-exponent).toNat)
  let found := (List.range 17).findSome? fun (n : Nat) =>
    let step : Int := k - (n + 1)
    (gridPoint? magnitude exponent step).map fun a => (a, step)
  found.getD (0, 0)

/-- How the digits of a number are written down. -/
structure Layout where
  /-- The least decimal exponent written without an exponent part. -/
  leastPlain : Int
  /-- The decimal exponent from which on an exponent part is written. -/
  exponentFrom : Int
  /-- The least number of digits in an exponent part. -/
  exponentDigits : Nat
  /-- What a whole number ends in. -/
  wholeEnd : String

/-- Sixteen digits before the point and four zeros after it are still written out; an exponent has a
sign and two digits at least; a whole number ends in `.0`. -/
def layout : Layout :=
  { leastPlain := -4, exponentFrom := 16, exponentDigits := 2, wholeEnd := ".0" }

/-- Zeros. -/
def zeroDigits (n : Nat) : String := String.ofList (List.replicate n '0')

/-- A nonzero decimal written down: `digits`, without zeros at the end, of which the first has the
decimal exponent `lead`. -/
def Layout.write (l : Layout) (digits : List Char) (lead : Int) : String :=
  let text := String.ofList digits
  if l.leastPlain ≤ lead ∧ lead < l.exponentFrom then
    if lead < 0 then "0." ++ zeroDigits (-lead - 1).toNat ++ text
    else
      let before := lead.toNat + 1
      if digits.length ≤ before then text ++ zeroDigits (before - digits.length) ++ l.wholeEnd
      else String.ofList (digits.take before) ++ "." ++ String.ofList (digits.drop before)
  else
    let size := toString lead.natAbs
    String.ofList (digits.take 1) ++ (if digits.length = 1 then "" else ".")
      ++ String.ofList (digits.drop 1) ++ "e" ++ (if lead < 0 then "-" else "+")
      ++ zeroDigits (l.exponentDigits - size.length) ++ size

/-- The text of a double. -/
def text (x : Float) : String :=
  match parts x with
  | .nan => "nan"
  | .infinite negative => if negative then "-inf" else "inf"
  | .finite negative magnitude exponent =>
    let sign := if negative then "-" else ""
    if magnitude = 0 then sign ++ "0" ++ layout.wholeEnd
    else
      let (a, step) := shortest magnitude exponent
      let all := Nat.toDigits 10 a
      let digits := (all.reverse.dropWhile (· == '0')).reverse
      sign ++ layout.write digits (all.length + step - 1)

end UploadDepot.Binary64

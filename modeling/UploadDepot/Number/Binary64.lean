/-
Doubles as exact numbers: the parts of a double, and the double nearest to
a ratio, by arithmetic on natural numbers alone.
-/

namespace UploadDepot.Binary64

/-- A power of two. -/
def pow2 (n : Nat) : Nat := Nat.pow 2 n

/-- A power of ten. -/
def pow10 (n : Nat) : Nat := Nat.pow 10 n

/-- The unit of the exponent field, which is also the bit that a magnitude has beside its fraction:
`2 ^ 52`. -/
def exponentUnit : Nat := 0x10000000000000

/-- The bit of the sign: `2 ^ 63`. -/
def signBit : Nat := 0x8000000000000000

/-- What a double is: not a number, an infinity, or `magnitude * 2 ^ exponent` with a sign. -/
inductive Parts where
  | nan
  | infinite (negative : Bool)
  | finite (negative : Bool) (magnitude : Nat) (exponent : Int)
  deriving DecidableEq, Repr

/-- The parts of a double. -/
def parts (x : Float) : Parts :=
  let bits := x.toBits.toNat
  let negative := signBit ≤ bits
  let field : Nat := bits / exponentUnit % 2048
  let fraction := bits % exponentUnit
  if field = 2047 then if fraction = 0 then .infinite negative else .nan
  else if field = 0 then .finite negative fraction (-1074)
  else .finite negative (exponentUnit + fraction) ((field : Int) - 1075)

/-- `num / den` to the nearest whole number, a half to the even neighbour. -/
def roundRatio (num den : Nat) : Nat :=
  let q := num / den
  let r := num % den
  if 2 * r < den then q
  else if 2 * r = den then q + q % 2
  else q + 1

/-- The bits of positive infinity. -/
def infinityBits : Nat := 2047 * exponentUnit

/-- The bits of the double nearest to `num / den`, a tie going to the even one and values beyond
the largest double to infinity. The unit in the last place is `2 ^ (scale - 1074)`. -/
def nearestBits (num den : Nat) : Nat :=
  if num = 0 then 0
  else
    let estimate : Int := (Nat.log2 num : Int) - Nat.log2 den - 52
    let exponent : Int :=
      if num * pow2 (-estimate).toNat < den * pow2 estimate.toNat * exponentUnit then estimate - 1
      else estimate
    let exponent := max exponent (-1074)
    let significand := roundRatio (num * pow2 (-exponent).toNat) (den * pow2 exponent.toNat)
    min ((exponent + 1074).toNat * exponentUnit + significand) infinityBits

/-- The double nearest to a signed ratio. -/
def ofRatio (negative : Bool) (num den : Nat) : Float :=
  Float.ofBits (UInt64.ofNat ((if negative then signBit else 0) + nearestBits num den))

/-- The double nearest to a whole number; `none` if that is beyond the largest double. -/
def ofInt? (n : Int) : Option Float :=
  if nearestBits n.natAbs 1 = infinityBits then none else some (ofRatio (n < 0) n.natAbs 1)

/-- The greatest double that is at most a whole number. A double is above the number just when it is
above this one. -/
def atMost (n : Int) : Float :=
  let unit : Int := pow2 (Nat.log2 n.natAbs - 52)
  let whole := n.fdiv unit * unit
  if n < 0 then ofRatio true whole.natAbs 1
  else Float.ofBits (UInt64.ofNat (min (nearestBits whole.natAbs 1) (infinityBits - 1)))

/-- Why a double has no whole part. -/
inductive NotWhole where
  | nan
  | infinite
  deriving DecidableEq, Repr

/-- The words for a double without a whole part. -/
def NotWhole.message : NotWhole → String
  | .nan => "cannot convert float NaN to integer"
  | .infinite => "cannot convert float infinity to integer"

/-- The whole part of a double, cut toward zero. -/
def truncate (x : Float) : Except NotWhole Int :=
  match parts x with
  | .nan => .error .nan
  | .infinite _ => .error .infinite
  | .finite negative magnitude exponent =>
    let whole := magnitude * pow2 exponent.toNat / pow2 (-exponent).toNat
    .ok (if negative then -(whole : Int) else whole)

/-- A double without decimals, a half to the even neighbour. -/
def wholeText (x : Float) : String :=
  match parts x with
  | .nan => "nan"
  | .infinite negative => if negative then "-inf" else "inf"
  | .finite negative magnitude exponent =>
    let whole := roundRatio (magnitude * pow2 exponent.toNat) (pow2 (-exponent).toNat)
    (if negative then "-" else "") ++ toString whole

end UploadDepot.Binary64

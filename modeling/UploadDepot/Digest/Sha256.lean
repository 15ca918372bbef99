/-
SHA-256, incrementally: a `Hasher` absorbs bytes one at a time, so absorbing
a string in pieces is absorbing it whole, and gives the digest of what it
has absorbed at any time without being changed.
-/
import UploadDepot.Bytes

namespace UploadDepot.Sha256

/-- The eight working words. -/
structure Words where
  a : UInt32
  b : UInt32
  c : UInt32
  d : UInt32
  e : UInt32
  f : UInt32
  g : UInt32
  h : UInt32
  deriving DecidableEq, Repr

/-- The words before the first block. -/
def initial : Words :=
  { a := 0x6a09e667, b := 0xbb67ae85, c := 0x3c6ef372, d := 0xa54ff53a,
    e := 0x510e527f, f := 0x9b05688c, g := 0x1f83d9ab, h := 0x5be0cd19 }

/-- One constant a round. -/
def constants : List UInt32 :=
  [0x428a2f98, 0x71374491, 0xb5c0fbcf, 0xe9b5dba5, 0x3956c25b, 0x59f111f1, 0x923f82a4, 0xab1c5ed5,
   0xd807aa98, 0x12835b01, 0x243185be, 0x550c7dc3, 0x72be5d74, 0x80deb1fe, 0x9bdc06a7, 0xc19bf174,
   0xe49b69c1, 0xefbe4786, 0x0fc19dc6, 0x240ca1cc, 0x2de92c6f, 0x4a7484aa, 0x5cb0a9dc, 0x76f988da,
   0x983e5152, 0xa831c66d, 0xb00327c8, 0xbf597fc7, 0xc6e00bf3, 0xd5a79147, 0x06ca6351, 0x14292967,
   0x27b70a85, 0x2e1b2138, 0x4d2c6dfc, 0x53380d13, 0x650a7354, 0x766a0abb, 0x81c2c92e, 0x92722c85,
   0xa2bfe8a1, 0xa81a664b, 0xc24b8b70, 0xc76c51a3, 0xd192e819, 0xd6990624, 0xf40e3585, 0x106aa070,
   0x19a4c116, 0x1e376c08, 0x2748774c, 0x34b0bcb5, 0x391c0cb3, 0x4ed8aa4a, 0x5b9cca4f, 0x682e6ff3,
   0x748f82ee, 0x78a5636f, 0x84c87814, 0x8cc70208, 0x90befffa, 0xa4506ceb, 0xbef9a3f7, 0xc67178f2]

/-- Rotation to the right. -/
def rotate (x : UInt32) (n : UInt32) : UInt32 := (x >>> n) ||| (x <<< (32 - n))

/-- The big-endian words of a block. -/
def blockWords : Bytes → List UInt32
  | a :: b :: c :: d :: rest =>
    ((a.toUInt32 <<< 24) ||| (b.toUInt32 <<< 16) ||| (c.toUInt32 <<< 8) ||| d.toUInt32)
      :: blockWords rest
  | _ => []

/-- Appends one word to the schedule: the sum of the words 16 and 7 back and of mixtures of those
15 and 2 back. -/
def extendSchedule (w : Array UInt32) : Array UInt32 :=
  let back (n : Nat) : UInt32 := w.getD (w.size - n) 0
  let x := back 15
  let y := back 2
  let s0 := rotate x 7 ^^^ rotate x 18 ^^^ (x >>> 3)
  let s1 := rotate y 17 ^^^ rotate y 19 ^^^ (y >>> 10)
  w.push (back 16 + s0 + back 7 + s1)

/-- The sixty-four words of the rounds of a block. -/
def schedule (block : Bytes) : List UInt32 :=
  ((List.range 48).foldl (fun w _ => extendSchedule w) (blockWords block).toArray).toList

/-- One round, with its constant and its word. -/
def round (s : Words) (kw : UInt32 × UInt32) : Words :=
  let s1 := rotate s.e 6 ^^^ rotate s.e 11 ^^^ rotate s.e 25
  let choice := (s.e &&& s.f) ^^^ (~~~s.e &&& s.g)
  let t1 := s.h + s1 + choice + kw.1 + kw.2
  let s0 := rotate s.a 2 ^^^ rotate s.a 13 ^^^ rotate s.a 22
  let majority := (s.a &&& s.b) ^^^ (s.a &&& s.c) ^^^ (s.b &&& s.c)
  { a := t1 + (s0 + majority), b := s.a, c := s.b, d := s.c, e := s.d + t1, f := s.e, g := s.f,
    h := s.g }

/-- The words after one more block. -/
def compress (s : Words) (block : Bytes) : Words :=
  let r := (constants.zip (schedule block)).foldl round s
  { a := s.a + r.a, b := s.b + r.b, c := s.c + r.c, d := s.d + r.d, e := s.e + r.e, f := s.f + r.f,
    g := s.g + r.g, h := s.h + r.h }

/-- A digest in the making: the words after the full blocks, the bytes of the block at hand (latest
first), and the number of bytes absorbed. -/
structure Hasher where
  words : Words := initial
  pending : Bytes := []
  length : Nat := 0
  deriving DecidableEq, Repr

namespace Hasher

/-- Absorbs one byte; every sixty-fourth completes a block. -/
def absorb (s : Hasher) (b : UInt8) : Hasher :=
  if (s.length + 1) % 64 = 0 then
    { words := compress s.words (b :: s.pending).reverse, pending := [], length := s.length + 1 }
  else { s with pending := b :: s.pending, length := s.length + 1 }

/-- Absorbs a string. -/
def update (s : Hasher) (bs : Bytes) : Hasher := bs.foldl absorb s

/-- Absorbing two strings is absorbing their concatenation. -/
theorem update_append (s : Hasher) (xs ys : Bytes) :
    s.update (xs ++ ys) = (s.update xs).update ys := List.foldl_append

@[simp] theorem update_nil (s : Hasher) : s.update [] = s := rfl

/-- What closes a message of `length` bytes: a one bit, zeros, and the number of bits. -/
def padding (length : Nat) : Bytes :=
  let zeros : Bytes := List.replicate ((119 - length % 64) % 64) 0
  0x80 :: zeros ++ (List.range 8).reverse.map fun i => UInt8.ofNat ((length * 8) >>> (8 * i))

/-- The four bytes of a word, the high one first. -/
def wordBytes (x : UInt32) : Bytes :=
  [(x >>> 24).toUInt8, (x >>> 16).toUInt8, (x >>> 8).toUInt8, x.toUInt8]

/-- The digest of what was absorbed. -/
def digest (s : Hasher) : Bytes :=
  let w := (s.update (padding s.length)).words
  [w.a, w.b, w.c, w.d, w.e, w.f, w.g, w.h].flatMap wordBytes

/-- The digest in hexadecimal. -/
def hexDigest (s : Hasher) : String := Bytes.hex s.digest

end Hasher

/-- The digest of a string, in hexadecimal. -/
def hexOf (bs : Bytes) : String := (({} : Hasher).update bs).hexDigest

end UploadDepot.Sha256

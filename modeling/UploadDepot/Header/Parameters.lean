/-
Header values with parameters: `form-data; name="file"; filename=a.png`.

A value is cut at its semicolons, a semicolon between quotation marks not
counting. The first piece is the main value, every other one a parameter.
A parameter may be given in numbered sections, `name*0=..; name*1=..`, and a
section whose name ends in a star is percent-encoded and may open with a
character set and a language.
-/
import UploadDepot.Bytes
import UploadDepot.Table
import UploadDepot.Text.Blank
import UploadDepot.Text.Lower

namespace UploadDepot.Header

/-- The most digits a section number may have. -/
def sectionDigits : Nat := 4300

/-- Why a header value has no parameters to give. -/
inductive ParameterFault where
  /-- Of one parameter, some sections are numbered and some are not: they have no order. -/
  | unorderedSections
  /-- A section number has more digits than a number may have. -/
  | sectionNumberLength (digits : Nat)
  /-- A character has no byte. -/
  | notLatin1
  deriving DecidableEq, Repr

/-- The words of a fault. -/
def ParameterFault.message : ParameterFault → String
  | .unorderedSections => "some sections of a parameter are numbered and some are not"
  | .sectionNumberLength digits =>
    "a section number of " ++ toString digits ++ " digits is longer than "
      ++ toString sectionDigits ++ " digits"
  | .notLatin1 => "a character is outside Latin-1"

/-- The parameters of a header value, by name. -/
abbrev Parameters := Table Bytes Bytes

/-! ## Pieces -/

/-- The pieces between the semicolons. A quotation mark opens or closes a quotation unless it
stands after a backslash, and a semicolon inside a quotation cuts nothing. -/
def pieces (escaped quoted : Bool) : List Char → List (List Char)
  | [] => [[]]
  | c :: cs =>
    if c = ';' ∧ quoted = false then [] :: pieces false false cs
    else
      let quoted := if c = '"' ∧ escaped = false then !quoted else quoted
      match pieces (c = '\\') quoted cs with
      | [] => [[c]]
      | p :: ps => (c :: p) :: ps

/-- A piece as name and raw value: the name before the first `=` in small letters, or the whole
piece, as it is, with an empty value. -/
def split (piece : List Char) : List Char × List Char :=
  match piece.dropWhile (· != '=') with
  | [] => (Text.strip piece, [])
  | _ :: value => (Text.lower (Text.strip (piece.takeWhile (· != '='))), Text.strip value)

/-! ## Quotation -/

/-- Replaces the pair `a b` by `b`, from left to right. -/
def dropBefore (a b : Char) : List Char → List Char
  | x :: y :: cs => if x = a ∧ y = b then b :: dropBefore a b cs else x :: dropBefore a b (y :: cs)
  | cs => cs

/-- What stands between the first and the last character. -/
def inner (cs : List Char) : List Char := cs.tail.dropLast

/-- The text inside quotation marks, two backslashes standing for one and then a backslash with a
quotation mark for the mark; the text inside angle brackets; any other text as it is. -/
def unquote (cs : List Char) : List Char :=
  if cs.length ≤ 1 then cs
  else if cs.head? = some '"' ∧ cs.getLast? = some '"' then
    dropBefore '\\' '"' (dropBefore '\\' '\\' (inner cs))
  else if cs.head? = some '<' ∧ cs.getLast? = some '>' then inner cs
  else cs

/-- Puts a backslash before each backslash and each quotation mark. -/
def escape (cs : List Char) : List Char :=
  cs.flatMap fun c => if c = '\\' ∨ c = '"' then ['\\', c] else [c]

/-- Puts a text between quotation marks. -/
def enclose (cs : List Char) : List Char := '"' :: cs ++ ['"']

/-! ## Sections -/

/-- One section of a parameter. -/
structure Section where
  number : Option Nat
  text : List Char
  encoded : Bool

/-- The characters of the name of a parameter in sections. -/
def isWordChar (c : Char) : Bool := c.isAlphanum || c == '_'

/-- The value of a run of decimal digits. -/
def digitsValue (cs : List Char) : Nat := cs.foldl (fun n c => n * 10 + (c.toNat - 48)) 0

/-- Reads the name of a section, `name*`, `name*2` or `name*2*`: the name of the parameter and the
digits, if any. `none` for the name of a plain parameter. -/
def sectionName? (name : List Char) : Option (List Char × List Char) :=
  let base := name.takeWhile isWordChar
  match name.dropWhile isWordChar with
  | '*' :: tail =>
    let digits := tail.takeWhile Char.isDigit
    if base = [] then none
    else if tail = [] then some (base, [])
    else if digits = [] then none
    else if tail.dropWhile Char.isDigit = [] ∨ tail.dropWhile Char.isDigit = ['*'] then
      some (base, digits)
    else none
  | _ => none

/-- The value of a hexadecimal digit. -/
def hexValue? (c : Char) : Option Nat :=
  let n := c.toNat
  if 48 ≤ n ∧ n ≤ 57 then some (n - 48)
  else if 65 ≤ n ∧ n ≤ 70 then some (n - 55)
  else if 97 ≤ n ∧ n ≤ 102 then some (n - 87)
  else none

/-- Replaces each `%` with two hexadecimal digits by the character of that number. -/
def percentDecode : List Char → List Char
  | '%' :: a :: b :: cs =>
    match hexValue? a, hexValue? b with
    | some x, some y => Char.ofNat (16 * x + y) :: percentDecode cs
    | _, _ => '%' :: percentDecode (a :: b :: cs)
  | c :: cs => c :: percentDecode cs
  | [] => []

/-- The order of texts by code point, the earlier of two first. -/
def textLe : List Char → List Char → Bool
  | [], _ => true
  | _ :: _, [] => false
  | a :: as, b :: bs => a < b || (a == b && textLe as bs)

/-- Sections go by number, then by text, a plain one before an encoded one. -/
def Section.le (a b : Section) : Bool :=
  let x := a.number.getD 0
  let y := b.number.getD 0
  x < y || (x == y && (if a.text = b.text then !a.encoded || b.encoded else textLe a.text b.text))

/-- What stands after the second apostrophe, where the character set and the language end; the
whole text if there are not two. -/
def afterLanguage (cs : List Char) : List Char :=
  match (cs.dropWhile (· != '\x27')).tail.dropWhile (· != '\x27') with
  | [] => cs
  | _ :: text => text

/-- The value that the sections of a parameter give together, still between quotation marks. -/
def join (sections : List Section) : Except ParameterFault (List Char) :=
  if sections.any (·.number.isNone) && sections.any (·.number.isSome) then .error .unorderedSections
  else
    let sorted := sections.mergeSort Section.le
    let text := escape (sorted.flatMap fun s => if s.encoded then percentDecode s.text else s.text)
    .ok (enclose (if sorted.any (·.encoded) then afterLanguage text else text))

/-! ## Reading -/

/-- The parameters in the order of the header: the plain ones with their values, and the sections
of the others under their common names. -/
structure Collected where
  plain : List (List Char × List Char)
  sectioned : Table (List Char) (List Section)

/-- Takes one more parameter. -/
def Collected.add (acc : Collected) (name raw : List Char) : Except ParameterFault Collected :=
  let value := unquote raw
  match sectionName? name with
  | none => .ok { acc with plain := acc.plain ++ [(name, enclose (escape value))] }
  | some (base, digits) =>
    if digits.length > sectionDigits then .error (.sectionNumberLength digits.length)
    else
      let number := if digits = [] then none else some (digitsValue digits)
      let s : Section := { number, text := value, encoded := name.getLast? = some '*' }
      let before := (acc.sectioned.get? base).getD []
      .ok { acc with sectioned := acc.sectioned.set base (before ++ [s]) }

/-- A file name that is a whole path of another system is cut to its last part. -/
def baseName (cs : List Char) : List Char :=
  if (cs.drop 1).take 2 = [':', '\\'] ∨ cs.take 2 = ['\\', '\\'] then
    (cs.reverse.takeWhile (· != '\\')).reverse
  else cs

/-- The bytes of a text in Latin-1. -/
def encode (cs : List Char) : Except ParameterFault Bytes :=
  match Bytes.ofLatin1? cs with
  | some bs => .ok bs
  | none => .error .notLatin1

/-- Sets a parameter whose value still stands between quotation marks. -/
def store (ps : Parameters) (p : List Char × List Char) : Except ParameterFault Parameters := do
  let value := unquote p.2
  let value := if p.1 = "filename".toList then baseName value else value
  return ps.set (← encode p.1) (← encode value)

/-- The main value of a header and its parameters. A value without a semicolon is a main value, in
small letters. -/
def parameters (text : List Char) : Except ParameterFault (Bytes × Parameters) :=
  if text = [] then .ok ([], [])
  else if text.contains ';' = false then do return (← encode (Text.strip (Text.lower text)), [])
  else
    match pieces false false text with
    | [] => .ok ([], [])
    | main :: rest => do
      let acc ← rest.foldlM (fun acc piece => acc.add (split piece).1 (split piece).2)
        ({ plain := [], sectioned := [] } : Collected)
      let joined ← acc.sectioned.mapM fun p => do return (p.1, ← join p.2)
      let main ← encode (split main).1
      let ps ← (acc.plain ++ joined).foldlM store []
      return (main, ps)

end UploadDepot.Header

/-
Cutting a text at a character.
-/

namespace UploadDepot.Text

/-- What stands before the first of a character. -/
def before (c : Char) (cs : List Char) : List Char := cs.takeWhile (· != c)

/-- The parts between a character. -/
def partsAt (c : Char) : List Char → List (List Char)
  | [] => [[]]
  | x :: cs =>
    if x = c then [] :: partsAt c cs
    else
      match partsAt c cs with
      | [] => [[x]]
      | p :: ps => (x :: p) :: ps

end UploadDepot.Text

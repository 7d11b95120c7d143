import Scaffold.Text.CaseMapping
import Scaffold.Text.Cased

/-!
# Upper and lower case of a text

Every character is replaced by its mapped form.  A capital sigma becomes the final form where the
nearest character before it that is not case-ignorable is cased, and the nearest such character
after it is not.
-/

namespace Scaffold.Text

/-- Whether the first character that is not case-ignorable is cased. -/
def startsCased : List Char → Bool
  | [] => false
  | c :: cs => if isCaseIgnorable c then startsCased cs else isCased c

/-- The lower-case form of a capital sigma between the two parts of a word; the part before it is
given in reverse. -/
def sigmaForm (before after : List Char) : Char :=
  if startsCased before && !startsCased after then 'ς' else 'σ'

/-- The lower-case form of a text whose characters before it are given in reverse. -/
def lowerAfter : List Char → List Char → List Char
  | _, [] => []
  | before, c :: cs =>
      (if c = 'Σ' then [sigmaForm before cs] else lowerForm c) ++ lowerAfter (c :: before) cs

def toLower (cs : List Char) : List Char := lowerAfter [] cs

def toUpper (cs : List Char) : List Char := cs.flatMap upperForm

end Scaffold.Text

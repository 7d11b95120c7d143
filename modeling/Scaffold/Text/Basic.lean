/-!
# Characters and texts

White space, the parts of a text, and sets of code points.
-/

namespace Scaffold.Text

/-! ## White space -/

/-- The characters with the property White_Space. -/
def isBlank (c : Char) : Bool :=
  let n := c.toNat
  (0x9 ≤ n && n ≤ 0xD) || n == 0x20 || n == 0x85 || n == 0xA0 || n == 0x1680 ||
    (0x2000 ≤ n && n ≤ 0x200A) || n == 0x2028 || n == 0x2029 || n == 0x202F || n == 0x205F ||
    n == 0x3000

/-- The text without the white space at its two ends. -/
def trimChars (cs : List Char) : List Char :=
  ((cs.dropWhile isBlank).reverse.dropWhile isBlank).reverse

def trim (s : String) : String := String.ofList (trimChars s.toList)

/-! ## Parts -/

/-- The parts of a text between the occurrences of a character.  There is always one. -/
def splitOn (separator : Char) : List Char → List (List Char)
  | [] => [[]]
  | c :: cs =>
      if c = separator then [] :: splitOn separator cs
      else
        match splitOn separator cs with
        | [] => [[c]]
        | part :: parts => (c :: part) :: parts

/-! ## Sets of code points

A set of natural numbers is held as the increasing list of the places at which membership changes:
below the first point nothing belongs, from the first to the second everything, and so on. -/

/-- Membership of a number in the set with the given switch points. -/
def Switches.contains : List Nat → Nat → Bool
  | [], _ => false
  | point :: points, n => point ≤ n && !contains points n

end Scaffold.Text

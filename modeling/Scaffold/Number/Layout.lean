import Scaffold.Number.Shortest

/-!
# Written numbers

One function writes a double from its shortest digits; a `Layout` holds the decisions of a format.
Documents use `Layout.document`, which always shows that a number is not an integer; messages and
generated code use `Layout.plain`, which never uses an exponent.
-/

namespace Scaffold

/-- The decisions of a written format for doubles. -/
structure Layout where
  /-- Which of two equally near decimals is taken. -/
  tie : Decimal.Tie
  /-- The least power of ten that is written positionally. -/
  least : Option Int
  /-- The first power of ten that is no longer written positionally. -/
  first : Option Int
  /-- Whether a whole number ends in `.0`. -/
  showPoint : Bool
  /-- What stands for a value that is not a number. -/
  nan : String
  /-- What stands for infinity. -/
  infinity : String

namespace Layout

/-- Shortest digits with a point or an exponent, the exponent below `1e-5` and from `1e16` on. -/
def document : Layout where
  tie := .toEven
  least := some (-5)
  first := some 16
  showPoint := true
  nan := "null"
  infinity := "null"

/-- Shortest digits, always positional, a whole number without a point. -/
def plain : Layout where
  tie := .up
  least := none
  first := none
  showPoint := false
  nan := "NaN"
  infinity := "inf"

/-- As `plain`, but a whole number ends in `.0`. -/
def pointed : Layout := { plain with showPoint := true }

def zeros (n : Nat) : List Char := List.replicate n '0'

/-- The digits with a point so placed that the last digit stands for `10 ^ exponent`. -/
def positional (showPoint : Bool) (digits : List Char) (exponent : Int) : List Char :=
  match exponent with
  | .ofNat e => digits ++ zeros e ++ (if showPoint then ['.', '0'] else [])
  | .negSucc e =>
      let places := e + 1
      if places < digits.length then
        let whole := digits.length - places
        digits.take whole ++ '.' :: digits.drop whole
      else '0' :: '.' :: zeros (places - digits.length) ++ digits

/-- One digit, a point where more follow, and the power of ten with its sign. -/
def exponential (digits : List Char) (power : Int) : List Char :=
  let body := match digits with
    | [] => []
    | [d] => [d]
    | d :: ds => d :: '.' :: ds
  let sign := if power < 0 then '-' else '+'
  body ++ 'e' :: sign :: Decimal.digitsOf power.natAbs

def magnitudeText (layout : Layout) (mantissa : Nat) (exponent : Int) : List Char :=
  let d := Decimal.shortest layout.tie mantissa exponent
  let digits := Decimal.digitsOf d.digits
  let power := d.exponent + digits.length - 1
  let tooSmall := layout.least.any (power < ·)
  let tooLarge := layout.first.any (· ≤ power)
  if tooSmall || tooLarge then exponential digits power
  else positional layout.showPoint digits d.exponent

/-- The text of a double. -/
def write (layout : Layout) : Double → String
  | .nan => layout.nan
  | .infinite negative =>
      if negative && layout.infinity != layout.nan then "-" ++ layout.infinity
      else layout.infinity
  | .finite negative mantissa exponent =>
      let body :=
        if mantissa = 0 then positional layout.showPoint ['0'] 0
        else layout.magnitudeText mantissa exponent
      String.ofList (if negative then '-' :: body else body)

end Layout

end Scaffold

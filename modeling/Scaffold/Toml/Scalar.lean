import Scaffold.Number.Double
import Scaffold.Toml.Table

/-!
# Scalars of a TOML document

Numbers, flags, dates and times.  Each reader takes the whole of a word.
-/

namespace Scaffold.Toml

def isDecimalDigit (c : Char) : Bool := '0' ≤ c && c ≤ '9'

def digitIn (base : Nat) (c : Char) : Option Nat :=
  let value :=
    if '0' ≤ c ∧ c ≤ '9' then some (c.toNat - 48)
    else if 'a' ≤ c ∧ c ≤ 'f' then some (c.toNat - 87)
    else if 'A' ≤ c ∧ c ≤ 'F' then some (c.toNat - 55)
    else none
  value.filter (· < base)

/-- Digits between which single underscores may stand, as the list of their values. -/
def separatedDigits (base : Nat) : List Char → Option (List Nat)
  | [] => none
  | [c] => (digitIn base c).map ([·])
  | c :: d :: rest => do
      let value ← digitIn base c
      if d = '_' then return value :: (← separatedDigits base rest)
      else return value :: (← separatedDigits base (d :: rest))

def ofDigits (base : Nat) (digits : List Nat) : Nat := digits.foldl (fun n d ↦ n * base + d) 0

def splitSign : List Char → Bool × List Char
  | '-' :: cs => (true, cs)
  | '+' :: cs => (false, cs)
  | cs => (false, cs)

/-- Decimal digits without a zero in front. -/
def decimalDigits (cs : List Char) : Option (List Nat) := do
  let digits ← separatedDigits 10 cs
  if digits.head? = some 0 ∧ digits.length ≠ 1 then none else some digits

def signed (negative : Bool) (n : Nat) : Int := if negative then -(n : Int) else n

/-- The whole numbers of 128 bits that a document may hold. -/
def inRange (i : Int) : Bool := -(twoTo 127 : Int) ≤ i && i < twoTo 128

def readInteger (cs : List Char) : Option Int :=
  match cs with
  | '0' :: 'x' :: rest => (separatedDigits 16 rest).map fun ds ↦ (ofDigits 16 ds : Int)
  | '0' :: 'o' :: rest => (separatedDigits 8 rest).map fun ds ↦ (ofDigits 8 ds : Int)
  | '0' :: 'b' :: rest => (separatedDigits 2 rest).map fun ds ↦ (ofDigits 2 ds : Int)
  | _ =>
      let (negative, rest) := splitSign cs
      (decimalDigits rest).map fun ds ↦ signed negative (ofDigits 10 ds)

/-- The parts of a text before and after the first character with the property. -/
def splitAtFirst (p : Char → Bool) (cs : List Char) : List Char × Option (List Char) :=
  match cs.dropWhile (!p ·) with
  | [] => (cs, none)
  | _ :: after => (cs.takeWhile (!p ·), some after)

def readExponent : Option (List Char) → Option Int
  | none => some 0
  | some cs =>
      let (negative, rest) := splitSign cs
      (separatedDigits 10 rest).map fun ds ↦ signed negative (ofDigits 10 ds)

def readDecimal (negative : Bool) (cs : List Char) : Option Double := do
  let (mantissa, exponent) := splitAtFirst (fun c ↦ c = 'e' || c = 'E') cs
  let (whole, fraction) := splitAtFirst (· = '.') mantissa
  if fraction.isNone && exponent.isNone then none
  let whole ← decimalDigits whole
  let places ← match fraction with
    | none => some []
    | some cs => separatedDigits 10 cs
  let power ← readExponent exponent
  let power := max (min power 100000) (-100000)
  let x := Double.ofDecimal negative (ofDigits 10 (whole ++ places)) (power - places.length)
  if x.isFinite then some x else none

def readFloat (cs : List Char) : Option Double :=
  let (negative, rest) := splitSign cs
  if rest = "inf".toList then some (.infinite negative)
  else if rest = "nan".toList then some .nan
  else readDecimal negative rest

/-! ## Dates and times -/

/-- The first `n` characters as a decimal number, and the rest. -/
def fixedDigits (n : Nat) (cs : List Char) : Option (Nat × List Char) :=
  let ds := cs.take n
  if ds.length = n ∧ ds.all isDecimalDigit then
    some (ds.foldl (fun v c ↦ v * 10 + (c.toNat - 48)) 0, cs.drop n)
  else none

def expectChar (c : Char) : List Char → Option (List Char)
  | d :: rest => if d = c then some rest else none
  | [] => none

def isLeapYear (year : Nat) : Bool := year % 4 = 0 && (year % 100 ≠ 0 || year % 400 = 0)

def daysIn (year month : Nat) : Nat :=
  match month with
  | 2 => if isLeapYear year then 29 else 28
  | 4 | 6 | 9 | 11 => 30
  | _ => 31

def readDate (cs : List Char) : Option (List Char) := do
  let (year, cs) ← fixedDigits 4 cs
  let cs ← expectChar '-' cs
  let (month, cs) ← fixedDigits 2 cs
  let cs ← expectChar '-' cs
  let (day, cs) ← fixedDigits 2 cs
  if 1 ≤ month ∧ month ≤ 12 ∧ 1 ≤ day ∧ day ≤ daysIn year month then some cs else none

def readSeconds (cs : List Char) : Option (List Char) :=
  match cs with
  | ':' :: cs => do
      let (second, cs) ← fixedDigits 2 cs
      if 60 < second then none
      match cs with
      | '.' :: cs =>
          if cs.head?.any isDecimalDigit then some (cs.dropWhile isDecimalDigit) else none
      | cs => some cs
  | cs => some cs

def readTime (cs : List Char) : Option (List Char) := do
  let (hour, cs) ← fixedDigits 2 cs
  let cs ← expectChar ':' cs
  let (minute, cs) ← fixedDigits 2 cs
  if hour ≤ 23 ∧ minute ≤ 59 then readSeconds cs else none

def readOffset (cs : List Char) : Option (List Char) :=
  match cs with
  | [] => some []
  | c :: cs =>
      if c = 'Z' ∨ c = 'z' then some cs
      else if c = '+' ∨ c = '-' then do
        let (hour, cs) ← fixedDigits 2 cs
        let cs ← expectChar ':' cs
        let (minute, cs) ← fixedDigits 2 cs
        if hour ≤ 23 ∧ minute ≤ 59 then some cs else none
      else none

def isMoment (cs : List Char) : Bool :=
  match readDate cs with
  | none => readTime cs = some []
  | some [] => true
  | some (c :: rest) =>
      (c = 'T' || c = 't' || c = ' ') && ((readTime rest).bind readOffset) = some []

def readWord (cs : List Char) : Option Value :=
  if cs = "true".toList then some (.flag true)
  else if cs = "false".toList then some (.flag false)
  else match readInteger cs with
    | some i => if inRange i then some (.integer i) else none
    | none =>
      match readFloat cs with
      | some x => some (.float x)
      | none => if isMoment cs then some (.moment (String.ofList cs)) else none

end Scaffold.Toml

import Scaffold.Number.Double

/-!
# The shortest decimal that reads back

A positive double `m * 2 ^ e` is the nearest double to every real of an interval around it.  Among
the decimals in that interval with the fewest digits, `shortest` takes the one nearest to the
value; where two are equally near, a `Tie` decides.
-/

namespace Scaffold.Decimal

/-- A positive decimal `digits * 10 ^ exponent`. -/
structure Scientific where
  digits : Nat
  exponent : Int
deriving DecidableEq, Repr

/-- Which of two equally near decimals is taken. -/
inductive Tie where
  | toEven
  | up
deriving DecidableEq, Repr

/-- The decimal digits of a number, the most significant first. -/
def digitsOf (n : Nat) : List Char := Nat.toDigits 10 n

/-- The number `k` with `10 ^ k ≤ num / den < 10 ^ (k + 1)`, for a positive fraction. -/
def magnitude (num den : Nat) : Int :=
  if den ≤ num then (digitsOf (num / den)).length - 1
  else -((digitsOf ((den + num - 1) / num - 1)).length : Int)

/-- The fraction `num / den` times `10 ^ exponent`. -/
def scaleUp (num den : Nat) : Int → Nat × Nat
  | .ofNat e => (num * tenTo e, den)
  | .negSucc e => (num, den * tenTo (e + 1))

/-- Removes the zeros at the end of the digits, at most `fuel` of them. -/
def dropZeros : Nat → Scientific → Scientific
  | 0, d => d
  | fuel + 1, d =>
      if d.digits % 10 = 0 then dropZeros fuel ⟨d.digits / 10, d.exponent + 1⟩ else d

/-- The reals that round to one double, in quarters of its spacing. -/
structure Interval where
  low : Nat
  value : Nat
  high : Nat
  closed : Bool
  unitNum : Nat
  unitDen : Nat

/-- The interval of the double `mantissa * 2 ^ exponent`.  Below a power of two the numbers are
twice as dense. -/
def Interval.of (mantissa : Nat) (exponent : Int) : Interval :=
  let unit := Double.fraction 1 (exponent - 2)
  let atPower := mantissa = twoTo 52 ∧ Double.minExponent < exponent
  { low := if atPower then 4 * mantissa - 1 else 4 * mantissa - 2
    value := 4 * mantissa
    high := 4 * mantissa + 2
    closed := mantissa % 2 = 0
    unitNum := unit.1
    unitDen := unit.2 }

def Interval.contains (i : Interval) (d : Scientific) : Bool :=
  let (n, k) := scaleUp d.digits 1 d.exponent
  let point := n * i.unitDen
  let low := i.low * i.unitNum * k
  let high := i.high * i.unitNum * k
  if i.closed then low ≤ point && point ≤ high else low < point && point < high

def Interval.onGrid (tie : Tie) (i : Interval) (exponent : Int) : Option Scientific :=
  let (n, k) := scaleUp (i.value * i.unitNum) i.unitDen (-exponent)
  let below : Scientific := ⟨n / k, exponent⟩
  let above : Scientific := ⟨n / k + 1, exponent⟩
  match i.contains below, i.contains above with
  | false, false => none
  | true, false => some below
  | false, true => some above
  | true, true =>
      let middle := (2 * (n / k) + 1) * k
      if 2 * n < middle then some below
      else if middle < 2 * n then some above
      else match tie with
        | .up => some above
        | .toEven => some (if n / k % 2 = 0 then below else above)

/-- The shortest decimal that reads back as the positive double `mantissa * 2 ^ exponent`.
Seventeen digits are always enough. -/
def shortest (tie : Tie) (mantissa : Nat) (exponent : Int) : Scientific :=
  let i := Interval.of mantissa exponent
  let top := magnitude (i.value * i.unitNum) i.unitDen
  let found := (List.range 17).findSome? fun n : Nat ↦ i.onGrid tie (top - n)
  let d := found.getD ⟨0, 0⟩
  dropZeros 17 d

end Scaffold.Decimal

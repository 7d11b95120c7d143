/-!
# Binary floating point as exact values

A `Double` is a number of the 64-bit binary format, held as sign, mantissa and binary exponent, so
that every operation on it is exact arithmetic followed by one rounding.  Rounding goes to the
nearest representable value and an exact half to the even mantissa.
-/

namespace Scaffold

def twoTo (exponent : Nat) : Nat := Nat.pow 2 exponent

def tenTo (exponent : Nat) : Nat := Nat.pow 10 exponent

/-- A 64-bit binary floating-point number.  The magnitude of a finite one is
`mantissa * 2 ^ exponent`; `Double.round` is the only place that chooses the two. -/
inductive Double where
  | nan
  | infinite (negative : Bool)
  | finite (negative : Bool) (mantissa : Nat) (exponent : Int)
deriving DecidableEq, Repr

namespace Double

/-- The least exponent: the spacing of the numbers around zero. -/
def minExponent : Int := -1074

def maxExponent : Int := 971

def zero : Double := .finite false 0 minExponent

instance : Inhabited Double := ⟨zero⟩

/-! ## Rounding -/

/-- The quotient `num / den` rounded to the nearest natural number, a half going to the even one. -/
def roundDiv (num den : Nat) : Nat :=
  let quotient := num / den
  let twice := 2 * (num % den)
  if twice < den then quotient
  else if den < twice then quotient + 1
  else if quotient % 2 = 0 then quotient
  else quotient + 1

/-- The fraction `num / den` divided by `2 ^ exponent`, as a fraction. -/
def scaleDown (num den : Nat) (exponent : Int) : Nat × Nat :=
  match exponent with
  | .ofNat e => (num, den * twoTo e)
  | .negSucc e => (num * twoTo (e + 1), den)

/-- The exponent at which the fraction has a mantissa of 53 bits, or the least one. -/
def fitExponent (num den : Nat) : Int :=
  let guess : Int := max ((num.log2 : Int) - den.log2 - 52) minExponent
  let (n, d) := scaleDown num den guess
  if n / d < twoTo 52 then max (guess - 1) minExponent else guess

/-- The double nearest to the fraction `num / den` with the given sign. -/
def round (negative : Bool) (num den : Nat) : Double :=
  if num = 0 then .finite negative 0 minExponent
  else
    let exponent := fitExponent num den
    let (n, d) := scaleDown num den exponent
    let mantissa := roundDiv n d
    let (mantissa, exponent) :=
      if mantissa = twoTo 53 then (twoTo 52, exponent + 1) else (mantissa, exponent)
    if maxExponent < exponent then .infinite negative
    else .finite negative mantissa exponent

def ofNat (n : Nat) : Double := round false n 1

def ofInt (i : Int) : Double := round (decide (i < 0)) i.natAbs 1

/-- The double nearest to `digits * 10 ^ exponent`. -/
def ofDecimal (negative : Bool) (digits : Nat) (exponent : Int) : Double :=
  match exponent with
  | .ofNat e => round negative (digits * tenTo e) 1
  | .negSucc e => round negative digits (tenTo (e + 1))

/-! ## Sign, arithmetic and order -/

def neg : Double → Double
  | .nan => .nan
  | .infinite negative => .infinite !negative
  | .finite negative mantissa exponent => .finite (!negative) mantissa exponent

def isNegative : Double → Bool
  | .nan => false
  | .infinite negative => negative
  | .finite negative _ _ => negative

def isFinite : Double → Bool
  | .finite .. => true
  | _ => false

def isZero : Double → Bool
  | .finite _ mantissa _ => mantissa == 0
  | _ => false

def fraction (mantissa : Nat) : Int → Nat × Nat
  | .ofNat e => (mantissa * twoTo e, 1)
  | .negSucc e => (mantissa, twoTo (e + 1))

/-- The rounded product of two finite numbers. -/
def mul : Double → Double → Double
  | .finite s m e, .finite t k f =>
      let (a, b) := fraction m e
      let (c, d) := fraction k f
      round (s != t) (a * c) (b * d)
  | _, _ => .nan

/-- The rounded quotient of two finite numbers, the second not zero. -/
def div : Double → Double → Double
  | .finite s m e, .finite t k f =>
      let (a, b) := fraction m e
      let (c, d) := fraction k f
      round (s != t) (a * d) (b * c)
  | _, _ => .nan

/-- A finite number in units of the least spacing, which makes it an integer. -/
def units (negative : Bool) (mantissa : Nat) (exponent : Int) : Int :=
  let magnitude : Int := mantissa * twoTo (exponent - minExponent).toNat
  if negative then -magnitude else magnitude

/-- The order of two numbers; none where one of them is not a number.  The two zeros are equal. -/
def compare? : Double → Double → Option Ordering
  | .nan, _ => none
  | _, .nan => none
  | .infinite s, .infinite t => some (if s = t then .eq else if s then .lt else .gt)
  | .infinite s, .finite .. => some (if s then .lt else .gt)
  | .finite .., .infinite t => some (if t then .gt else .lt)
  | .finite s m e, .finite t k f => some (compare (units s m e) (units t k f))

def lt (x y : Double) : Bool := compare? x y == some .lt

def gt (x y : Double) : Bool := compare? x y == some .gt

/-- Equality of values: the two zeros are equal and a NaN differs from itself. -/
instance : BEq Double := ⟨fun x y ↦ compare? x y == some .eq⟩

/-! ## Whole numbers -/

/-- The number without its fractional part. -/
def truncate : Double → Int
  | .finite negative mantissa exponent =>
      let (n, d) := fraction mantissa exponent
      let whole : Int := (n / d : Nat)
      if negative then -whole else whole
  | _ => 0

/-- Whether a number is finite and has no fractional part. -/
def isWhole : Double → Bool
  | .finite _ mantissa exponent =>
      let (n, d) := fraction mantissa exponent
      n % d == 0
  | _ => false

/-- The nearest number of 32 bits towards zero; what lies outside goes to the nearer end. -/
def toWord32 : Double → Nat
  | .nan => 0
  | .infinite negative => if negative then 0 else twoTo 32 - 1
  | x => min x.truncate.toNat (twoTo 32 - 1)

end Double

end Scaffold

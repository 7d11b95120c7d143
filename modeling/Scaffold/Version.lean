import Scaffold.Text.Basic

/-!
# Versions

A version has three numbers of 32 bits and is written with dots between them.
-/

namespace Scaffold

structure Version where
  major : Fin UInt32.size
  minor : Fin UInt32.size
  patch : Fin UInt32.size
deriving DecidableEq, Repr

inductive VersionError where
  | wrongParts (text : String)
  | badMajor
  | badMinor
  | badPatch
deriving DecidableEq, Repr

def VersionError.message : VersionError → String
  | .wrongParts text => s!"invalid version '{text}', expected 'X.Y.Z'"
  | .badMajor => "invalid major"
  | .badMinor => "invalid minor"
  | .badPatch => "invalid patch"

namespace Version

def of (major minor patch : UInt32) : Version := ⟨major.toFin, minor.toFin, patch.toFin⟩

def isDigit (c : Char) : Bool := '0' ≤ c && c ≤ '9'

def digitsValue (cs : List Char) : Nat := cs.foldl (fun n c ↦ n * 10 + (c.toNat - 48)) 0

/-- What is behind a plus sign, or everything where there is none. -/
def unsigned : List Char → List Char
  | '+' :: rest => rest
  | cs => cs

/-- A number of 32 bits in decimal digits, with or without a plus sign. -/
def part? (cs : List Char) : Option (Fin UInt32.size) :=
  let digits := unsigned cs
  if digits.isEmpty || !digits.all isDigit then none
  else
    let value := digitsValue digits
    if h : value < UInt32.size then some ⟨value, h⟩ else none

def parse (text : String) : Except VersionError Version :=
  match Text.splitOn '.' text.toList with
  | [major, minor, patch] =>
      match part? major, part? minor, part? patch with
      | none, _, _ => .error .badMajor
      | some _, none, _ => .error .badMinor
      | some _, some _, none => .error .badPatch
      | some major, some minor, some patch => .ok ⟨major, minor, patch⟩
  | _ => .error (.wrongParts text)

def toText (v : Version) : String := s!"{v.major}.{v.minor}.{v.patch}"

def compare (v w : Version) : Ordering :=
  (Ord.compare v.major w.major).then
    ((Ord.compare v.minor w.minor).then (Ord.compare v.patch w.patch))

/-- Whether the first version can stand in for a request of the second: the same major version and
not older. -/
def isCompatible (v w : Version) : Bool := v.major == w.major && compare v w != .lt

end Version

end Scaffold

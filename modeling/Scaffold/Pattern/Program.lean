import Scaffold.Number.Double
import Scaffold.Pattern.Parse

/-!
# A checker of patterns

A pattern that reads well may still name an unknown class of characters, match bytes that are no
text, or need a program larger than allowed.  The size of the program is counted in bytes of its
states; for classes of characters beyond ASCII it is an estimate.  What is proved about validation
holds for any other checker as well.
-/

namespace Scaffold.Pattern

/-- The flags that decide what a part means. -/
structure Meaning where
  unicode : Bool := true
  ignoreCase : Bool := false
deriving DecidableEq, Repr

def Meaning.apply (m : Meaning) (s : Switching) : Meaning :=
  ⟨(s.setting? .unicode).getD m.unicode, (s.setting? .ignoreCase).getD m.ignoreCase⟩

/-- The size of a compiled part, whether it can match the empty text, and whether it matches nothing
else. -/
structure Program where
  bytes : Nat
  nullable : Bool := false
  onlyEmpty : Bool := false
deriving DecidableEq, Repr

namespace Program

def stateBytes : Nat := 32

def transitionBytes : Nat := 8

def alternativeBytes : Nat := 4

def empty : Program := ⟨stateBytes, true, true⟩

/-- A state that matches no text by itself. -/
def assertion : Program := ⟨stateBytes, true, true⟩

def asciiClass (ranges : Nat) : Program := ⟨2 * stateBytes + ranges * transitionBytes, false, false⟩

def sequence (p q : Program) : Program :=
  ⟨p.bytes + q.bytes, p.nullable && q.nullable, p.onlyEmpty && q.onlyEmpty⟩

def orElse (p q : Program) : Program :=
  ⟨p.bytes + q.bytes + alternativeBytes, p.nullable || q.nullable, p.onlyEmpty && q.onlyEmpty⟩

def forkBytes : Nat := stateBytes + 2 * alternativeBytes

/-- The size of a repetition without an upper bound. -/
def unboundedBytes (p : Program) : Nat → Nat
  | 0 => p.bytes + if p.nullable then 2 * forkBytes + stateBytes else forkBytes
  | least + 1 => (least + 1) * p.bytes + forkBytes

def boundedBytes (p : Program) (least most : Nat) : Nat :=
  (if least = 0 then stateBytes else least * p.bytes) +
    if least < most then stateBytes + (most - least) * (forkBytes + p.bytes) else 0

def repeated (p : Program) (least : Nat) (most : Option Nat) : Program :=
  match most with
  | some 0 => empty
  | some most =>
      if p.onlyEmpty || (least = 1 && most = 1) then p
      else ⟨boundedBytes p least most, p.nullable || least = 0, false⟩
  | none => if p.onlyEmpty then p else ⟨unboundedBytes p least, p.nullable || least = 0, false⟩

def capture (p : Program) : Program := { p with bytes := p.bytes + 2 * stateBytes }

/-- Estimates for classes of characters beyond ASCII. -/
def anyBytes : Nat := 1000

def propertyBytes : Nat := 26000

def rangeBytes : Nat := 160

def shorthandBytes : Shorthand → Bool → Nat
  | .digit, false => 4640
  | .digit, true => 11656
  | .space, false => 680
  | .space, true => 1924
  | .word, false => 48168
  | .word, true => 45064

end Program

/-! ## Classes -/

def Property.check (p : Property) : Except Problem Unit :=
  match p.lookup with
  | .found => .ok ()
  | .noProperty => .error .propertyNotFound
  | .noValue => .error .propertyValueNotFound

/-- A character where bytes are matched: above ASCII, a byte is no text. -/
def Symbol.checkByte (s : Symbol) : Except Problem Unit :=
  if s.isByte && 128 ≤ s.char.toNat then .error .invalidUtf8 else .ok ()

def Symbol.checkClassByte (s : Symbol) : Except Problem Unit := do
  s.checkByte
  if 128 ≤ s.char.toNat then throw .unicodeNotAllowed

/-- Negating a class of ASCII bytes gives bytes that are no text. -/
def checkNegation (m : Meaning) (negated : Bool) : Except Problem Unit :=
  if negated && !m.unicode then .error .invalidUtf8 else .ok ()

namespace ClassExpr

mutual

/-- Checks the parts of a class in the order of writing. -/
def check (m : Meaning) : ClassExpr → Except Problem Unit
  | .empty => .ok ()
  | .symbol s => if m.unicode then .ok () else s.checkClassByte
  | .range first last =>
      if m.unicode then .ok () else do
        first.checkClassByte
        last.checkClassByte
  | .ascii negated => checkNegation m negated
  | .property p => if m.unicode then p.check else .error .unicodeNotAllowed
  | .shorthand _ negated => checkNegation m negated
  | .bracketed negated body => do
      body.check m
      checkNegation m negated
  | .union items => checkAll m items
  | .combined left right => do
      left.check m
      right.check m

def checkAll (m : Meaning) : List ClassExpr → Except Problem Unit
  | [] => .ok ()
  | item :: items => do
      item.check m
      checkAll m items

end

mutual

/-- The estimated size of a class beyond its two states. -/
def bytes (m : Meaning) : ClassExpr → Nat
  | .empty => 0
  | .symbol s => if s.char.toNat < 128 then Program.transitionBytes else Program.rangeBytes
  | .range _ last => if last.char.toNat < 128 then Program.transitionBytes else Program.rangeBytes
  | .ascii negated => if negated then Program.anyBytes else 4 * Program.transitionBytes
  | .property _ => Program.propertyBytes
  | .shorthand kind negated =>
      if m.unicode then Program.shorthandBytes kind negated else 4 * Program.transitionBytes
  | .bracketed negated body => body.bytes m + if negated then Program.anyBytes else 0
  | .union items => bytesOfAll m items
  | .combined left right => Nat.max (left.bytes m) (right.bytes m)

def bytesOfAll (m : Meaning) : List ClassExpr → Nat
  | [] => 0
  | item :: items => item.bytes m + bytesOfAll m items

end

end ClassExpr

/-! ## Patterns -/

namespace Expr

def compileSymbol (m : Meaning) (s : Symbol) : Except Problem Program := do
  if !m.unicode then s.checkByte
  if m.ignoreCase && s.char.isAlpha then return .asciiClass 2
  return ⟨s.char.utf8Size * Program.stateBytes, false, false⟩

mutual

/-- Compiles a pattern under the flags that hold in front of it, and returns those that hold behind
it. -/
def compile (m : Meaning) : Expr → Except Problem (Program × Meaning)
  | .empty => .ok (.empty, m)
  | .flags s => .ok (.empty, m.apply s)
  | .symbol s => do return (← compileSymbol m s, m)
  | .dot => if m.unicode then .ok (⟨Program.anyBytes, false, false⟩, m) else .error .invalidUtf8
  | .look => .ok (.assertion, m)
  | .property p =>
      if m.unicode then do
        p.check
        return (⟨Program.propertyBytes, false, false⟩, m)
      else .error .unicodeNotAllowed
  | .shorthand kind negated => do
      checkNegation m negated
      let bytes := (ClassExpr.shorthand kind negated).bytes m
      return (⟨2 * Program.stateBytes + bytes, false, false⟩, m)
  | .bracketed negated body => do
      (ClassExpr.bracketed negated body).check m
      let bytes := (ClassExpr.bracketed negated body).bytes m
      return (⟨2 * Program.stateBytes + bytes, false, false⟩, m)
  | .repeated least most body => do
      let (p, m) ← body.compile m
      return (p.repeated least most, m)
  | .capture body => do
      let (p, _) ← body.compile m
      return (p.capture, m)
  | .group s body => do
      let (p, _) ← body.compile (m.apply s)
      return (p, m)
  | .alternation branches => do
      let (p, m) ← compileBranches m branches
      return ({ p with bytes := p.bytes + 2 * Program.stateBytes }, m)
  | .sequence parts => compileParts m parts

/-- The branches of a choice; flags carry over from one to the next. -/
def compileBranches (m : Meaning) : List Expr → Except Problem (Program × Meaning)
  | [] => .ok (⟨0, false, true⟩, m)
  | branch :: branches => do
      let (p, m) ← branch.compile m
      let (q, m) ← compileBranches m branches
      return (p.orElse q, m)

def compileParts (m : Meaning) : List Expr → Except Problem (Program × Meaning)
  | [] => .ok (⟨0, true, true⟩, m)
  | part :: parts => do
      let (p, m) ← part.compile m
      let (q, m) ← compileParts m parts
      return (p.sequence q, m)

end

end Expr

def sizeLimit : Nat := 10 * twoTo 20

/-- What a program has around the pattern: the search for a place to start, and the match. -/
def frameBytes : Nat := 7 * Program.stateBytes

/-- The checker that programs run with. -/
instance standardChecker : Checker where
  problem? pattern :=
    match parse pattern with
    | .error p => some p
    | .ok expr =>
        match expr.compile {} with
        | .error p => some p
        | .ok (program, _) =>
            if sizeLimit < program.bytes + frameBytes then some (.tooBig sizeLimit) else none

end Scaffold.Pattern

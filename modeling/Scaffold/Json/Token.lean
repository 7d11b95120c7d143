import Scaffold.Data.Tree
import Scaffold.Number.Double
import Scaffold.Number.Shortest

/-!
# Tokens of a JSON text

Strings, numbers and words are read twice: strictly, which gives their value, and loosely, which
only finds their end.  A token that fails loosely fails strictly too; the converse does not hold,
since a lone surrogate or a number out of range can be skipped.
-/

namespace Scaffold.Json

open Data

/-- What is still to be read, and the place before it. -/
structure Cursor where
  rest : List Char
  position : Position

/-- The place after the first byte of what is still to be read, if anything is. -/
def Cursor.peek (c : Cursor) : Position :=
  match c.rest with
  | [] => c.position
  | ch :: _ => c.position.afterByte ch

def isSpace (c : Char) : Bool := c = ' ' || c = '\n' || c = '\t' || c = '\r'

/-- The cursor behind the white space in front of the text. -/
def skipSpace : List Char → Position → Cursor
  | [], p => ⟨[], p⟩
  | c :: cs, p => if isSpace c then skipSpace cs (p.after c) else ⟨c :: cs, p⟩

/-! ## Strings -/

def hexValue (c : Char) : Option Nat :=
  if '0' ≤ c ∧ c ≤ '9' then some (c.toNat - 48)
  else if 'a' ≤ c ∧ c ≤ 'f' then some (c.toNat - 87)
  else if 'A' ≤ c ∧ c ≤ 'F' then some (c.toNat - 55)
  else none

/-- The place `n` bytes further, if the text has as many. -/
def advanceBytes : Nat → List Char → Position → Option Position
  | 0, _, p => some p
  | _ + 1, [], _ => none
  | n + 1, c :: cs, p =>
      if c.utf8Size ≤ n + 1 then advanceBytes (n + 1 - c.utf8Size) cs (p.after c)
      else some ⟨p.line, p.column + (n + 1)⟩

/-- The complaint about the four hexadecimal digits that must stand in front of the text. -/
def hexFault? (cs : List Char) (p : Position) : Option Fault :=
  match advanceBytes 4 cs p with
  | none => some ⟨.endInString, cs.foldl Position.after p⟩
  | some q => if (cs.take 4).all (hexValue · |>.isSome) then none else some ⟨.invalidEscape, q⟩

def simpleEscape : Char → Option Char
  | '"' => some '"'
  | '\\' => some '\\'
  | '/' => some '/'
  | 'b' => some '\x08'
  | 'f' => some '\x0c'
  | 'n' => some '\n'
  | 'r' => some '\r'
  | 't' => some '\t'
  | _ => none

/-- Where the strict reader of a string stands.  `high` is the leading half of a surrogate pair
whose trailing half must follow. -/
inductive StringState where
  | plain
  | escape
  | hex (left : Nat) (value : Nat) (high : Option Nat)
  | needSlash (high : Nat)
  | needU (high : Nat)

def isLeading (n : Nat) : Bool := 0xD800 ≤ n && n ≤ 0xDBFF

def isTrailing (n : Nat) : Bool := 0xDC00 ≤ n && n ≤ 0xDFFF

def joinPair (high low : Nat) : Char :=
  Char.ofNat (0x10000 + (high - 0xD800) * 0x400 + (low - 0xDC00))

/-- What a complete hexadecimal escape gives: a character, a wait for the second half, or a
fault at the place after it. -/
def finishHex (value : Nat) (high : Option Nat) : Option (StringState × List Char) :=
  match high with
  | some h => if isTrailing value then some (.plain, [joinPair h value]) else none
  | none =>
      if isTrailing value then none
      else if isLeading value then some (.needSlash value, [])
      else some (.plain, [Char.ofNat value])

/-- Reads the rest of a string strictly; `out` is what was read, in reverse. -/
def readString : StringState → List Char → Position → List Char →
    Except Fault (List Char × Cursor)
  | _, [], p, _ => .error ⟨.endInString, p⟩
  | .plain, c :: cs, p, out =>
      if c = '"' then .ok (out.reverse, ⟨cs, p.next⟩)
      else if c = '\\' then readString .escape cs p.next out
      else if c.toNat < 0x20 then .error ⟨.controlCharacter, p.afterByte c⟩
      else readString .plain cs (p.after c) (c :: out)
  | .escape, c :: cs, p, out =>
      match simpleEscape c with
      | some d => readString .plain cs p.next (d :: out)
      | none =>
          if c = 'u' then
            match hexFault? cs p.next with
            | some fault => .error fault
            | none => readString (.hex 4 0 none) cs p.next out
          else .error ⟨.invalidEscape, p.afterByte c⟩
  | .hex left value high, c :: cs, p, out =>
      let value := value * 16 + (hexValue c).getD 0
      if 1 < left then readString (.hex (left - 1) value high) cs p.next out
      else match finishHex value high with
        | some (state, read) => readString state cs p.next (read ++ out)
        | none => .error ⟨.loneSurrogate, p.next⟩
  | .needSlash high, c :: cs, p, out =>
      if c = '\\' then readString (.needU high) cs p.next out
      else .error ⟨.hexEscapeCut, p.afterByte c⟩
  | .needU high, c :: cs, p, out =>
      if c = 'u' then
        match hexFault? cs p.next with
        | some fault => .error fault
        | none => readString (.hex 4 0 (some high)) cs p.next out
      else .error ⟨.hexEscapeCut, p.afterByte c⟩

/-- Skips the rest of a string; `escaped` says that a backslash stands before it. -/
def skipString : (escaped : Bool) → List Char → Position → Except Fault Cursor
  | _, [], p => .error ⟨.endInString, p⟩
  | false, c :: cs, p =>
      if c = '"' then .ok ⟨cs, p.next⟩
      else if c = '\\' then skipString true cs p.next
      else if c.toNat < 0x20 then .error ⟨.controlCharacter, p⟩
      else skipString false cs (p.after c)
  | true, c :: cs, p =>
      if (simpleEscape c).isSome then skipString false cs p.next
      else if c = 'u' then
        match hexFault? cs p.next with
        | some fault => .error fault
        | none => skipString false cs p.next
      else .error ⟨.invalidEscape, p.afterByte c⟩

/-! ## Numbers -/

def isDigit (c : Char) : Bool := '0' ≤ c && c ≤ '9'

structure NumberText where
  negative : Bool
  whole : List Char
  fraction : List Char
  exponentNegative : Bool
  exponent : List Char
  /-- The place before the digits of the exponent. -/
  exponentStart : Position

/-- A number text and what follows it, or the strict and the loose complaint about it. -/
inductive NumberScan where
  | read (text : NumberText) (cursor : Cursor)
  | broken (strict loose : Fault)

def scanExponent (text : NumberText) (cs : List Char) (p : Position) : NumberScan :=
  match cs with
  | mark :: cs' =>
      if mark = 'e' ∨ mark = 'E' then
        let (negative, cs'', q) := match cs' with
          | '+' :: r => (false, r, p.next.next)
          | '-' :: r => (true, r, p.next.next)
          | r => (false, r, p.next)
        match cs'' with
        | [] => .broken ⟨.endInValue, q⟩ ⟨.invalidNumber, q⟩
        | c :: _ =>
            if isDigit c then
              let digits := cs''.takeWhile isDigit
              .read
                { text with exponentNegative := negative, exponent := digits, exponentStart := q }
                ⟨cs''.dropWhile isDigit, ⟨q.line, q.column + digits.length⟩⟩
            else .broken ⟨.invalidNumber, q.afterByte c⟩ ⟨.invalidNumber, q.afterByte c⟩
      else .read text ⟨cs, p⟩
  | [] => .read text ⟨cs, p⟩

def scanFraction (text : NumberText) (cs : List Char) (p : Position) : NumberScan :=
  match cs with
  | '.' :: cs' =>
      let digits := cs'.takeWhile isDigit
      let rest := cs'.dropWhile isDigit
      match digits, rest with
      | [], [] => .broken ⟨.endInValue, p.next⟩ ⟨.invalidNumber, p.next⟩
      | [], c :: _ =>
          .broken ⟨.invalidNumber, p.next.afterByte c⟩ ⟨.invalidNumber, p.next.afterByte c⟩
      | _, _ =>
          scanExponent { text with fraction := digits } rest
            ⟨p.line, p.column + (digits.length + 1)⟩
  | _ => scanExponent text cs p

def scanMagnitude (negative : Bool) (cs : List Char) (p : Position) : NumberScan :=
  match cs with
  | [] => .broken ⟨.endInValue, p⟩ ⟨.invalidNumber, p⟩
  | c :: cs' =>
      if ¬ isDigit c then .broken ⟨.invalidNumber, p.afterByte c⟩ ⟨.invalidNumber, p.afterByte c⟩
      else
        let digits := if c = '0' then [c] else cs.takeWhile isDigit
        let rest := if c = '0' then cs' else cs.dropWhile isDigit
        let text : NumberText := ⟨negative, digits, [], false, [], p⟩
        if c = '0' && rest.head?.any isDigit then
          .broken ⟨.invalidNumber, p.next.next⟩ ⟨.invalidNumber, p.next.next⟩
        else scanFraction text rest ⟨p.line, p.column + digits.length⟩

def scanNumber (cs : List Char) (p : Position) : NumberScan :=
  match cs with
  | '-' :: cs' => scanMagnitude true cs' p.next
  | _ => scanMagnitude false cs p

def digitValue (c : Char) : Nat := c.toNat - 48

def maxSignificand : Nat := twoTo 64 - 1

/-- Adds a digit before the point; once one does not fit, it and all later ones only count. -/
def pushWhole (state : Nat × Nat) (c : Char) : Nat × Nat :=
  let (significand, dropped) := state
  let grown := significand * 10 + digitValue c
  if dropped = 0 ∧ grown ≤ maxSignificand then (grown, 0) else (significand, dropped + 1)

/-- Adds a digit behind the point; once one does not fit, it and all later ones are dropped. -/
def pushFraction (state : Nat × Nat × Bool) (c : Char) : Nat × Nat × Bool :=
  let (significand, places, full) := state
  let grown := significand * 10 + digitValue c
  if ¬ full ∧ grown ≤ maxSignificand then (grown, places + 1, false)
  else (significand, places, true)

/-- The value of an exponent, or the number of digits after which it is too large. -/
def readExponent : List Char → Nat → Nat → Except Nat Nat
  | [], _, value => .ok value
  | c :: cs, read, value =>
      let grown := value * 10 + digitValue c
      if twoTo 31 ≤ grown then .error (read + 1) else readExponent cs (read + 1) grown

def powerOfTen (n : Nat) : Double := Double.ofDecimal false 1 n

/-- A double times a power of ten, in steps of at most `10 ^ 308`; none if it is too large. -/
def scalePower : Nat → Double → Int → Option Double
  | fuel, x, exponent =>
      if exponent.natAbs ≤ 308 then
        let power := powerOfTen exponent.natAbs
        if 0 ≤ exponent then
          let y := x.mul power
          if y.isFinite then some y else none
        else some (x.div power)
      else if x.isZero then some x
      else if 0 ≤ exponent then none
      else match fuel with
        | 0 => some x
        | fuel + 1 => scalePower fuel (x.div (powerOfTen 308)) (exponent + 308)

/-- The numeral that a number text stands for.  A whole number that fits in 64 bits stays whole;
every other is the significand, scaled by its power of ten. -/
def NumberText.numeral (text : NumberText) (stop : Position) : Except Fault Numeral :=
  let (significand, dropped) := text.whole.foldl pushWhole (0, 0)
  if text.fraction.isEmpty && text.exponent.isEmpty && dropped == 0 then
    if ¬ text.negative then .ok (.integer significand)
    else if significand = 0 ∨ twoTo 63 < significand then
      .ok (.float (Double.ofNat significand).neg)
    else .ok (.integer (-(significand : Int)))
  else
    let (significand, places, _) := text.fraction.foldl pushFraction (significand, 0, false)
    let sign (x : Double) : Double := if text.negative then x.neg else x
    match readExponent text.exponent 0 0 with
    | .error read =>
        if significand ≠ 0 ∧ ¬ text.exponentNegative then
          .error ⟨.numberOutOfRange, ⟨text.exponentStart.line, text.exponentStart.column + read⟩⟩
        else .ok (.float (sign Double.zero))
    | .ok exponent =>
        let shift : Int := if text.exponentNegative then -(exponent : Int) else exponent
        match scalePower 4 (Double.ofNat significand) (dropped - places + shift) with
        | none => .error ⟨.numberOutOfRange, stop⟩
        | some x => .ok (.float (sign x))

/-! ## Words -/

def readWord : List Char → List Char → Position → Except Fault Cursor
  | [], cs, p => .ok ⟨cs, p⟩
  | _ :: _, [], p => .error ⟨.endInValue, p⟩
  | w :: ws, c :: cs, p =>
      if c = w then readWord ws cs (p.after c) else .error ⟨.expectedIdent, p.afterByte c⟩

end Scaffold.Json

import Scaffold.Number.Double
import Scaffold.Pattern.Expr
import Scaffold.Pattern.Problem
import Scaffold.Text.Basic

/-!
# The small parts of a pattern

White space and comments between the parts of a spaced pattern, numbers, escapes, flags and group
names.  Every reader takes the characters that are left and returns those that are left after it.
-/

namespace Scaffold.Pattern

/-! ## White space -/

mutual

def skipSpace : List Char → List Char
  | [] => []
  | c :: cs =>
      if Text.isBlank c then skipSpace cs
      else if c = '#' then skipComment cs
      else c :: cs

/-- Skips the rest of a comment and the white space after it. -/
def skipComment : List Char → List Char
  | [] => []
  | c :: cs => if c = '\n' then skipSpace cs else skipComment cs

end

def skip (spaced : Bool) (cs : List Char) : List Char := if spaced then skipSpace cs else cs

/-- The first character that is no white space.  The mark of one comment is passed over as well. -/
def firstVisible? (inComment : Bool) : List Char → Option Char
  | [] => none
  | c :: cs =>
      if Text.isBlank c then firstVisible? inComment cs
      else if !inComment && c = '#' then firstVisible? true cs
      else some c

/-- The character that will be read next, where `cs` comes after the current one. -/
def peek (spaced : Bool) (cs : List Char) : Option Char :=
  if spaced then firstVisible? false cs <|> cs.head? else cs.head?

/-- Takes characters as long as they belong, skipping after each one. -/
def takeVisible (spaced : Bool) (belongs : Char → Bool) :
    (fuel : Nat) → List Char → List Char × List Char
  | 0, cs => ([], cs)
  | _ + 1, [] => ([], [])
  | fuel + 1, c :: cs =>
      if belongs c then
        let (taken, rest) := takeVisible spaced belongs fuel (skip spaced cs)
        (c :: taken, rest)
      else ([], c :: cs)

/-! ## Numbers -/

def isDecimal (c : Char) : Bool := '0' ≤ c && c ≤ '9'

def isHex (c : Char) : Bool := isDecimal c || ('a' ≤ c && c ≤ 'f') || ('A' ≤ c && c ≤ 'F')

def hexValue (c : Char) : Nat :=
  if isDecimal c then c.toNat - 48
  else if 'a' ≤ c then c.toNat - 87
  else c.toNat - 55

def decimalValue (digits : List Char) : Nat :=
  digits.foldl (fun n c ↦ n * 10 + (c.toNat - 48)) 0

def readBound (spaced : Bool) (cs : List Char) : Except Problem Nat × List Char :=
  let (digits, rest) := takeVisible spaced isDecimal cs.length (cs.dropWhile Text.isBlank)
  let rest := (takeVisible spaced Text.isBlank rest.length rest).2
  if digits.isEmpty then (.error .countMissing, rest)
  else if decimalValue digits < twoTo 32 then (.ok (decimalValue digits), rest)
  else (.error .decimalInvalid, rest)

def scalar (digits : List Char) : Except Problem Char :=
  let n := digits.foldl (fun n c ↦ n * 16 + hexValue c) 0
  if n < 0xD800 || (0xDFFF < n && n < 0x110000) then .ok (Char.ofNat n) else .error .hexNotScalar

def readHexDigits (spaced : Bool) : Nat → List Char → Except Problem (List Char × List Char)
  | 0, cs => .ok ([], cs)
  | _ + 1, [] => .error .escapeAtEnd
  | count + 1, c :: cs =>
      if isHex c then do
        let (digits, rest) ← readHexDigits spaced count (skip spaced cs)
        return (c :: digits, rest)
      else .error .hexDigit

/-- Reads a character that is given by its number: two, four or eight digits, or any number of
digits in braces. -/
def readHex (spaced : Bool) (width : Nat) (cs : List Char) : Except Problem (Symbol × List Char) :=
  match skip spaced cs with
  | [] => .error .escapeAtEnd
  | '\x7b' :: rest => do
      let (digits, rest) := takeVisible spaced (· ≠ '\x7d') rest.length (skip spaced rest)
      if !digits.all isHex then throw .hexDigit
      match rest with
      | [] => throw .escapeAtEnd
      | _ :: rest =>
          if digits.isEmpty then throw .hexEmpty
          return (⟨← scalar digits, false⟩, skip spaced rest)
  | rest => do
      let (digits, rest) ← readHexDigits spaced width rest
      return (⟨← scalar digits, width == 2⟩, rest)

/-! ## Escapes -/

inductive Atom where
  | symbol (s : Symbol)
  | dot
  | look
  | property (p : Property)
  | shorthand (kind : Shorthand) (negated : Bool)
deriving Repr

/-- The parts of a text in front of and behind the first occurrence of another. -/
def splitAtFirst (mark : List Char) : List Char → Option (List Char × List Char)
  | [] => none
  | c :: cs =>
      if mark.isPrefixOf (c :: cs) then some ([], (c :: cs).drop mark.length)
      else (splitAtFirst mark cs).map fun (head, tail) ↦ (c :: head, tail)

def Property.ofBraces (name : List Char) : Property :=
  match splitAtFirst ['!', '='] name <|> splitAtFirst [':'] name <|> splitAtFirst ['='] name with
  | some (property, value) => .valued property value
  | none => .named name

/-- Reads the name of a property: one letter, or a name in braces. -/
def readProperty (spaced : Bool) (cs : List Char) : Except Problem (Property × List Char) :=
  match skip spaced cs with
  | [] => .error .escapeAtEnd
  | '\x7b' :: rest =>
      let (name, rest) := takeVisible spaced (· ≠ '\x7d') rest.length (skip spaced rest)
      match rest with
      | [] => .error .escapeAtEnd
      | _ :: rest => .ok (.ofBraces name, rest)
  | c :: rest => if c = '\\' then .error .unicodeClass else .ok (.named [c], skip spaced rest)

/-- Characters that mean something in a pattern. -/
def isMeta (c : Char) : Bool := "\\.+*?()|[]\x7b\x7d^$#&-~".toList.contains c

/-- Characters that stand for themselves after a backslash. -/
def isEscapable (c : Char) : Bool :=
  isMeta c || (c.toNat < 128 && !c.isAlphanum && c != '<' && c != '>')

def isBoundaryChar (c : Char) : Bool := c.isAlpha || c == '-'

/-- Reads the name of a word boundary in braces.  What cannot be such a name is left, since it may
be a repetition. -/
def readBoundary (spaced : Bool) (cs : List Char) : Except Problem (Unit × List Char) :=
  match cs with
  | '\x7b' :: inner =>
      match skip spaced inner with
      | [] => .error .wordBoundaryAtEnd
      | c :: rest =>
          if !isBoundaryChar c then .ok ((), cs)
          else
            let (name, rest) := takeVisible spaced isBoundaryChar (rest.length + 1) (c :: rest)
            match rest with
            | '\x7d' :: rest =>
                if ["start", "end", "start-half", "end-half"].contains (String.ofList name) then
                  .ok ((), rest)
                else .error .wordBoundaryUnknown
            | _ => .error .wordBoundaryUnclosed
  | _ => .ok ((), cs)

def readEscape (spaced : Bool) : List Char → Except Problem (Atom × List Char)
  | [] => .error .escapeAtEnd
  | c :: cs =>
      if isDecimal c then .error .backreference
      else match c with
        | 'x' => (readHex spaced 2 cs).map fun (s, rest) ↦ (.symbol s, rest)
        | 'u' => (readHex spaced 4 cs).map fun (s, rest) ↦ (.symbol s, rest)
        | 'U' => (readHex spaced 8 cs).map fun (s, rest) ↦ (.symbol s, rest)
        | 'p' | 'P' => (readProperty spaced cs).map fun (p, rest) ↦ (.property p, rest)
        | 'd' => .ok (.shorthand .digit false, cs)
        | 'D' => .ok (.shorthand .digit true, cs)
        | 's' => .ok (.shorthand .space false, cs)
        | 'S' => .ok (.shorthand .space true, cs)
        | 'w' => .ok (.shorthand .word false, cs)
        | 'W' => .ok (.shorthand .word true, cs)
        | 'a' => .ok (.symbol ⟨'\x07', false⟩, cs)
        | 'f' => .ok (.symbol ⟨'\x0c', false⟩, cs)
        | 't' => .ok (.symbol ⟨'\t', false⟩, cs)
        | 'n' => .ok (.symbol ⟨'\n', false⟩, cs)
        | 'r' => .ok (.symbol ⟨'\r', false⟩, cs)
        | 'v' => .ok (.symbol ⟨'\x0b', false⟩, cs)
        | 'A' | 'z' | 'B' | '<' | '>' => .ok (.look, cs)
        | 'b' => (readBoundary spaced cs).map fun (_, rest) ↦ (.look, rest)
        | _ => if isEscapable c then .ok (.symbol ⟨c, false⟩, cs) else .error .escapeUnknown

/-! ## Flags and group names -/

/-- Reads flags up to the mark behind them and returns it with them.  `negated` says whether the
flags that follow are switched off, `dangling` whether a hyphen has just been read. -/
def readFlags (negated dangling : Bool) (seen : Switching) :
    List Char → Except Problem ((Switching × Char) × List Char)
  | [] => .error .flagAtEnd
  | c :: cs =>
      if c = ':' || c = ')' then
        if dangling then .error .flagDanglingNegation else .ok ((seen, c), cs)
      else if c = '-' then
        if negated then .error .flagRepeatedNegation else readFlags true true seen cs
      else match Flag.ofChar? c with
        | none => .error .flagUnknown
        | some flag =>
            if seen.any (·.1 == flag) then .error .flagDuplicate
            else readFlags negated false (seen ++ [(flag, !negated)]) cs

end Scaffold.Pattern

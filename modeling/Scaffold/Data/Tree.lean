import Scaffold.Number.Double

/-!
# Document trees

A `Tree` is what a reader of some format found in a document: the values in document order,
together with the places at which a decoder may have to report something.  A text that stops being
well-formed still has a tree: it ends in a `broken` value or a `broken` ending that holds the
fault.  A decoder walks the tree in document order, so whichever it meets first, a fault of the
text or a value of the wrong shape, is the one it reports.

Objects keep repeated keys, and nothing is said here about what a document means.
-/

namespace Scaffold.Data

/-! ## Places and faults -/

/-- A place in a text: its line, from one, and the number of bytes of the line before it. -/
structure Position where
  line : Nat
  column : Nat
deriving DecidableEq, Repr, Inhabited

/-- The place one byte further on the same line. -/
def Position.next (p : Position) : Position := ⟨p.line, p.column + 1⟩

def Position.after (p : Position) (c : Char) : Position :=
  if c = '\n' then ⟨p.line + 1, 0⟩ else ⟨p.line, p.column + c.utf8Size⟩

/-- The place after the first byte of a character that starts at this place. -/
def Position.afterByte (p : Position) (c : Char) : Position :=
  if c = '\n' then ⟨p.line + 1, 0⟩ else p.next

def Position.origin : Position := ⟨1, 0⟩

inductive FaultKind where
  | endInList
  | endInObject
  | endInString
  | endInValue
  | expectedColon
  | expectedListSeparator
  | expectedObjectSeparator
  | expectedIdent
  | expectedValue
  | invalidEscape
  | invalidNumber
  | numberOutOfRange
  | controlCharacter
  | keyNotString
  | loneSurrogate
  | hexEscapeCut
  | trailingComma
  | trailingCharacters
  | nestedTooDeeply
deriving DecidableEq, Repr

/-- Whether the fault is that the text ended too early. -/
def FaultKind.atEnd : FaultKind → Bool
  | .endInList | .endInObject | .endInString | .endInValue => true
  | _ => false

def FaultKind.message : FaultKind → String
  | .endInList => "EOF while parsing a list"
  | .endInObject => "EOF while parsing an object"
  | .endInString => "EOF while parsing a string"
  | .endInValue => "EOF while parsing a value"
  | .expectedColon => "expected `:`"
  | .expectedListSeparator => "expected `,` or `]`"
  | .expectedObjectSeparator => "expected `,` or `\x7d`"
  | .expectedIdent => "expected ident"
  | .expectedValue => "expected value"
  | .invalidEscape => "invalid escape"
  | .invalidNumber => "invalid number"
  | .numberOutOfRange => "number out of range"
  | .controlCharacter =>
      "control character (\\u0000-\\u001F) found while parsing a string"
  | .keyNotString => "key must be a string"
  | .loneSurrogate => "lone leading surrogate in hex escape"
  | .hexEscapeCut => "unexpected end of hex escape"
  | .trailingComma => "trailing comma"
  | .trailingCharacters => "trailing characters"
  | .nestedTooDeeply => "recursion limit exceeded"

/-- A fault of the text and the place at which it is reported. -/
structure Fault where
  kind : FaultKind
  position : Position
deriving DecidableEq, Repr

/-! ## Trees -/

/-- A number of a document: whole numbers are kept exactly. -/
inductive Numeral where
  | integer (value : Int)
  | float (value : Double)
deriving DecidableEq, Repr

/-- Why a value is broken: there is none, it is a quoted text, or it is a bare word or number. -/
inductive Breakage where
  | absent
  | quoted
  | bare
deriving DecidableEq, Repr

/-- How a list or an object ends.  `stop` is where a reader that leaves it comes to stand;
`early` is the complaint of a reader that wanted it to end here, `strict` that of one that decodes
it and `loose` that of one that skips it. -/
inductive Ending where
  | closed (stop : Position)
  | broken (stop : Position) (early strict loose : Fault)
  | cut

/-- A key of an object.  `last` is the place behind it, and `stop` where a reader that leaves the
object after it comes to stand. -/
structure Key where
  text : Except Fault String
  last : Position
  stop : Position

/-- Where a reader that leaves the container comes to stand. -/
def Ending.stop : Ending → Position
  | .closed stop => stop
  | .broken stop _ _ _ => stop
  | .cut => default

mutual

/-- A value of a document.  `start` is the place before it and `stop` the place after it.  The
text of a string or number may be one that can be skipped but not decoded. -/
inductive Tree where
  | null (start stop : Position)
  | bool (start stop : Position) (value : Bool)
  | number (start stop : Position) (value : Except Fault Numeral)
  | string (start stop : Position) (value : Except Fault String)
  | list (start : Position) (nesting : Nat) (items : Items)
  | object (start : Position) (nesting : Nat) (members : Members)
  | broken (start : Position) (breakage : Breakage) (strict loose : Fault)

/-- The items of a list.  Each is preceded by what a reader finds that leaves the list before it:
the place and the complaint. -/
inductive Items where
  | done (ending : Ending)
  | more (stop : Position) (early : Fault) (value : Tree) (rest : Items)

/-- The members of an object.  `stop` is where a reader that leaves the object before the member
comes to stand. -/
inductive Members where
  | done (ending : Ending)
  | more (stop : Position) (key : Key) (value : Tree) (rest : Members)

end

/-- Where a reader that leaves the list here comes to stand. -/
def Items.stop : Items → Position
  | .done ending => ending.stop
  | .more stop _ _ _ => stop

/-- Where a reader that leaves the object here comes to stand. -/
def Members.stop : Members → Position
  | .done ending => ending.stop
  | .more stop _ _ _ => stop

/-- Where a reader that has read the whole object comes to stand. -/
def Members.close : Members → Position
  | .done ending => ending.stop
  | .more _ _ _ rest => rest.close

def Items.length : Items → Nat
  | .done _ => 0
  | .more _ _ _ rest => rest.length + 1

/-- Which reader made a tree; it settles the few questions on which the readers differ. -/
inductive Origin where
  | jsonText
  | jsonValue
  | toml
deriving DecidableEq, Repr

def nestingLimit : Nat := 128

/-- The complaint about a container that is nested too deeply. -/
def depthFault? (start : Position) (nesting : Nat) : Option Fault :=
  if nestingLimit ≤ nesting then some ⟨.nestedTooDeeply, start.next⟩ else none

/-- The fault of an ending for a reader that skips. -/
def Ending.looseFault? : Ending → Option Fault
  | .broken _ _ _ loose => some loose
  | _ => none

/-- The fault of an ending for a reader that decodes. -/
def Ending.strictFault? : Ending → Option Fault
  | .broken _ _ strict _ => some strict
  | _ => none

mutual

/-- The first fault met by a reader that skips the value. -/
def Tree.looseFault? : Tree → Option Fault
  | .null .. | .bool .. | .number .. | .string .. => none
  | .list _ _ items => items.looseFault?
  | .object _ _ members => members.looseFault?
  | .broken _ _ _ loose => some loose

def Items.looseFault? : Items → Option Fault
  | .done ending => ending.looseFault?
  | .more _ _ value rest => value.looseFault? <|> rest.looseFault?

def Members.looseFault? : Members → Option Fault
  | .done ending => ending.looseFault?
  | .more _ _ value rest => value.looseFault? <|> rest.looseFault?

end

/-- The fault of a token that can be skipped but not decoded. -/
def tokenFault? {α : Type} : Except Fault α → Option Fault
  | .error fault => some fault
  | .ok _ => none

mutual

/-- The first fault met by a reader that decodes the value, whatever its shape. -/
def Tree.strictFault? : Tree → Option Fault
  | .null .. | .bool .. => none
  | .number _ _ value => tokenFault? value
  | .string _ _ value => tokenFault? value
  | .list start nesting items => depthFault? start nesting <|> items.strictFault?
  | .object start nesting members => depthFault? start nesting <|> members.strictFault?
  | .broken _ _ strict _ => some strict

def Items.strictFault? : Items → Option Fault
  | .done ending => ending.strictFault?
  | .more _ _ value rest => value.strictFault? <|> rest.strictFault?

def Members.strictFault? : Members → Option Fault
  | .done ending => ending.strictFault?
  | .more _ key value rest => tokenFault? key.text <|> value.strictFault? <|> rest.strictFault?

end

/-! ## Repeated keys -/

def Members.keys : Members → List String
  | .done _ => []
  | .more _ key _ rest =>
      match key.text with
      | .ok text => text :: rest.keys
      | .error _ => rest.keys

end Scaffold.Data

import Scaffold.Data.Assoc
import Scaffold.Data.Tree
import Scaffold.Number.Double
import Scaffold.Number.Layout
import Scaffold.Text.Quoted

/-!
# Decoding trees

A decoder takes a tree to a value of the domain or to the first thing in document order that is
wrong with it.  The decoders of this module are the forms a document is made of: scalars, lists,
maps, records and variants.  A record may also be written as a list of its slots in order.

A failure is raised with or without a place.  One without a place means "after all of the value
that was asked for", and the container around it supplies the place where its reader stands then.
-/

namespace Scaffold.Data

/-! ## What can be wrong -/

/-- What is wrong with the shape of a value in a well-formed document. -/
inductive ShapeError where
  | invalidType (found expected : String)
  | invalidValue (found expected : String)
  | invalidLength (length : Nat) (expected : String)
  | unknownField (key : String) (known : List String)
  | duplicateField (key : String)
  | missingField (key : String)
  | unknownVariant (name : String) (known : List String)
  | noVariant (type : String)
  | refused (reason : String)
deriving DecidableEq, Repr

def ticked (name : String) : String := "`" ++ name ++ "`"

/-- Which names would have been right. -/
def oneOf (nothing : String) : List String → String
  | [] => nothing
  | [a] => "expected " ++ ticked a
  | [a, b] => "expected " ++ ticked a ++ " or " ++ ticked b
  | names => "expected one of " ++ String.intercalate ", " (names.map ticked)

def ShapeError.message : ShapeError → String
  | .invalidType found expected => s!"invalid type: {found}, expected {expected}"
  | .invalidValue found expected => s!"invalid value: {found}, expected {expected}"
  | .invalidLength length expected => s!"invalid length {length}, expected {expected}"
  | .unknownField key known =>
      "unknown field " ++ ticked key ++ ", " ++ oneOf "there are no fields" known
  | .duplicateField key => "duplicate field " ++ ticked key
  | .missingField key => "missing field " ++ ticked key
  | .unknownVariant name known =>
      "unknown variant " ++ ticked name ++ ", " ++ oneOf "there are no variants" known
  | .noVariant type => s!"data did not match any variant of untagged enum {type}"
  | .refused reason => reason

/-- What is wrong with a document: its text, or the shape of a value. -/
inductive Cause where
  | malformed (kind : FaultKind)
  | shape (error : ShapeError)
deriving DecidableEq, Repr

/-- Why decoding failed, and where; without a place, after all of the value that was asked for. -/
structure Failure where
  cause : Cause
  position : Option Position
deriving DecidableEq, Repr

namespace Failure

def ofFault (fault : Fault) : Failure := ⟨.malformed fault.kind, some fault.position⟩

def ofShape (error : ShapeError) : Failure := ⟨.shape error, none⟩

def placed (f : Failure) (p : Position) : Failure :=
  match f.position with
  | some _ => f
  | none => { f with position := some p }

def unplaced (f : Failure) : Failure := { f with position := none }

end Failure

abbrev Decoded (α : Type) := Except Failure α

def Decoded.placed {α : Type} (r : Decoded α) (p : Position) : Decoded α := r.mapError (·.placed p)

def fail {α : Type} (error : ShapeError) : Decoded α := .error (.ofShape error)

def failAt {α : Type} (p : Position) (error : ShapeError) : Decoded α :=
  .error ⟨.shape error, some p⟩

def faulty {α : Type} (fault : Fault) : Decoded α := .error (.ofFault fault)

def token {α : Type} : Except Fault α → Decoded α
  | .ok a => .ok a
  | .error fault => faulty fault

def noFault : Option Fault → Decoded Unit
  | some fault => faulty fault
  | none => .ok ()

/-! ## Values of the wrong type -/

/-- The whole numbers of 64 bits, with or without a sign. -/
def isWord64 (i : Int) : Bool := -(twoTo 63 : Int) ≤ i && i < twoTo 64

def describeNumeral (origin : Origin) : Numeral → String
  | .integer i =>
      if isWord64 i then s!"integer {ticked (toString i)}"
      else s!"integer {ticked (toString i)} as i128"
  | .float x =>
      let layout := match origin with
        | .toml => Layout.pointed
        | _ => Layout.document
      "floating point " ++ ticked (layout.write x)

/-- What stands where something else was expected. -/
def describe (origin : Origin) : Tree → String
  | .null .. => "null"
  | .bool _ _ b => if b then "boolean `true`" else "boolean `false`"
  | .number _ _ (.ok n) => describeNumeral origin n
  | .string _ _ (.ok s) => "string " ++ Text.quote s
  | .list .. => "sequence"
  | .object .. => "map"
  | _ => "nothing"

/-- The failure of a decoder that looks at a value of another type: a scalar is read first, a list
or an object is not entered. -/
def mismatch {α : Type} (origin : Origin) (expected : String) (t : Tree) : Decoded α :=
  let error := ShapeError.invalidType (describe origin t) expected
  match t with
  | .null _ stop | .bool _ stop _ => failAt stop error
  | .number _ stop value => do
      let _ ← token value
      failAt stop error
  | .string _ stop value => do
      let _ ← token value
      failAt stop error
  | .list start _ _ | .object start _ _ => failAt start error
  | .broken _ _ strict _ => faulty strict

/-- The failure of a decoder that takes values of several types: a list or an object is entered. -/
def mismatchEntered {α : Type} (origin : Origin) (expected : String) (t : Tree) : Decoded α :=
  let error := ShapeError.invalidType (describe origin t) expected
  match t with
  | .list start nesting items => do
      noFault (depthFault? start nesting)
      failAt items.stop error
  | .object start nesting members => do
      noFault (depthFault? start nesting)
      failAt members.stop error
  | _ => mismatch origin expected t

/-! ## Scalars -/

/-- A text; `expected` is what is asked for in a message. -/
def textAs (origin : Origin) (expected : String) : Tree → Decoded String
  | .string _ _ value => token value
  | t => mismatch origin expected t

def text (origin : Origin) : Tree → Decoded String := textAs origin "a string"

def flag (origin : Origin) : Tree → Decoded Bool
  | .bool _ _ b => .ok b
  | t => mismatch origin "a boolean" t

def double (origin : Origin) (t : Tree) : Decoded Double :=
  match t with
  | .number _ _ value => do
      match ← token value with
      | .float x => return x
      | .integer i => if isWord64 i then return Double.ofInt i else mismatch origin "f64" t
  | _ => mismatch origin "f64" t

def nullable {α : Type} (decode : Tree → Decoded α) : Tree → Decoded (Option α)
  | .null .. => .ok none
  | t => some <$> decode t

/-- A value that is kept until it is known what to do with it.  Whole numbers of more than 64 bits
cannot be kept. -/
def buffered (origin : Origin) (t : Tree) : Decoded Unit := do
  noFault t.strictFault?
  match t with
  | .number _ _ (.ok (.integer i)) => if isWord64 i then return else mismatch origin "any value" t
  | _ => return

def ignored (t : Tree) : Decoded Unit := noFault t.looseFault?

/-! ## Lists and maps -/

def walkItems {σ : Type} (step : σ → Tree → Decoded σ) : σ → Items → Decoded σ
  | s, .done ending => do
      noFault ending.strictFault?
      return s
  | s, .more _ _ value rest => do
      let s' ← (step s value).placed rest.stop
      walkItems step s' rest

/-- Reads the members of an object in order.  `step` looks at a key before its value is read. -/
def walkMembers {σ : Type} (step : σ → String → Except ShapeError (Tree → Decoded σ)) :
    σ → Members → Decoded σ
  | s, .done ending => do
      noFault ending.strictFault?
      return s
  | s, .more _ key value rest => do
      let name ← token key.text
      match step s name with
      | .error error => failAt key.stop error
      | .ok read =>
          let s' ← (read value).placed rest.stop
          walkMembers step s' rest

def list {α : Type} (origin : Origin) (decode : Tree → Decoded α) : Tree → Decoded (List α)
  | .list start nesting items => do
      noFault (depthFault? start nesting)
      let read ← walkItems (fun read t ↦ (· :: read) <$> decode t) [] items
      return read.reverse
  | t => mismatch origin "a sequence" t

/-- A map whose keys are all different, in document order. -/
def uniqueMap {α : Type} (origin : Origin) (decode : Tree → Decoded α) :
    Tree → Decoded (Assoc α)
  | .object start nesting members => do
      noFault (depthFault? start nesting)
      let step (read : Assoc α) (key : String) : Except ShapeError (Tree → Decoded (Assoc α)) :=
        if read.contains key then .error (.refused s!"duplicate key '{key}'")
        else .ok fun t ↦ read.insert key <$> decode t
      walkMembers step {} members
  | t => mismatch origin "a map with unique keys" t

/-! ## Records -/

/-- What becomes of a slot that a document leaves out.  A required one must be there.  An optional
one may be left out of an object, and one with a default also of a list. -/
inductive Presence where
  | required
  | optional
  | defaulted
deriving DecidableEq, Repr

/-- A named slot of a record under construction. -/
structure Slot (σ : Type) where
  key : String
  presence : Presence
  read : Tree → σ → Decoded σ

namespace Slot

variable {σ α : Type}

/-- A slot whose value must be there. -/
def required (key : String) (decode : Tree → Decoded α) (put : σ → α → σ) : Slot σ :=
  ⟨key, .required, fun t s ↦ put s <$> decode t⟩

/-- A slot that may be left out of an object or be null. -/
def optional (key : String) (decode : Tree → Decoded α) (put : σ → Option α → σ) : Slot σ :=
  ⟨key, .optional, fun t s ↦ put s <$> nullable decode t⟩

/-- A slot that may be left out or be null. -/
def omissible (key : String) (decode : Tree → Decoded α) (put : σ → Option α → σ) : Slot σ :=
  ⟨key, .defaulted, fun t s ↦ put s <$> nullable decode t⟩

/-- A slot that may be left out, but not be null. -/
def defaulted (key : String) (decode : Tree → Decoded α) (put : σ → α → σ) : Slot σ :=
  ⟨key, .defaulted, fun t s ↦ put s <$> decode t⟩

end Slot

/-- The record so far and the keys it was given. -/
structure Partial (σ : Type) where
  record : σ
  seen : List String

def recordStep {σ : Type} (slots : List (Slot σ)) (s : Partial σ) (key : String) :
    Except ShapeError (Tree → Decoded (Partial σ)) :=
  match slots.find? (·.key == key) with
  | none => .error (.unknownField key (slots.map (·.key)))
  | some slot =>
      if s.seen.contains key then .error (.duplicateField key)
      else .ok fun t ↦ (fun r ↦ ⟨r, key :: s.seen⟩) <$> slot.read t s.record

def recordMembers {σ : Type} (slots : List (Slot σ)) (init : σ) (members : Members) :
    Decoded σ := do
  let s ← walkMembers (recordStep slots) ⟨init, []⟩ members
  match slots.find? fun slot ↦ slot.presence == .required && !s.seen.contains slot.key with
  | some slot => failAt members.close (.missingField slot.key)
  | none => return s.record

def recordLength (name : String) (slots : Nat) : String :=
  if slots = 1 then s!"struct {name} with 1 element" else s!"struct {name} with {slots} elements"

/-- Reads the slots of a record in order, and gives the items that are left. -/
def readSlots {σ : Type} (length : String) : List (Slot σ) → Nat → σ → Items → Decoded (σ × Items)
  | [], _, s, items => .ok (s, items)
  | slot :: slots, i, s, .more _ _ value rest => do
      let s' ← (slot.read value s).placed rest.stop
      readSlots length slots (i + 1) s' rest
  | slot :: slots, i, s, .done ending => do
      noFault ending.strictFault?
      if slot.presence = .defaulted then readSlots length slots (i + 1) s (.done ending)
      else failAt ending.stop (.invalidLength i length)

def leaveItems (origin : Origin) (total : Nat) (left : Items) : Decoded Unit :=
  match origin, left with
  | _, .done (.closed _) | _, .done .cut => .ok ()
  | _, .done (.broken _ early _ _) => faulty early
  | .jsonText, .more _ early _ _ => faulty early
  | .jsonValue, .more .. => fail (.invalidLength total "fewer elements in array")
  | .toml, .more .. => .ok ()

def record {σ : Type} (origin : Origin) (name : String) (slots : List (Slot σ)) (init : σ) :
    Tree → Decoded σ
  | .object start nesting members => do
      noFault (depthFault? start nesting)
      recordMembers slots init members
  | .list start nesting items => do
      noFault (depthFault? start nesting)
      let (s, left) ← readSlots (recordLength name slots.length) slots 0 init items
      leaveItems origin items.length left
      return s
  | t => mismatch origin s!"struct {name}" t

/-! ## Variants -/

def Tree.start : Tree → Position
  | .null start _ | .bool start _ _ | .number start _ _ | .string start _ _ | .list start _ _
  | .object start _ _ | .broken start _ _ _ => start

def knownVariant (names : List String) (name : String) : Except ShapeError String :=
  if names.contains name then .ok name else .error (.unknownVariant name names)

/-- The null that may stand for the content of a variant without content. -/
def unit (origin : Origin) : Tree → Decoded Unit
  | .null .. => .ok ()
  | t => mismatch origin "unit" t

/-- The word for a type of value in a complaint about a table. -/
def typeWord : Tree → String
  | .bool .. => "boolean"
  | .number _ _ (.ok (.integer _)) => "integer"
  | .number .. => "float"
  | .string .. => "string"
  | .list .. => "array"
  | .object .. => "table"
  | _ => "value"

/-- A variant in the text of a JSON document: its name, or an object that maps it to null. -/
def variantInText (names : List String) : Tree → Decoded String
  | .string _ stop value => do
      let name ← token value
      match knownVariant names name with
      | .ok name => return name
      | .error error => failAt stop error
  | .object start nesting members => do
      noFault (depthFault? start nesting)
      match members with
      | .done (.closed stop) => faulty ⟨.expectedValue, stop⟩
      | .done ending => do
          noFault ending.strictFault?
          faulty ⟨.expectedValue, ending.stop⟩
      | .more _ key value rest => do
          let name ← token key.text
          match knownVariant names name with
          | .error error => failAt key.last error
          | .ok name =>
              unit .jsonText value
              match rest with
              | .done (.closed _) | .done .cut => return name
              | .done (.broken stop _ strict _) =>
                  faulty ⟨if strict.kind = .endInObject then .endInObject else .expectedValue, stop⟩
              | .more stop _ _ _ => faulty ⟨.expectedValue, stop⟩
  | .broken start .bare _ _ => faulty ⟨.expectedValue, start.next⟩
  | .broken _ _ strict _ => faulty strict
  | t => faulty ⟨.expectedValue, t.start.next⟩

def variantInValue (names : List String) : Tree → Decoded String
  | .string _ _ value => do
      let name ← token value
      match knownVariant names name with
      | .ok name => return name
      | .error error => fail error
  | .object _ _ (.more _ key value (.done _)) => do
      let name ← token key.text
      match knownVariant names name with
      | .error error => fail error
      | .ok name =>
          unit .jsonValue value
          return name
  | .object .. => fail (.invalidValue "map" "map with a single key")
  | t => fail (.invalidType (describe .jsonValue t) "string or map")

/-- A variant in a TOML document: its name, or a table that maps it to an empty list or table. -/
def variantInToml (names : List String) : Tree → Decoded String
  | .string _ _ value => do
      let name ← token value
      match knownVariant names name with
      | .ok name => return name
      | .error error => fail error
  | .object _ _ (.done _) => fail (.refused "wanted exactly 1 element, found 0 elements")
  | .object _ _ (.more _ key value (.done _)) => do
      let name ← token key.text
      match knownVariant names name with
      | .error error => fail error
      | .ok name =>
          match value with
          | .list _ _ (.done _) | .object _ _ (.done _) => return name
          | .list .. => fail (.refused "expected empty array")
          | .object .. => fail (.refused "expected empty table")
          | t => fail (.refused s!"expected table, found {typeWord t}")
  | .object .. => fail (.refused "wanted exactly 1 element, more than 1 element")
  | _ => fail (.refused "wanted string or table")

def variant : Origin → List String → Tree → Decoded String
  | .jsonText => variantInText
  | .jsonValue => variantInValue
  | .toml => variantInToml

end Scaffold.Data

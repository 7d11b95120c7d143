import Scaffold.Artifact.File
import Scaffold.Json.Scan
import Scaffold.Json.Value
import Scaffold.Manifest.Canonical
import Scaffold.Manifest.Patch
import Scaffold.Toml.Document

/-!
# Documents

Reading a manifest, an entity or a patch from the text of a document or from a JSON value, and what
is said when that fails.
-/

namespace Scaffold

open Data Json

/-! ## What is said of a failure -/

/-- Whether the text stops too early, is malformed otherwise, or is a document of another shape. -/
inductive Category where
  | early
  | malformed
  | shape
deriving DecidableEq, Repr

def Category.name : Category → String
  | .early => "eof"
  | .malformed => "syntax"
  | .shape => "data"

namespace Data.Cause

def category : Cause → Category
  | .malformed kind => if kind.atEnd then .early else .malformed
  | .shape _ => .shape

def message : Cause → String
  | .malformed kind => kind.message
  | .shape error => error.message

end Data.Cause

def Data.Failure.fullMessage (f : Failure) : String :=
  match f.position with
  | some p => s!"{f.cause.message} at line {p.line} column {p.column}"
  | none => f.cause.message

def bytesOfLines : Nat → List Char → Nat
  | 0, _ => 0
  | _, [] => 0
  | lines + 1, c :: cs =>
      c.utf8Size + bytesOfLines (if c = '\n' then lines else lines + 1) cs

/-- A stretch of bytes of a text. -/
structure Span where
  offset : Nat
  length : Nat
deriving DecidableEq, Repr

/-- The byte at an offset of a text.  At the end and beyond it the stretch is empty. -/
def Span.byteAt (source : String) (offset : Nat) : Span :=
  let start := min offset source.utf8ByteSize
  ⟨start, min (start + 1) source.utf8ByteSize - start⟩

/-- What a program does about a sum that is too large for a word of 64 bits: it stops there, or it
goes on with what is left of the sum in a word.  That depends on how the program was built. -/
inductive Overflow where
  | stops
  | wraps
deriving DecidableEq, Repr

/-- The sum of two words, unless the program stops. -/
def Overflow.add (o : Overflow) (a b : UInt64) : Option UInt64 :=
  if o = .stops ∧ UInt64.size ≤ a.toNat + b.toNat then none else some (a + b)

def wordBefore (a : UInt64) : UInt64 := if a = 0 then 0 else a - 1

/-- The byte that a line and a column, both from one, point at, unless the program stops.  There is
none for line zero. -/
def spanAt (o : Overflow) (source : String) (line column : UInt64) : Option (Option Span) :=
  if line = 0 then some none
  else
    let lineStart := UInt64.ofNat (bytesOfLines (line.toNat - 1) source.toList)
    (o.add lineStart (wordBefore column)).map fun offset ↦ some (.byteAt source offset.toNat)

/-! ## Errors -/

/-- Why there is no manifest, entity or patch. -/
inductive DocumentError where
  | json (name source : String) (failure : Failure)
  | toml (category : Category) (message : String)
  | value (what : String) (cause : Cause)
  | unreadable (path reason : String)
  | unsupported (path : String)

namespace DocumentError

/-- The kind of error as a word that programs can look for. -/
def code : DocumentError → String
  | .json .. | .toml .. => "loam::parse_error"
  | .value .. => "loam::invalid_value"
  | .unreadable .. => "loam::io"
  | .unsupported _ => "loam::unsupported_format"

def reasons : DocumentError → Reasons
  | .json _ _ failure => ["failed to parse JSON manifest", failure.fullMessage]
  | .toml _ message => ["failed to parse TOML manifest", message]
  | .value what cause => [s!"invalid {what}", cause.message]
  | .unreadable path reason => [s!"failed to read '{path}'", reason]
  | .unsupported path => [s!"unsupported manifest format '{path}'"]

def help? : DocumentError → Option String
  | .unsupported _ => some "manifest files must end in .json or .toml"
  | _ => none

end DocumentError

/-- The stretch of text that a failed JSON document is reported at. -/
def jsonSpan (source : String) (failure : Failure) : Option Span :=
  match failure.position with
  | some p => (spanAt .wraps source (.ofNat p.line) (.ofNat p.column)).join
  | none => none

/-- What was asked of a document, or why it was not got. -/
abbrev Read (α : Type) := Except DocumentError α

/-! ## JSON -/

/-- Decodes a JSON text and then asks that nothing follow the value. -/
def decodeText {α : Type} (decode : Tree → Decoded α) (source : String) : Decoded α := do
  let document := Document.read source
  let value ← decode document.root
  noFault document.trailing
  return value

def readJsonAs {α : Type} (decode : Tree → Decoded α) (name source : String) : Read α :=
  (decodeText decode source).mapError (.json name source)

def Manifest.ofJsonNamed (name source : String) : Read Manifest :=
  readJsonAs (decodeManifest .jsonText) name source

def Manifest.ofJson (source : String) : Read Manifest := Manifest.ofJsonNamed "loam.json" source

/-- The entity of a JSON document. That it names itself is asked once the document is read. -/
def Entity.ofJson (source : String) : Read Entity := do
  let draft ← readJsonAs (decodeEntityDraft .jsonText) "entity.json" source
  match draft.named with
  | .ok entity => return entity
  | .error error => throw (.json "entity.json" source (.ofShape error))

def EntityPatch.ofJson (source : String) : Read EntityPatch :=
  readJsonAs (decodePatch .jsonText) "patch.json" source

/-! ## TOML -/

/-- The manifest of a TOML document.  The whole text is read before its shape is looked at. -/
def Manifest.ofToml (source : String) : Read Manifest :=
  match Toml.read? source with
  | none => .error (.toml .malformed "")
  | some tree =>
      (decodeManifest .toml tree).mapError fun failure ↦
        .toml failure.cause.category failure.cause.message

/-! ## JSON values -/

def Json.Value.ofText (source : String) : Decoded Value :=
  decodeText (fun t ↦ token (Value.ofTree t)) source

def readValueAs {α : Type} (what : String) (decode : Tree → Decoded α) (value : Value) : Read α :=
  (decode value.toTree).mapError fun failure ↦ .value what failure.cause

def Entity.ofValue (value : Value) : Read Entity :=
  readValueAs "entity" (decodeEntity .jsonValue) value

def EntityPatch.ofValue (value : Value) : Read EntityPatch :=
  readValueAs "entity patch" (decodePatch .jsonValue) value

end Scaffold

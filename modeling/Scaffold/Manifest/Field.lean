import Scaffold.Number.Layout
import Scaffold.Text.Quoted

/-!
# Fields

A field has one of six types, may be required or unique, may have a default, and carries the rules
its input has to meet.  What is left unset is decided later, so `none` differs from an explicit
value.
-/

namespace Scaffold

/-- The closed set of field types. -/
inductive FieldKind where
  | text
  | number
  | boolean
  | date
  | enum (values : List String)
  | computed (sourceFields : List String) (expression : String)
deriving DecidableEq, Repr

namespace FieldKind

def typeName : FieldKind → String
  | .text => "text"
  | .number => "number"
  | .boolean => "boolean"
  | .date => "date"
  | .enum _ => "enum"
  | .computed .. => "computed"

def isComputed : FieldKind → Bool
  | .computed .. => true
  | _ => false

end FieldKind

/-- A rule for the input of a field.  Bounds limit the length of a text and the value of a
number. -/
inductive Rule where
  | email
  | url
  | regex (pattern : String)
  | min (bound : Double)
  | max (bound : Double)
  | integer
  | positive
deriving DecidableEq, BEq, Repr

namespace Rule

def name : Rule → String
  | .email => "email"
  | .url => "url"
  | .regex _ => "regex"
  | .min _ => "min"
  | .max _ => "max"
  | .integer => "integer"
  | .positive => "positive"

def isTextOnly : Rule → Bool
  | .email | .url | .regex _ => true
  | _ => false

def isNumberOnly : Rule → Bool
  | .integer | .positive => true
  | _ => false

end Rule

inductive Literal where
  | text (value : String)
  | integer (value : Int)
  | float (value : Double)
  | flag (value : Bool)
deriving DecidableEq, BEq, Repr

def Literal.code : Literal → String
  | .text s => Text.quote s
  | .integer i => toString i
  | .float x => Layout.plain.write x
  | .flag b => if b then "true" else "false"

/-- A field of an entity or of a junction table. -/
structure Field where
  kind : FieldKind
  required : Option Bool := none
  unique : Option Bool := none
  default : Option Literal := none
  rules : List Rule := []
deriving DecidableEq, BEq, Repr

namespace Field

def isRequired (f : Field) : Bool := f.required.getD true

def isUnique (f : Field) : Bool := f.unique.getD false

/-- Computed fields have no storage and never appear in inputs. -/
def isComputed (f : Field) : Bool := f.kind.isComputed

end Field

end Scaffold

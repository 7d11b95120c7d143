import Scaffold.Manifest.Field

/-!
# Fields as they are written

A document may write a field with shorthands: `optional` for the opposite of `required`, and rules
as members of their own.  `FieldDraft.settle` turns such a draft into a field.
-/

namespace Scaffold

structure FieldDraft where
  type : String := ""
  required : Option Bool := none
  optional : Option Bool := none
  unique : Option Bool := none
  default : Option Literal := none
  values : Option (List String) := none
  sourceFields : Option (List String) := none
  expression : Option String := none
  rules : List Rule := []
  email : Option Bool := none
  url : Option Bool := none
  regex : Option String := none
  min : Option Double := none
  max : Option Double := none
  integer : Option Bool := none
  positive : Option Bool := none
deriving DecidableEq, Repr

inductive FieldError where
  | unknownType (type : String)
  | enumWithoutValues
  | computedWithoutSources
  | computedWithoutExpression
  | strayValues
  | strayComputation
  | contradiction
deriving DecidableEq, Repr

def FieldError.message : FieldError → String
  | .unknownType type =>
      s!"unknown field type '{type}', expected one of: " ++
        "text, number, boolean, date, enum, computed"
  | .enumWithoutValues => "enum fields require 'values'"
  | .computedWithoutSources => "computed fields require 'sourceFields'"
  | .computedWithoutExpression => "computed fields require 'expression'"
  | .strayValues => "'values' is only allowed on enum fields"
  | .strayComputation => "'sourceFields' and 'expression' are only allowed on computed fields"
  | .contradiction => "'required' and 'optional' contradict each other"

namespace FieldDraft

def kind (d : FieldDraft) : Except FieldError FieldKind :=
  match d.type with
  | "text" => .ok .text
  | "number" => .ok .number
  | "boolean" => .ok .boolean
  | "date" => .ok .date
  | "enum" =>
      match d.values with
      | some values => .ok (.enum values)
      | none => .error .enumWithoutValues
  | "computed" =>
      match d.sourceFields, d.expression with
      | none, _ => .error .computedWithoutSources
      | some _, none => .error .computedWithoutExpression
      | some sources, some expression => .ok (.computed sources expression)
  | type => .error (.unknownType type)

def stray (d : FieldDraft) : Except FieldError Unit :=
  if d.type != "enum" && d.values.isSome then .error .strayValues
  else if d.type != "computed" && (d.sourceFields.isSome || d.expression.isSome) then
    .error .strayComputation
  else .ok ()

/-- Whether the field is required, from either of the two ways to say it. -/
def requirement (d : FieldDraft) : Except FieldError (Option Bool) :=
  match d.required, d.optional with
  | some required, some optional =>
      if required = optional then .error .contradiction else .ok (some required)
  | some required, none => .ok (some required)
  | none, some optional => .ok (some !optional)
  | none, none => .ok none

def switched (rule : Rule) (switch : Option Bool) : List Rule :=
  if switch = some true then [rule] else []

/-- The rules written as members of their own, in a fixed order. -/
def shorthands (d : FieldDraft) : List Rule :=
  switched .email d.email ++ switched .url d.url ++ d.regex.toList.map .regex ++
    d.min.toList.map .min ++ d.max.toList.map .max ++ switched .integer d.integer ++
    switched .positive d.positive

def settle (d : FieldDraft) : Except FieldError Field := do
  let kind ← d.kind
  d.stray
  let required ← d.requirement
  return { kind, required, unique := d.unique, default := d.default,
           rules := d.rules ++ d.shorthands }

end FieldDraft

end Scaffold

import Scaffold.Data.Assoc
import Scaffold.Diagnosis.Finding

/-!
# Fields

Rules, values, defaults and sources have to suit the type of a field.  Bounds limit the length of a
text, and are then whole numbers from zero up, or the value of a number.
-/

namespace Scaffold.Lint

variable [Pattern.Checker]

def isApplicable (kind : FieldKind) : Rule → Bool
  | .email | .url | .regex _ => kind = .text
  | .integer | .positive => kind = .number
  | .min _ | .max _ => kind = .text || kind = .number

def isBound (kind : FieldKind) (bound : Double) : Bool :=
  bound.isFinite && (kind != .text || (!bound.lt Double.zero && bound.isWhole))

def rule (place : FieldPlace) (kind : FieldKind) (r : Rule) (index : Nat) : List Finding :=
  if !isApplicable kind r then [.ruleMisplaced place index r kind]
  else match r with
    | .regex pattern =>
        match Pattern.Checker.problem? pattern with
        | some problem => [.patternInvalid place index pattern problem]
        | none => []
    | .min bound | .max bound =>
        if isBound kind bound then [] else [.boundInvalid place index r bound kind]
    | _ => []

def firstMin? (kind : FieldKind) (rules : List Rule) : Option Double :=
  rules.findSome? fun
    | .min bound =>
        if isApplicable kind (.min bound) && isBound kind bound then some bound else none
    | _ => none

def firstMax? (kind : FieldKind) (rules : List Rule) : Option Double :=
  rules.findSome? fun
    | .max bound =>
        if isApplicable kind (.max bound) && isBound kind bound then some bound else none
    | _ => none

def crossedBounds (place : FieldPlace) (f : Field) : List Finding :=
  match firstMin? f.kind f.rules, firstMax? f.kind f.rules with
  | some least, some most => if least.gt most then [.boundsCrossed place least most] else []
  | _, _ => []

def rules (place : FieldPlace) (f : Field) : List Finding :=
  (f.rules.zipIdx.flatMap fun p ↦ rule place f.kind p.1 p.2) ++ crossedBounds place f

def repeatedValues (place : FieldPlace) (values : List String) : List Finding :=
  (repeats Prod.fst values.zipIdx).map fun p ↦ .enumRepeated place p.1.2 p.1.1

def enumValues (place : FieldPlace) (f : Field) : List Finding :=
  match f.kind with
  | .enum values => if values.isEmpty then [.enumEmpty place] else repeatedValues place values
  | _ => []

def defaultProblem? (place : FieldPlace) (kind : FieldKind) (value : Literal) : Option Finding :=
  match kind, value with
  | .computed .., _ => some (.defaultOnComputed place)
  | .text, .text _ | .date, .text _ => none
  | .number, .integer _ | .number, .float _ => none
  | .boolean, .flag _ => none
  | .enum values, .text s => if values.contains s then none else some (.defaultNoValue place s)
  | kind, value => some (.defaultMistyped place value kind)

def default (place : FieldPlace) (f : Field) : List Finding :=
  (f.default.bind (defaultProblem? place f.kind)).toList

def sourceFieldProblem? (place : FieldPlace) (siblings : Assoc Field) (source : String)
    (index : Nat) : Option Finding :=
  match Assoc.get? siblings source with
  | none => some (.sourceFieldMissing place index source)
  | some f => if f.isComputed then some (.sourceFieldComputed place index source) else none

def sourceFields (place : FieldPlace) (siblings : Assoc Field) (f : Field) : List Finding :=
  match f.kind with
  | .computed sources _ =>
      sources.zipIdx.filterMap fun p ↦ sourceFieldProblem? place siblings p.1 p.2
  | _ => []

def field (owner : FieldsOf) (siblings : Assoc Field) (name : String) (f : Field) :
    List Finding :=
  let place : FieldPlace := ⟨owner, name⟩
  rules place f ++ enumValues place f ++ default place f ++ sourceFields place siblings f

def fieldMap (owner : FieldsOf) (fields : Assoc Field) : List Finding :=
  fields.entries.flatMap fun f ↦ field owner fields f.1 f.2

/-- All that is wrong with the fields of entities and of junction tables. -/
def fields (m : Manifest) : List Finding :=
  m.entities.flatMap fun e ↦
    fieldMap (.entity e.name) e.fields ++
      e.relations.entries.flatMap fun r ↦
        fieldMap (.pivot e.name r.1) ((r.2.pivot.map Pivot.fields).getD {})

end Scaffold.Lint

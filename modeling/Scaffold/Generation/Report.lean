import Scaffold.Apply.Plan
import Scaffold.Diagnosis.Diagnostic
import Scaffold.Manifest.Canonical
import Scaffold.Template.Registry

/-!
# Reports of generation runs
-/

namespace Scaffold

open Json

structure GenerateOptions where
  /-- The output directory. -/
  output : String
  /-- Whether nothing is to be written. -/
  dryRun : Bool := false
deriving DecidableEq, Repr

/-- Why a run comes to nothing. -/
inductive RunError where
  /-- A phase or plugin fails. -/
  | pipeline (reasons : Reasons)
  | invalid (validation : Validation)
  /-- The pipeline leaves no blueprint. -/
  | noBlueprint (validation : Validation)
  | selection (validation : Validation) (error : SelectionError)
  /-- The template fails, or its files cannot be applied. -/
  | template (validation : Validation) (reference : String) (reasons : Reasons)
deriving DecidableEq, Repr

namespace RunError

def messages : RunError → List String
  | .pipeline reasons => [reasons.chain]
  | .invalid v => v.errors.map Diagnostic.display
  | .noBlueprint _ => ["pipeline produced no resolved manifest"]
  | .selection _ e => [e.message]
  | .template _ _ reasons => [reasons.chain]

/-- What is known about the manifest; after the failure of a pipeline, nothing. -/
def validation : RunError → Validation
  | .pipeline _ => {}
  | .invalid v | .noBlueprint v | .selection v _ | .template v _ _ => v

def template? : RunError → Option String
  | .template _ reference _ => some reference
  | _ => none

end RunError

structure Generated where
  /-- The template by name and version. -/
  template : String
  files : List GeneratedFile
  applied : ApplyReport
  validation : Validation
deriving DecidableEq, Repr

structure GenerationReport where
  dryRun : Bool
  result : Except RunError Generated

namespace GenerationReport

def success (r : GenerationReport) : Bool := r.result.toBool

def template? (r : GenerationReport) : Option String :=
  match r.result with
  | .ok g => some g.template
  | .error e => e.template?

/-- The files of a run; a failed run has none. -/
def files (r : GenerationReport) : List GeneratedFile :=
  match r.result with
  | .ok g => g.files
  | .error _ => []

def applied (r : GenerationReport) : ApplyReport :=
  match r.result with
  | .ok g => g.applied
  | .error _ => {}

def errors (r : GenerationReport) : List String :=
  match r.result with
  | .ok _ => []
  | .error e => e.messages

def validation (r : GenerationReport) : Validation :=
  match r.result with
  | .ok g => g.validation
  | .error e => e.validation

/-- The report as a document.  A run without errors does not mention them. -/
def toJson (r : GenerationReport) : Value :=
  let strings (l : List String) : Value := .array (l.map .string)
  .object <| [("success", .bool r.success), ("dryRun", .bool r.dryRun)] ++
    member? "template" r.template? .string ++
    [("files", .array (r.files.map fun f ↦
        .object [("path", .string f.path), ("content", .string f.content)])),
      ("written", strings r.applied.written), ("unchanged", strings r.applied.unchanged),
      ("skipped", strings r.applied.skipped)] ++
    (if r.errors.isEmpty then [] else [("errors", strings r.errors)]) ++
    [("validation", r.validation.toJson)]

end GenerationReport

end Scaffold

import Scaffold.Apply.Commit
import Scaffold.Generation.Report
import Scaffold.Pipeline.Basic

/-!
# Generation

A run compiles a manifest, lets a template make files from the blueprint and applies them to the
output directory.  Only a valid manifest reaches a template, and a failed run writes nothing there.
How templates are called is left open, so that the calls of a run can be followed; a template that
is a mere function is called by `Template.generate`.
-/

namespace Scaffold

/-- A manifest that has passed its pipeline. -/
structure Compiled where
  blueprint : Blueprint
  validation : Validation
deriving DecidableEq, Repr

/-- What a finished pipeline comes to. -/
def Context.compiled (c : Context) : Except RunError Compiled :=
  if c.validation.valid then
    match c.blueprint with
    | some blueprint => .ok ⟨blueprint, c.validation⟩
    | none => .error (.noBlueprint c.validation)
  else .error (.invalid c.validation)

namespace Pipeline

def compile {σ : Type} (p : Pipeline σ) (m : Manifest) (world : σ) : Except RunError Compiled × σ :=
  let outcome := p.run m world
  match outcome.result with
  | .ok c => (c.compiled, outcome.world)
  | .error reasons => (.error (.pipeline reasons), outcome.world)

end Pipeline

/-- Applies files to the disk, or finds out what that would do. -/
def applyFiles (o : GenerateOptions) (files : List GeneratedFile) (d : Disk) :
    Disk × Except Reasons ApplyReport :=
  match Plan.make d o.output files with
  | .error reasons => (d, .error reasons)
  | .ok plan => if o.dryRun then (d, .ok plan.report) else plan.commit d

/-- A way to call templates, in the course of which there may be effects. -/
abbrev Calling (M : Type → Type) := Template → Blueprint → M (Except Reasons (List GeneratedFile))

namespace Template

/-- What a run comes to once the template has answered. -/
def conclude (t : Template) (c : Compiled) (o : GenerateOptions) (d : Disk) :
    Except Reasons (List GeneratedFile) → Except RunError Generated × Disk
  | .error reasons => (.error (.template c.validation t.reference reasons), d)
  | .ok files =>
      match applyFiles o files d with
      | (d, .ok applied) => (.ok ⟨t.reference, files, applied, c.validation⟩, d)
      | (d, .error reasons) => (.error (.template c.validation t.reference reasons), d)

/-- Lets a template make its files and applies them. -/
def renderM {M : Type → Type} [Monad M] (call : Calling M) (t : Template) (c : Compiled)
    (o : GenerateOptions) (d : Disk) : M (Except RunError Generated × Disk) := do
  return t.conclude c o d (← call t c.blueprint)

end Template

namespace Manifest

section

variable {M : Type → Type} [Monad M] (call : Calling M)

/-- Compiles the manifest and hands the blueprint to a template that may depend on it. -/
def generateByM (m : Manifest) (p : Pipeline Disk) (choose : Compiled → Except RunError Template)
    (o : GenerateOptions) (d : Disk) : M (GenerationReport × Disk) := do
  let (result, d) ← match p.compile m d with
    | (.error e, d) => pure (.error e, d)
    | (.ok c, d) =>
        match choose c with
        | .error e => pure (.error e, d)
        | .ok t => t.renderM call c o d
  return (⟨o.dryRun, result⟩, d)

def generateWithM (m : Manifest) (p : Pipeline Disk) (t : Template) (o : GenerateOptions)
    (d : Disk) : M (GenerationReport × Disk) :=
  m.generateByM call p (fun _ ↦ .ok t) o d

def generateM [Pattern.Checker] (m : Manifest) (t : Template) (o : GenerateOptions) (d : Disk) :
    M (GenerationReport × Disk) :=
  m.generateWithM call .builtIn t o d

def generateFromM [Pattern.Checker] (m : Manifest) (r : Registry) (o : GenerateOptions) (d : Disk) :
    M (GenerationReport × Disk) :=
  m.generateByM call .builtIn
    (fun c ↦ (r.select c.blueprint.template).mapError (.selection c.validation)) o d

end

def generateWith (m : Manifest) (p : Pipeline Disk) (t : Template) (o : GenerateOptions)
    (d : Disk) : GenerationReport × Disk :=
  Id.run (m.generateWithM Template.generate p t o d)

def generate [Pattern.Checker] (m : Manifest) (t : Template) (o : GenerateOptions) (d : Disk) :
    GenerationReport × Disk :=
  Id.run (m.generateM Template.generate t o d)

def generateFrom [Pattern.Checker] (m : Manifest) (r : Registry) (o : GenerateOptions) (d : Disk) :
    GenerationReport × Disk :=
  Id.run (m.generateFromM Template.generate r o d)

end Manifest

namespace Disk

/-- Writes a snapshot into a directory, under the name of its phase. -/
def keepSnapshot (directory : String) (s : Snapshot) (d : Disk) : Except Reasons Unit × Disk :=
  match d.createTree directory with
  | (d, .error e) => (.error [e.message], d)
  | (d, .ok ()) =>
      match d.write (Path.join directory (s.phase ++ ".json")) s.toJson.pretty.toUTF8 with
      | .ok d => (.ok (), d)
      | .error e => (.error [e.message], d)

end Disk

end Scaffold

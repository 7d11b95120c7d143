import Scaffold.Template.Basic
import Scaffold.Text.Basic
import Scaffold.Text.Quoted

/-!
# Registries

Templates are registered under their names and versions and selected by a reference, which is a name
or a name and a version with `@` between them.
-/

namespace Scaffold

structure Registry where
  templates : List Template := []

inductive SelectionError where
  | badVersion (reference : String) (reason : VersionError)
  | notFound (reference : String) (available : List String)
deriving DecidableEq, Repr

def SelectionError.message : SelectionError → String
  | .badVersion reference reason =>
      s!"invalid template reference '{reference}': {reason.message}"
  | .notFound reference [] => s!"template '{reference}' not found: no templates registered"
  | .notFound reference available =>
      s!"template '{reference}' not found, available: " ++ ", ".intercalate available

structure TemplateReference where
  name : String
  version : Option Version
deriving DecidableEq, Repr

namespace TemplateReference

/-- Reads a reference; the version is what follows the first `@`. -/
def parse (reference : String) : Except VersionError TemplateReference :=
  let cs := reference.toList
  let name := String.ofList (cs.takeWhile (· ≠ '@'))
  match cs.dropWhile (· ≠ '@') with
  | [] => .ok ⟨name, none⟩
  | _ :: version => (Version.parse (String.ofList version)).map fun v ↦ ⟨name, some v⟩

def accepts (r : TemplateReference) (t : Template) : Bool :=
  t.name == r.name && r.version.all t.version.isCompatible

end TemplateReference

namespace Registry

/-- The name of the template that is meant where none is named. -/
def defaultReference : String := "basic"

def names (r : Registry) : List String := r.templates.map Template.reference

def isEmpty (r : Registry) : Bool := r.templates.isEmpty

/-- The later one of two templates, by version; of equal versions, the second. -/
def later (best : Option Template) (t : Template) : Option Template :=
  match best with
  | none => some t
  | some b => if t.version.compare b.version = .lt then some b else some t

/-- The template of the highest version, and of equal ones the last. -/
def newest? (templates : List Template) : Option Template := templates.foldl later none

def select (r : Registry) (reference : Option String) : Except SelectionError Template :=
  let reference := Text.trim (reference.getD defaultReference)
  match TemplateReference.parse reference with
  | .error e => .error (.badVersion reference e)
  | .ok wanted =>
      match newest? (r.templates.filter wanted.accepts) with
      | some t => .ok t
      | none => .error (.notFound reference r.names)

def summary (r : Registry) : String :=
  "TemplateRegistry \x7b templates: [" ++ ", ".intercalate (r.names.map Text.quote) ++ "] \x7d"

end Registry

end Scaffold

import Scaffold.Blueprint.Document
import Scaffold.Diagnosis.Validate

/-!
# The state of a compilation
-/

namespace Scaffold

open Json

/-- What is known about a manifest in the course of its compilation. -/
structure Context where
  manifest : Manifest
  normal : Option Manifest := none
  blueprint : Option Blueprint := none
  diagnostics : List Diagnostic := []
deriving DecidableEq, Repr

namespace Context

def ofManifest (m : Manifest) : Context := { manifest := m }

def current (c : Context) : Manifest := c.normal.getD c.manifest

def errors (c : Context) : List Diagnostic := c.diagnostics.filter (·.isError)

def warnings (c : Context) : List Diagnostic := c.diagnostics.filter (!·.isError)

def hasErrors (c : Context) : Bool := c.diagnostics.any (·.isError)

def hasWarnings (c : Context) : Bool := c.diagnostics.any (!·.isError)

def validation (c : Context) : Validation := .ofDiagnostics c.diagnostics

def add (c : Context) (d : Diagnostic) : Context :=
  { c with diagnostics := c.diagnostics ++ [d] }

end Context

/-- The state of a compilation after a phase. -/
structure Snapshot where
  phase : String
  normal : Option Manifest
  blueprint : Option Blueprint
  diagnostics : List Diagnostic
deriving DecidableEq, Repr

namespace Snapshot

def ofContext (phase : String) (c : Context) : Snapshot :=
  ⟨phase, c.normal, c.blueprint, c.diagnostics⟩

def toJson (s : Snapshot) : Value :=
  .object <| ("phase", .string s.phase) :: member? "normalized" s.normal Manifest.toJson ++
    member? "resolved" s.blueprint Blueprint.toJson ++
    [("diagnostics", .array (s.diagnostics.map Diagnostic.toJson))]

end Snapshot

end Scaffold

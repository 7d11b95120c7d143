import Scaffold.Lint.Configuration
import Scaffold.Lint.Fields
import Scaffold.Lint.Names
import Scaffold.Lint.Relations

/-!
# Validation

A manifest is validated in normal form by a list of lints, each of which looks at one class of
rules.  A lint only reports; whether anything is blocked follows from the codes.
-/

namespace Scaffold

/-- A check with a name, for a manifest in normal form. -/
structure Lint where
  name : String
  description : String
  check : Manifest → List Diagnostic

variable [Pattern.Checker]

namespace Lint

def ofFindings (name description : String) (find : Manifest → List Finding) : Lint :=
  ⟨name, description, fun m ↦ (find m).map Finding.diagnostic⟩

def namingLint : Lint :=
  ofFindings "naming" "Check entity, field and relation names follow casing conventions" names

def duplicatesLint : Lint :=
  ofFindings "duplicates" "Detect duplicate entities, fields, columns and tables" duplicates

def relationsLint : Lint :=
  ofFindings "relations" "Check relation targets exist and pivot definitions agree" relations

def configurationLint : Lint :=
  ofFindings "configuration" "Check database, auth, source, locale and tenancy configuration"
    configuration

def fieldRulesLint : Lint :=
  ofFindings "field-rules"
    "Check validations, enum values, defaults and computed fields against field types" fields

def advisoryLint : Lint :=
  ofFindings "advisory" "Warn about empty manifests, empty entities and unused configuration"
    advice

def builtIn : List Lint :=
  [namingLint, duplicatesLint, relationsLint, configurationLint, fieldRulesLint, advisoryLint]

def run (lints : List Lint) (m : Manifest) : List Diagnostic := lints.flatMap (·.check m)

end Lint

def Manifest.validate (m : Manifest) : Validation :=
  .ofDiagnostics (Lint.run Lint.builtIn m.normalize)

end Scaffold

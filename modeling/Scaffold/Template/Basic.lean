import Scaffold.Artifact.File
import Scaffold.Blueprint.Basic
import Scaffold.Version

/-!
# Templates

A template makes files from a blueprint.  It may fail, with a chain of reasons from the outermost
inwards.
-/

namespace Scaffold

structure Template where
  name : String
  version : Version
  generate : Blueprint → Except Reasons (List GeneratedFile)

namespace Template

def reference (t : Template) : String := s!"{t.name}@{t.version.toText}"

/-- Files for every record, in the order of the records.  The first failure is the failure of
all. -/
def perRecord (b : Blueprint) (files : Record → Except Reasons (List GeneratedFile)) :
    Except Reasons (List GeneratedFile) := do
  return (← b.records.mapM files).flatten

end Template

end Scaffold

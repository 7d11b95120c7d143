import Scaffold.Diagnosis.Diagnostic
import Scaffold.Manifest.Canonical

/-!
# Replies

What a session answers to a call.  A failure is a reply like any other.
-/

namespace Scaffold

open Json

structure Reply where
  success : Bool
  message : String
  data : Option Value := none
  errors : Option (List Diagnostic) := none

namespace Reply

def done (message : String) : Reply := { success := true, message }

def refused (message : String) : Reply := { success := false, message }

/-- A refusal for one reason, whose message is also that of the reply. -/
def rejected (d : Diagnostic) : Reply :=
  { success := false, message := d.message, errors := some [d] }

def withData (r : Reply) (data : Value) : Reply := { r with data := some data }

def withErrors (r : Reply) (errors : List Diagnostic) : Reply := { r with errors := some errors }

def errorCodes (r : Reply) : List String := (r.errors.getD []).map (·.code.name)

def toJson (r : Reply) : Value :=
  .object <| [("success", .bool r.success), ("message", .string r.message)] ++
    member? "data" r.data id ++
    member? "errors" r.errors fun l ↦ .array (l.map Diagnostic.toJson)

end Reply

end Scaffold

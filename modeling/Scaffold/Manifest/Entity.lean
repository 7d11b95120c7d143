import Scaffold.Manifest.Relation
import Scaffold.Manifest.Settings

/-!
# Entities

An entity is a named type of data with fields and relations.  Its behaviors are three switches,
each of which may be left unset; its protection says which operations need a signed-in user.
-/

namespace Scaffold

/-- Three switches, each on, off or unset. -/
structure Behaviors where
  timestamps : Option Bool := none
  softDelete : Option Bool := none
  audit : Option Bool := none
deriving DecidableEq, Repr

namespace Behaviors

def unset : Behaviors := {}

/-- The setting of a switch that nobody set. -/
def builtIn : Behaviors := ⟨some true, some false, some false⟩

def isUnset (b : Behaviors) : Bool := b == unset

/-- Fills the unset switches from another value. -/
def orElse (b fallback : Behaviors) : Behaviors :=
  ⟨b.timestamps <|> fallback.timestamps, b.softDelete <|> fallback.softDelete,
    b.audit <|> fallback.audit⟩

def keepsTimestamps (b : Behaviors) : Bool := b.timestamps.getD true

def deletesSoftly (b : Behaviors) : Bool := b.softDelete.getD false

def isAudited (b : Behaviors) : Bool := b.audit.getD false

end Behaviors

/-- Which operations need a signed-in user. -/
abbrev Protection := PerOperation Bool

namespace Protection

def all : Protection := PerOperation.const true

def none : Protection := PerOperation.const false

/-- Reading is public, writing is not. -/
def write : Protection := ⟨false, false, true, true, true⟩

def isAny (p : Protection) : Bool := Operation.all.any p.ofOperation

end Protection

structure Entity where
  name : String
  /-- The storage table, where the derived one does not fit. -/
  table : Option String := none
  fields : Assoc Field := {}
  relations : Assoc Relation := {}
  behaviors : Behaviors := {}
  protection : Option Protection := none
  source : Option Source := none
deriving DecidableEq, BEq, Repr

namespace Entity

/-- The protection that holds, which is none where it is unset. -/
def effectiveProtection (e : Entity) : Protection := e.protection.getD Protection.none

def storedFields (e : Entity) : Assoc Field := e.fields.filter (!·.2.isComputed)

end Entity

/-- What entities fall back to. -/
structure Defaults where
  behaviors : Behaviors := {}
  protection : Option Protection := none
deriving DecidableEq, Repr

/-- The description of an application: its entities and its settings. -/
structure Manifest where
  entities : List Entity := []
  database : Option Database := none
  auth : Option Auth := none
  mode : Option Mode := none
  i18n : Option Localization := none
  tenancy : Option Tenancy := none
  observability : Option Observability := none
  defaults : Option Defaults := none
  /-- The source of the entities that have none of their own. -/
  source : Option Source := none
  /-- The template to use, by name or by name and version. -/
  template : Option String := none
deriving DecidableEq, BEq, Repr

namespace Manifest

def entity? (m : Manifest) (name : String) : Option Entity := m.entities.find? (·.name == name)

def hasEntity (m : Manifest) (name : String) : Bool := m.entities.any (·.name == name)

def entityNames (m : Manifest) : List String := m.entities.map (·.name)

def effectiveMode (m : Manifest) : Mode := m.mode.getD .full

def authEnabled (m : Manifest) : Bool := m.auth.any (·.isEnabled)

end Manifest

end Scaffold

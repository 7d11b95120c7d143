import Scaffold.Manifest.Entity

/-!
# Normal form

In the normal form of a manifest every slot that may be left unset has a value.  An entity's own
setting comes first, then the manifest's defaults, then the built-in value; so an explicit setting
is never overridden, and an entity in normal form no longer depends on the defaults.
-/

namespace Scaffold

def defaultLocaleName : String := "en"

def defaultTenantField : String := "tenantId"

namespace Field

def normalize (f : Field) : Field :=
  { f with required := some f.isRequired, unique := some f.isUnique }

end Field

def normalizeFields (fields : Assoc Field) : Assoc Field := fields.mapValues Field.normalize

namespace Pivot

def normalize (p : Pivot) : Pivot := { p with fields := normalizeFields p.fields }

end Pivot

namespace Relation

def normalize (r : Relation) : Relation := { r with pivot := r.pivot.map Pivot.normalize }

end Relation

namespace Auth

def normalize (a : Option Auth) : Auth :=
  ⟨some (a.any isEnabled), (a.map providers).getD []⟩

end Auth

namespace Localization

def normalize (l : Option Localization) : Localization :=
  let default := (l.bind defaultLocale).getD defaultLocaleName
  let declared := (l.map locales).getD []
  ⟨some default, if declared.isEmpty then [default] else declared⟩

end Localization

namespace Tenancy

def normalize (t : Option Tenancy) : Tenancy :=
  ⟨some ((t.bind enabled).getD false), some ((t.bind field).getD defaultTenantField)⟩

end Tenancy

namespace Observability

def normalize (o : Option Observability) : Observability :=
  ⟨some ((o.bind logging).getD true), some ((o.bind metrics).getD false),
    some ((o.bind tracing).getD false)⟩

end Observability

namespace Defaults

def isEmpty (d : Defaults) : Bool := d.behaviors.isUnset && d.protection.isNone

end Defaults

namespace Entity

def normalize (defaults : Option Defaults) (source : Option Source) (e : Entity) : Entity where
  name := e.name
  table := e.table
  fields := normalizeFields e.fields
  relations := e.relations.mapValues Relation.normalize
  behaviors :=
    (e.behaviors.orElse ((defaults.map Defaults.behaviors).getD Behaviors.unset)).orElse
      Behaviors.builtIn
  protection := some ((e.protection <|> defaults.bind Defaults.protection).getD Protection.none)
  source := e.source <|> source

end Entity

namespace Manifest

def normalize (m : Manifest) : Manifest where
  entities := m.entities.map (Entity.normalize m.defaults m.source)
  database := m.database
  auth := some (Auth.normalize m.auth)
  mode := some m.effectiveMode
  i18n := some (Localization.normalize m.i18n)
  tenancy := some (Tenancy.normalize m.tenancy)
  observability := some (Observability.normalize m.observability)
  defaults := m.defaults.filter (!·.isEmpty)
  source := m.source
  template := m.template

/-- The field that tenancy adds to every entity, where tenancy is enabled. -/
def tenantField? (m : Manifest) : Option String :=
  match m.tenancy with
  | some t => if t.enabled.getD false then some (t.field.getD defaultTenantField) else none
  | none => none

end Manifest

end Scaffold

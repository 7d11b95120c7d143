import Scaffold.Manifest.Entity

/-!
# Writing manifests in code

Fields, relations, entities and manifests as values that are refined step by step.  What a step does
not mention stays as it is.
-/

namespace Scaffold

namespace Field

/-! ## Fields -/

def text : Field := { kind := .text }

def number : Field := { kind := .number }

def boolean : Field := { kind := .boolean }

def date : Field := { kind := .date }

def enumeration (values : List String) : Field := { kind := .enum values }

def computed (sourceFields : List String) (expression : String) : Field :=
  { kind := .computed sourceFields expression }

def mandatory (f : Field) : Field := { f with required := some true }

def voluntary (f : Field) : Field := { f with required := some false }

def distinct (f : Field) : Field := { f with unique := some true }

def withDefault (f : Field) (value : Literal) : Field := { f with default := some value }

def withRule (f : Field) (rule : Rule) : Field := { f with rules := f.rules ++ [rule] }

end Field

namespace Relation

/-! ## Relations -/

def hasOne (entity : String) : Relation := { kind := .hasOne, entity }

def hasMany (entity : String) : Relation := { kind := .hasMany, entity }

def belongsToMany (entity : String) : Relation := { kind := .belongsToMany, entity }

/-- Gives the foreign key column a name. -/
def withColumn (r : Relation) (column : String) : Relation := { r with field := some column }

def toOutside (r : Relation) : Relation := { r with external := true }

/-- Changes the settings of the junction table, which are empty where there are none. -/
def modifyPivot (r : Relation) (f : Pivot → Pivot) : Relation :=
  { r with pivot := some (f (r.pivot.getD {})) }

def withPivotTable (r : Relation) (table : String) : Relation :=
  r.modifyPivot fun p ↦ { p with table := some table }

def withPivotField (r : Relation) (name : String) (field : Field) : Relation :=
  r.modifyPivot fun p ↦ { p with fields := p.fields.insert name field }

end Relation

namespace Entity

/-! ## Entities -/

def withField (e : Entity) (name : String) (field : Field) : Entity :=
  { e with fields := e.fields.insert name field }

def withRelation (e : Entity) (name : String) (relation : Relation) : Entity :=
  { e with relations := e.relations.insert name relation }

def withTimestamps (e : Entity) (on : Bool) : Entity :=
  { e with behaviors := { e.behaviors with timestamps := some on } }

def withSoftDelete (e : Entity) (on : Bool) : Entity :=
  { e with behaviors := { e.behaviors with softDelete := some on } }

def withAudit (e : Entity) (on : Bool) : Entity :=
  { e with behaviors := { e.behaviors with audit := some on } }

def withProtection (e : Entity) (protection : Protection) : Entity :=
  { e with protection := some protection }

def withSource (e : Entity) (source : Source) : Entity := { e with source := some source }

def withTable (e : Entity) (table : String) : Entity := { e with table := some table }

end Entity

namespace Manifest

/-! ## Manifests -/

def withEntity (m : Manifest) (e : Entity) : Manifest := { m with entities := m.entities ++ [e] }

def withDatabase (m : Manifest) (database : Database) : Manifest :=
  { m with database := some database }

def withAuth (m : Manifest) (auth : Auth) : Manifest := { m with auth := some auth }

def withMode (m : Manifest) (mode : Mode) : Manifest := { m with mode := some mode }

def withLocalization (m : Manifest) (i18n : Localization) : Manifest :=
  { m with i18n := some i18n }

def withTenancy (m : Manifest) (tenancy : Tenancy) : Manifest := { m with tenancy := some tenancy }

def withObservability (m : Manifest) (observability : Observability) : Manifest :=
  { m with observability := some observability }

/-- Changes what entities fall back to, which is nothing where there is nothing. -/
def modifyDefaults (m : Manifest) (f : Defaults → Defaults) : Manifest :=
  { m with defaults := some (f (m.defaults.getD {})) }

def withDefaultBehaviors (m : Manifest) (behaviors : Behaviors) : Manifest :=
  m.modifyDefaults fun d ↦ { d with behaviors }

def withDefaultProtection (m : Manifest) (protection : Protection) : Manifest :=
  m.modifyDefaults fun d ↦ { d with protection := some protection }

def withSource (m : Manifest) (source : Source) : Manifest := { m with source := some source }

def withTemplate (m : Manifest) (template : String) : Manifest :=
  { m with template := some template }

end Manifest

end Scaffold

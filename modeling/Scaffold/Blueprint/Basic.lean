import Scaffold.Manifest.Derived
import Scaffold.Manifest.Normal

/-!
# Blueprints

A blueprint is a manifest with every default applied and every derived name spelled out.  Templates
read nothing else, so that no template has to know how names are derived.
-/

namespace Scaffold

structure Attribute where
  name : String
  column : String
  kind : FieldKind
  required : Bool
  unique : Bool
  default : Option Literal
  rules : List Rule
deriving DecidableEq, BEq, Repr

namespace Attribute

def ofField (name : String) (f : Field) : Attribute where
  name := name
  column := columnOf name
  kind := f.kind
  required := f.isRequired
  unique := f.isUnique
  default := f.default
  rules := f.rules

def ofFields (fields : Assoc Field) : List Attribute := fields.entries.map fun e ↦ ofField e.1 e.2

/-- Computed fields have no storage. -/
def isStored (a : Attribute) : Bool := !a.kind.isComputed

end Attribute

structure Link where
  name : String
  kind : RelationKind
  target : String
  /-- The column that refers to the target, or to the owner where there are many targets. -/
  foreignKey : String
  /-- The column of the junction table that refers to the owner. -/
  localKey : Option String
  junction : Option String
  external : Bool
deriving DecidableEq, Repr

namespace Link

def ofRelation (owner name : String) (r : Relation) : Link :=
  let toMany := r.kind == .belongsToMany
  { name
    kind := r.kind
    target := r.entity
    foreignKey := r.foreignKey owner name
    localKey := if toMany then some (keyOf owner) else none
    junction := if toMany then some (r.junctionName owner) else none
    external := r.external }

end Link

/-- The table between two entities that have many of each other. -/
structure Junction where
  name : String
  leftEntity : String
  leftColumn : String
  rightEntity : String
  rightColumn : String
  attributes : List Attribute
deriving DecidableEq, BEq, Repr

namespace Junction

def ofRelation (owner name : String) (r : Relation) : Junction where
  name := r.junctionName owner
  leftEntity := owner
  leftColumn := keyOf owner
  rightEntity := r.entity
  rightColumn := r.foreignKey owner name
  attributes := Attribute.ofFields ((r.pivot.map Pivot.fields).getD {})

def addAttribute (attributes : List Attribute) (a : Attribute) : List Attribute :=
  if attributes.any (·.name == a.name) then attributes else attributes ++ [a]

/-- Adds the attributes that another description of the same table brings. -/
def addAttributes (j : Junction) (attributes : List Attribute) : Junction :=
  { j with attributes := attributes.foldl addAttribute j.attributes }

/-- Puts a description among the junction tables: the first one of a name gives the keys, and every
one gives its attributes. -/
def merge (junctions : List Junction) (j : Junction) : List Junction :=
  match junctions with
  | [] => [j]
  | k :: rest =>
      if k.name = j.name then k.addAttributes j.attributes :: rest else k :: merge rest j

def ofEntity (e : Entity) : List Junction :=
  e.relations.entries.filterMap fun r ↦
    if r.2.kind = .belongsToMany then some (ofRelation e.name r.1 r.2) else none

/-- The junction tables, in the order in which they are first described. -/
def ofEntities (entities : List Entity) : List Junction :=
  (entities.flatMap ofEntity).foldl merge []

end Junction

abbrev Routes := PerOperation String

def Routes.ofEntity (entity : String) : Routes :=
  let collection := "/" ++ Naming.kebab (pluralOf entity)
  let member := collection ++ "/:id"
  ⟨collection, member, collection, member, member⟩

/-- An external interface with all of its paths. -/
structure Remote where
  baseUrl : String
  routes : Routes
deriving DecidableEq, Repr

namespace Remote

def ofSource (routes : Routes) (s : Source) : Remote :=
  ⟨s.baseUrl, s.endpoints.zipWith (·.getD ·) routes⟩

end Remote

/-- The switches of an entity, all of them set. -/
structure Traits where
  timestamps : Bool
  softDelete : Bool
  audit : Bool
deriving DecidableEq, Repr

/-- An entity with its names, attributes and links. -/
structure Record where
  name : String
  singular : String
  plural : String
  table : String
  attributes : List Attribute
  links : List Link
  traits : Traits
  protection : Protection
  routes : Routes
  remote : Option Remote
deriving DecidableEq, BEq, Repr

namespace Record

def ofEntity (e : Entity) : Record :=
  let routes := Routes.ofEntity e.name
  { name := e.name
    singular := singularOf e.name
    plural := pluralOf e.name
    table := e.tableName
    attributes := Attribute.ofFields e.fields
    links := e.relations.entries.map fun r ↦ Link.ofRelation e.name r.1 r.2
    traits := ⟨e.behaviors.keepsTimestamps, e.behaviors.deletesSoftly, e.behaviors.isAudited⟩
    protection := e.effectiveProtection
    routes
    remote := e.source.map (Remote.ofSource routes) }

def stored (r : Record) : List Attribute := r.attributes.filter Attribute.isStored

/-- The links whose key is on the record's own table. -/
def ownedLinks (r : Record) : List Link := r.links.filter (·.kind == .hasOne)

end Record

structure SignIn where
  enabled : Bool
  providers : List String
deriving DecidableEq, Repr

structure Locales where
  default : String
  all : List String
deriving DecidableEq, Repr

structure Tenant where
  enabled : Bool
  field : String
  column : String
deriving DecidableEq, Repr

structure Telemetry where
  logging : Bool
  metrics : Bool
  tracing : Bool
deriving DecidableEq, Repr

/-- Everything that a template needs to know. -/
structure Blueprint where
  records : List Record
  junctions : List Junction
  database : Option Database
  signIn : SignIn
  mode : Mode
  locales : Locales
  tenant : Tenant
  telemetry : Telemetry
  template : Option String
deriving DecidableEq, BEq, Repr

namespace Blueprint

def ofNormal (m : Manifest) : Blueprint :=
  let tenantField := (m.tenancy.bind Tenancy.field).getD defaultTenantField
  { records := m.entities.map Record.ofEntity
    junctions := Junction.ofEntities m.entities
    database := m.database
    signIn := ⟨m.authEnabled, (m.auth.map Auth.providers).getD []⟩
    mode := m.effectiveMode
    locales := ⟨(m.i18n.bind Localization.defaultLocale).getD defaultLocaleName,
      (m.i18n.map Localization.locales).getD []⟩
    tenant := ⟨(m.tenancy.bind Tenancy.enabled).getD false, tenantField, columnOf tenantField⟩
    telemetry := ⟨(m.observability.bind Observability.logging).getD true,
      (m.observability.bind Observability.metrics).getD false,
      (m.observability.bind Observability.tracing).getD false⟩
    template := m.template }

def ofManifest (m : Manifest) : Blueprint := ofNormal m.normalize

def record? (b : Blueprint) (name : String) : Option Record := b.records.find? (·.name == name)

def hasStorage (b : Blueprint) : Bool := b.mode != .apiOnly

def hasClient (b : Blueprint) : Bool := b.mode == .full

end Blueprint

end Scaffold

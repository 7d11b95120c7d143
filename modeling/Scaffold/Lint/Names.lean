import Scaffold.Data.Assoc
import Scaffold.Diagnosis.Finding
import Scaffold.Manifest.Derived
import Scaffold.Manifest.Normal

/-!
# Names

Entity names are written `BlogPost`; field and relation names are written `createdAt`.

Entity names and their storage forms, the columns of every table, and tables have to be distinct.
The columns of a table come from the columns that every table gets, from stored fields, from
relations of its entity to one other, and from relations of other entities to many of it.
-/

namespace Scaffold.Lint

/-! ## How names are written -/

def fieldNames (owner : FieldsOf) (fields : Assoc Field) : List Finding :=
  ((Assoc.keys fields).filter (!Naming.isCamel ·)).map fun name ↦ .fieldName ⟨owner, name⟩

def relationNames (entity : String) (name : String) (r : Relation) : List Finding :=
  (if Naming.isCamel name then [] else [.relationName entity name]) ++
    fieldNames (.pivot entity name) ((r.pivot.map Pivot.fields).getD {})

def entityNames (e : Entity) (index : Nat) : List Finding :=
  (if Naming.isPascal e.name then [] else [.entityName index e.name]) ++
    fieldNames (.entity e.name) e.fields ++
    e.relations.entries.flatMap fun r ↦ relationNames e.name r.1 r.2

def names (m : Manifest) : List Finding :=
  m.entities.zipIdx.flatMap fun p ↦ entityNames p.1 p.2

/-! ## Columns -/

structure ColumnUse where
  column : String
  origin : ColumnOrigin
deriving DecidableEq, Repr

/-- The columns that the table of an entity gets whatever its fields are. -/
def generatedColumns (m : Manifest) (e : Entity) : List ColumnUse :=
  [⟨"id", .primaryKey⟩] ++
    (m.tenantField?.map fun field ↦ ColumnUse.mk (columnOf field) .tenancy).toList ++
    (if e.behaviors.keepsTimestamps then
      [⟨"created_at", .timestamps⟩, ⟨"updated_at", .timestamps⟩] else []) ++
    if e.behaviors.deletesSoftly then [⟨"deleted_at", .softDelete⟩] else []

def fieldColumns (e : Entity) : List ColumnUse :=
  e.storedFields.entries.map fun f ↦ ⟨columnOf f.1, .field f.1⟩

def ownKeys (e : Entity) : List ColumnUse :=
  e.relations.entries.filterMap fun r ↦
    if r.2.kind = .hasOne then some ⟨r.2.foreignKey e.name r.1, .relation r.1⟩ else none

/-- The keys that relations of `owner` to many of the entity put on its table. -/
def keysFrom (owner : Entity) (target : String) : List ColumnUse :=
  owner.relations.entries.filterMap fun r ↦
    if r.2.kind = .hasMany && !r.2.external && r.2.entity == target then
      some ⟨r.2.foreignKey owner.name r.1, .relationOf owner.name r.1⟩
    else none

/-- The keys that relations of all entities put on the table of one. -/
def foreignKeys (m : Manifest) (target : String) : List ColumnUse :=
  m.entities.flatMap (keysFrom · target)

/-- Fields on columns that the table gets anyway.  The tenant field itself is a matter of the
configuration. -/
def reservedFields (m : Manifest) (e : Entity) : List Finding :=
  (Assoc.keys e.fields).filterMap fun field ↦
    if m.tenantField? = some field then none
    else
      ((generatedColumns m e).find? (·.column == columnOf field)).map fun use ↦
        .fieldReserved e.name field use.origin

/-- The columns beyond the generated ones.  Fields on a generated column are reported as such and
take no part here. -/
def furtherColumns (m : Manifest) (e : Entity) : List ColumnUse :=
  ((fieldColumns e).filter fun c ↦ !(generatedColumns m e).any (·.column == c.column)) ++
    ownKeys e ++ foreignKeys m e.name

def columnsTwice (m : Manifest) (e : Entity) : List Finding :=
  (withEarlier ColumnUse.column (generatedColumns m e).reverse (furtherColumns m e)).filterMap
    fun p ↦ p.2.map fun first ↦ .columnTwice e.name p.1.column first.origin p.1.origin

/-! ## Entities and tables -/

/-- The entities with their places, first declarations only. -/
def declared (m : Manifest) : List (Entity × Nat) := firsts (fun p ↦ p.1.name) m.entities.zipIdx

/-- Those declared entities whose storage form is new. -/
def distinct (m : Manifest) : List (Entity × Nat) :=
  firsts (fun p ↦ singularOf p.1.name) (declared m)

def entitiesTwice (m : Manifest) : List Finding :=
  (repeats (fun p ↦ p.1.name) m.entities.zipIdx).map fun p ↦ .entityRepeated p.1.2 p.1.1.name

def relationsNamedAsFields (e : Entity) : List Finding :=
  ((Assoc.keys e.relations).filter (Assoc.contains e.fields)).map (.relationNamedAsField e.name)

def singularsTwice (m : Manifest) : List Finding :=
  (repeats (fun p ↦ singularOf p.1.name) (declared m)).map fun p ↦
    .singularTwice p.1.2 p.1.1.name (singularOf p.1.1.name) p.2.1.name

def tablesTwice (m : Manifest) : List Finding :=
  (repeats (fun p ↦ p.1.tableName) (distinct m)).map fun p ↦
    .tableTwice p.1.1.name p.1.1.tableName p.2.1.name

structure TakenJunction where
  entity : String
  relation : String
  junction : String
  owner : String
deriving DecidableEq, Repr

/-- The junction tables of an entity's relations that are tables of entities. -/
def takenJunctions (m : Manifest) (e : Entity) : List TakenJunction :=
  e.relations.entries.filterMap fun r ↦
    if r.2.kind = .belongsToMany then
      let junction := r.2.junctionName e.name
      ((distinct m).find? (·.1.tableName == junction)).map fun p ↦ ⟨e.name, r.1, junction, p.1.name⟩
    else none

/-- Junction tables on the table of an entity, each reported once. -/
def junctionsOnTables (m : Manifest) : List Finding :=
  (firsts TakenJunction.junction ((distinct m).flatMap fun p ↦ takenJunctions m p.1)).map fun t ↦
    .junctionOnTable t.entity t.relation t.junction t.owner

def duplicates (m : Manifest) : List Finding :=
  entitiesTwice m ++
    ((declared m).flatMap fun p ↦
      relationsNamedAsFields p.1 ++ reservedFields m p.1 ++ columnsTwice m p.1) ++
    singularsTwice m ++ tablesTwice m ++ junctionsOnTables m

end Scaffold.Lint

import Scaffold.Sql.Table

/-!
# The tables of a blueprint

One table for every record, one for every junction, and one log if any record is audited.
-/

namespace Scaffold.Sql

/-- The table that a column for an entity refers to; entities outside of the blueprint have none. -/
def tableOf (b : Blueprint) (entity : String) : Option String :=
  (b.record? entity).map Record.table

def idColumn (dialect : DatabaseKind) : Column :=
  { name := "id", type := idType dialect, isPrimaryKey := true }

def attributeColumn (dialect : DatabaseKind) (a : Attribute) : Column where
  name := a.column
  type := columnType dialect a
  isNotNull := a.required
  isUnique := a.unique
  default := a.default.map .literal
  values := match a.kind with
    | .enum values => some values
    | _ => none

def tenantColumns (dialect : DatabaseKind) (t : Tenant) : List Column :=
  if t.enabled then [{ name := t.column, type := idType dialect, isNotNull := true }] else []

def ownKeyColumns (dialect : DatabaseKind) (b : Blueprint) (r : Record) : List Column :=
  r.ownedLinks.map fun l ↦
    { name := l.foreignKey, type := idType dialect, references := tableOf b l.target }

/-- The keys that links of a record to many of another put on the other's table. -/
def keyColumnsFrom (dialect : DatabaseKind) (owner : Record) (target : String) : List Column :=
  (owner.links.filter fun l ↦
    l.kind == .hasMany && !l.external && l.target == target).map fun l ↦
      { name := l.foreignKey, type := idType dialect, references := some owner.table }

/-- The keys that links of all records put on the table of one. -/
def foreignKeyColumns (dialect : DatabaseKind) (b : Blueprint) (target : String) : List Column :=
  b.records.flatMap (keyColumnsFrom dialect · target)

def timestampColumn (dialect : DatabaseKind) (name : String) : Column where
  name := name
  type := timestampType dialect
  isNotNull := true
  default := some .currentTimestamp

def traitColumns (dialect : DatabaseKind) (t : Traits) : List Column :=
  (if t.timestamps then
    [timestampColumn dialect "created_at", timestampColumn dialect "updated_at"] else []) ++
    if t.softDelete then [{ name := "deleted_at", type := timestampType dialect }] else []

def recordColumns (dialect : DatabaseKind) (b : Blueprint) (r : Record) : List Column :=
  [idColumn dialect] ++ tenantColumns dialect b.tenant ++
    r.stored.map (attributeColumn dialect) ++ ownKeyColumns dialect b r ++
    foreignKeyColumns dialect b r.name ++ traitColumns dialect r.traits

def recordTable (dialect : DatabaseKind) (b : Blueprint) (r : Record) : Table :=
  { name := r.table, columns := recordColumns dialect b r }

def junctionKey (dialect : DatabaseKind) (b : Blueprint) (column entity : String) : Column :=
  { name := column, type := idType dialect, isNotNull := true, references := tableOf b entity }

def junctionTable (dialect : DatabaseKind) (b : Blueprint) (j : Junction) : Table where
  name := j.name
  columns :=
    [junctionKey dialect b j.leftColumn j.leftEntity,
      junctionKey dialect b j.rightColumn j.rightEntity] ++
      j.attributes.map (attributeColumn dialect)
  primaryKey := [j.leftColumn, j.rightColumn]

def auditLog (dialect : DatabaseKind) : Table where
  name := "audit_log"
  columns :=
    [idColumn dialect,
      { name := "entity", type := "TEXT", isNotNull := true },
      { name := "record_id", type := idType dialect, isNotNull := true },
      { name := "action", type := "TEXT", isNotNull := true },
      timestampColumn dialect "changed_at"]

def tables (dialect : DatabaseKind) (b : Blueprint) : List Table :=
  b.records.map (recordTable dialect b) ++ b.junctions.map (junctionTable dialect b) ++
    if b.records.any (·.traits.audit) then [auditLog dialect] else []

end Scaffold.Sql

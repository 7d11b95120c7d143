import Scaffold.Manifest.Entity
import Scaffold.Naming.Plural
import Scaffold.Naming.Style

/-!
# Derived names

Tables, columns and keys have names that follow from the names in the manifest, unless the manifest
gives them.
-/

namespace Scaffold

/-- The storage name of one instance of an entity, as in `blog_post`. -/
def singularOf (entity : String) : String := Naming.snake entity

/-- The storage name of all instances of an entity, as in `blog_posts`. -/
def pluralOf (entity : String) : String := Naming.pluralize (singularOf entity)

def columnOf (field : String) : String := Naming.snake field

/-- The column that refers to an instance of an entity. -/
def keyOf (entity : String) : String := singularOf entity ++ "_id"

namespace Entity

def tableName (e : Entity) : String := e.table.getD (pluralOf e.name)

end Entity

namespace Relation

/-- The foreign key of a relation.  For one instance it is on the owner's table, for many on the
target's, and for many on both sides on the junction table, where an entity that relates to itself
needs two different columns. -/
def foreignKey (r : Relation) (owner name : String) : String :=
  r.field.getD <|
    match r.kind with
    | .hasOne => Naming.snake name ++ "_id"
    | .hasMany => keyOf owner
    | .belongsToMany => if r.entity = owner then "related_" ++ keyOf owner else keyOf r.entity

def junctionName (r : Relation) (owner : String) : String :=
  (r.pivot.bind Pivot.table).getD <|
    let left := singularOf owner
    let right := singularOf r.entity
    if right < left then right ++ "_" ++ left else left ++ "_" ++ right

end Relation

end Scaffold

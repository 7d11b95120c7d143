import Scaffold.Data.Assoc
import Scaffold.Manifest.Field

/-!
# Relations

A relation leads from one entity to another.  A relation to many on both sides may carry a pivot,
the settings of the junction table between the two.
-/

namespace Scaffold

inductive RelationKind where
  | hasOne
  | hasMany
  | belongsToMany
deriving DecidableEq, Repr

def RelationKind.name : RelationKind → String
  | .hasOne => "hasOne"
  | .hasMany => "hasMany"
  | .belongsToMany => "belongsToMany"

/-- The settings of a junction table: its name and its own fields. -/
structure Pivot where
  table : Option String := none
  fields : Assoc Field := {}
deriving DecidableEq, BEq, Repr

structure Relation where
  kind : RelationKind
  /-- The name of the entity at the other end. -/
  entity : String
  /-- The foreign key column, where the derived one does not fit. -/
  field : Option String := none
  pivot : Option Pivot := none
  /-- The other end is not declared in this manifest. -/
  external : Bool := false
deriving DecidableEq, BEq, Repr

end Scaffold

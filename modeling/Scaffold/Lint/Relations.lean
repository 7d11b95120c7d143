import Scaffold.Data.Assoc
import Scaffold.Diagnosis.Finding
import Scaffold.Manifest.Derived

/-!
# Relations

The target of a relation has to be declared unless it is external, only relations with many on both
sides have a pivot, and relations that share a junction table have to agree on its fields.
-/

namespace Scaffold.Lint

structure OwnedRelation where
  owner : String
  name : String
  relation : Relation
deriving Repr

def ownedRelations (m : Manifest) : List OwnedRelation :=
  m.entities.flatMap fun e ↦ e.relations.entries.map fun r ↦ ⟨e.name, r.1, r.2⟩

structure PivotField where
  junction : String
  place : FieldPlace
  field : Field
deriving Repr

namespace OwnedRelation

/-- The fields that the relation declares for its junction table. -/
def pivotFields (r : OwnedRelation) : List PivotField :=
  if r.relation.kind = .belongsToMany then
    ((r.relation.pivot.map Pivot.fields).getD {}).entries.map fun f ↦
      ⟨r.relation.junctionName r.owner, ⟨.pivot r.owner r.name, f.1⟩, f.2⟩
  else []

def isDangling (m : Manifest) (r : OwnedRelation) : Bool :=
  !r.relation.external && !m.hasEntity r.relation.entity

def hasMisplacedPivot (r : OwnedRelation) : Bool :=
  r.relation.pivot.isSome && r.relation.kind != .belongsToMany

end OwnedRelation

/-- What two declarations of the same field of a junction table have in common. -/
def PivotField.key (p : PivotField) : String × String := (p.junction, p.place.field)

/-- A declared entity whose name differs from the given one in the case of ASCII letters only. -/
def similarEntity? (m : Manifest) (name : String) : Option String :=
  let lower (s : String) : List Char := s.toList.map Char.toLower
  (m.entities.find? fun e ↦ lower e.name == lower name).map (·.name)

def danglingTarget (m : Manifest) (r : OwnedRelation) : List Finding :=
  if r.isDangling m then
    [.targetMissing r.owner r.name r.relation.entity (similarEntity? m r.relation.entity)]
  else []

def misplacedPivot (r : OwnedRelation) : List Finding :=
  if r.hasMisplacedPivot then [.pivotMisplaced r.owner r.name r.relation.kind] else []

def pivotConflicts (earlier : List PivotField) (r : OwnedRelation) : List Finding :=
  (withEarlier PivotField.key earlier r.pivotFields).filterMap fun p ↦
    p.2.bind fun first ↦
      if first.field != p.1.field then
        some (.pivotConflict p.1.place first.place p.1.junction)
      else none

/-- What is wrong with the relations, given the fields of junction tables declared before them. -/
def relationsFrom (m : Manifest) (earlier : List PivotField) : List OwnedRelation → List Finding
  | [] => []
  | r :: rest =>
      danglingTarget m r ++ misplacedPivot r ++ pivotConflicts earlier r ++
        relationsFrom m (earlier ++ r.pivotFields) rest

def relations (m : Manifest) : List Finding := relationsFrom m [] (ownedRelations m)

end Scaffold.Lint

import Scaffold.Lint.Relations
import Scaffold.Manifest.Normal
import Scaffold.Proofs.Manifest.FieldEquality
import Scaffold.Proofs.Repeats

/-!
# Relations that pass

The lint goes through all relations once and compares every field of a junction table with the first
declaration of it, whichever entity that belongs to.  It finds nothing exactly if every target is
declared or external, every pivot is where it belongs, and any two declarations of one field of one
junction table are equal.  The last condition does not mention an order.
-/

namespace Scaffold.Lint

/-- Whether two declarations are equal if they are of the same field of the same junction table. -/
def PivotField.Compatible (p q : PivotField) : Prop := p.key = q.key → (p.field == q.field) = true

theorem PivotField.Compatible.symm {p q : PivotField} (h : p.Compatible q) : q.Compatible p :=
  fun hkey ↦ BEq.symm (h hkey.symm)

theorem pivotConflicts_eq_nil_iff (earlier : List PivotField) (r : OwnedRelation) :
    pivotConflicts earlier r = [] ↔
      ∀ p ∈ withEarlier PivotField.key earlier r.pivotFields, ∀ first, p.2 = some first →
        (first.field == p.1.field) = true := by
  rw [pivotConflicts, List.filterMap_eq_nil_iff]
  refine forall₂_congr fun p _ ↦ ?_
  rw [Option.bind_eq_none_iff]
  refine forall₂_congr fun first _ ↦ ?_
  simp [bne]

/-- Relations are accepted exactly if each has its target, its pivot is in place, and declarations
of one field are equal. -/
theorem relationsFrom_eq_nil_iff (m : Manifest) (earlier : List PivotField)
    (rs : List OwnedRelation) :
    relationsFrom m earlier rs = [] ↔
      (∀ r ∈ rs, r.isDangling m = false ∧ r.hasMisplacedPivot = false) ∧
        ∀ p ∈ withEarlier PivotField.key earlier (rs.flatMap OwnedRelation.pivotFields),
          ∀ first, p.2 = some first → (first.field == p.1.field) = true := by
  induction rs generalizing earlier with
  | nil => simp [relationsFrom, withEarlier]
  | cons r rs ih =>
      have hdangling : danglingTarget m r = [] ↔ r.isDangling m = false := by
        simp [danglingTarget]
      have hpivot : misplacedPivot r = [] ↔ r.hasMisplacedPivot = false := by
        simp [misplacedPivot]
      rw [relationsFrom, List.flatMap_cons, withEarlier_append]
      simp only [List.append_eq_nil_iff, hdangling, hpivot, pivotConflicts_eq_nil_iff, ih,
        List.forall_mem_cons, List.forall_mem_append]
      tauto

def pivotFields (m : Manifest) : List PivotField :=
  (ownedRelations m).flatMap OwnedRelation.pivotFields

theorem relations_eq_nil_iff (m : Manifest) :
    relations m = [] ↔
      (∀ r ∈ ownedRelations m, r.isDangling m = false ∧ r.hasMisplacedPivot = false) ∧
        (pivotFields m).Pairwise PivotField.Compatible := by
  have hagree := withEarlier_related_iff (R := fun p q : PivotField ↦ (p.field == q.field) = true)
    (fun _ _ ↦ BEq.symm) (fun _ _ _ ↦ BEq.trans) PivotField.key .nil (pivotFields m)
  rw [relations, relationsFrom_eq_nil_iff, ← pivotFields, hagree]
  rfl

theorem isDangling_eq_false_iff {m : Manifest} {r : OwnedRelation} :
    r.isDangling m = false ↔
      (r.relation.external = false → ∃ e ∈ m.entities, e.name = r.relation.entity) := by
  simp [OwnedRelation.isDangling, Manifest.hasEntity]

def OwnedRelation.normalize (r : OwnedRelation) : OwnedRelation :=
  { r with relation := r.relation.normalize }

theorem ownedRelations_normalize (m : Manifest) :
    ownedRelations m.normalize = (ownedRelations m).map OwnedRelation.normalize := by
  simp only [ownedRelations, Manifest.normalize, Entity.normalize, Assoc.entries_mapValues,
    List.flatMap_map, List.map_flatMap, List.map_map]
  rfl

end Scaffold.Lint

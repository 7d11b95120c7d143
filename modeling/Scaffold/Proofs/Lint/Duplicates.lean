import Scaffold.Proofs.Schema.ColumnFindings
import Scaffold.Proofs.Schema.TableNames

/-!
# Names that pass

The lint for names used twice looks only at first declarations, first of a name and then of a
storage form, and reports each junction table once.  It finds nothing exactly if all names, storage
forms and tables are distinct and nothing on one table collides, and that can be said of all
entities without saying which comes first.
-/

namespace Scaffold.Lint

/-- Whether no name is used twice. -/
structure NamesDistinct (n : Manifest) : Prop where
  names : (n.entities.map Entity.name).Nodup
  singulars : (n.entities.map fun e ↦ singularOf e.name).Nodup
  tables : (n.entities.map Entity.tableName).Nodup
  relations : ∀ e ∈ n.entities, ∀ name ∈ Assoc.keys e.relations, name ∉ Assoc.keys e.fields
  columns : ∀ e ∈ n.entities, reservedFields n e = [] ∧ columnsTwice n e = []
  junctions : ∀ owner ∈ n.entities, ∀ r ∈ owner.relations.entries, r.2.kind = .belongsToMany →
    ∀ e ∈ n.entities, e.tableName ≠ r.2.junctionName owner.name

theorem relationsNamedAsFields_eq_nil_iff {e : Entity} : relationsNamedAsFields e = [] ↔
    ∀ name ∈ Assoc.keys e.relations, name ∉ Assoc.keys e.fields := by
  rw [relationsNamedAsFields, List.map_eq_nil_iff, List.filter_eq_nil_iff]
  refine forall₂_congr fun name _ ↦ ?_
  simp [Assoc.contains, Assoc.keys]

theorem namesDistinct_of_duplicates {n : Manifest} (h : duplicates n = []) : NamesDistinct n where
  names := entityNames_nodup_of_duplicates h
  singulars := singulars_nodup_of_duplicates h
  tables := tableNames_nodup_of_duplicates h
  relations e he := by
    have hdeclared := declared_eq_of_duplicates h
    rw [← List.zipIdx_map_fst 0 n.entities] at he
    obtain ⟨p, hp, rfl⟩ := List.mem_map.mp he
    simp only [duplicates, List.append_eq_nil_iff, List.flatMap_eq_nil_iff, hdeclared] at h
    exact relationsNamedAsFields_eq_nil_iff.mp (h.1.1.1.2 p hp).1.1
  columns _ he := columnFindings_eq_nil_of_duplicates h he
  junctions owner howner r hr hkind e he := by
    refine tableName_ne_of_duplicates h he (d := .ofRelation owner.name r.1 r.2) ?_
    exact List.mem_flatMap.mpr ⟨owner, howner, List.mem_filterMap.mpr ⟨r, hr, if_pos hkind⟩⟩

/-- No duplicates are found exactly if all names are distinct. -/
theorem duplicates_eq_nil_iff (n : Manifest) : duplicates n = [] ↔ NamesDistinct n := by
  refine ⟨namesDistinct_of_duplicates, fun h ↦ ?_⟩
  have hdeclared : declared n = n.entities.zipIdx :=
    firsts_eq_self (by rw [map_key_zipIdx Entity.name]; exact h.names)
  have hdistinct : distinct n = n.entities.zipIdx := by
    rw [distinct, hdeclared]
    exact firsts_eq_self (by rw [map_key_zipIdx fun e ↦ singularOf e.name]; exact h.singulars)
  have hmem : ∀ p ∈ n.entities.zipIdx, p.1 ∈ n.entities := fun p hp ↦
    List.fst_mem_of_mem_zipIdx hp
  have htaken : ∀ p ∈ n.entities.zipIdx, takenJunctions n p.1 = [] := by
    intro p hp
    refine List.filterMap_eq_nil_iff.mpr fun r hr ↦ ?_
    split
    · rename_i hkind
      rw [hdistinct, Option.map_eq_none_iff, List.find?_eq_none]
      intro q hq
      simpa using h.junctions p.1 (hmem p hp) r hr hkind q.1 (hmem q hq)
    · rfl
  simp only [duplicates, List.append_eq_nil_iff, List.flatMap_eq_nil_iff, entitiesTwice,
    singularsTwice, tablesTwice, junctionsOnTables, List.map_eq_nil_iff, repeats_eq_nil_iff,
    firsts_eq_nil_iff, hdeclared, hdistinct]
  have hcolumns : ∀ p ∈ n.entities.zipIdx, _ := fun p hp ↦ h.columns p.1 (hmem p hp)
  refine ⟨⟨⟨⟨?_, fun p hp ↦ ⟨⟨?_, (hcolumns p hp).1⟩, (hcolumns p hp).2⟩⟩, ?_⟩, ?_⟩, htaken⟩
  · rw [map_key_zipIdx Entity.name]
    exact h.names
  · exact relationsNamedAsFields_eq_nil_iff.mpr (h.relations p.1 (hmem p hp))
  · rw [map_key_zipIdx fun e ↦ singularOf e.name]
    exact h.singulars
  · rw [map_key_zipIdx Entity.tableName]
    exact h.tables

end Scaffold.Lint

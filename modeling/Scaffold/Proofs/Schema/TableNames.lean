import Scaffold.Proofs.Schema.JunctionLinks
import Scaffold.Proofs.Schema.RecordColumns
import Scaffold.Proofs.Validity

/-!
# Distinct tables

The lints compare the tables of entities with each other and with the junction tables, which are
merged by their names.  None of them knows the audit log, which is a table of a fixed name.  So the
tables of a valid manifest have distinct names unless something is audited and the name of the log
is taken, be it by an entity or by a junction, and there are valid manifests where it is.
-/

namespace Scaffold

open Sql

/-! ## Junction tables -/

namespace Junction

theorem mem_names_iff {junctions : List Junction} {name : String} :
    name ∈ junctions.map Junction.name ↔ (named? junctions name).isSome = true := by
  simp [named?]

theorem mem_names_ofEntities_iff {entities : List Entity} {name : String} :
    name ∈ (ofEntities entities).map Junction.name ↔
      name ∈ (descriptions entities).map Junction.name := by
  rw [mem_names_iff, mem_names_iff, ofEntities, ← descriptions, named?_foldl_merge,
    Option.isSome_map]

end Junction

theorem Manifest.names_descriptions (m : Manifest) :
    (Junction.descriptions m.normalize.entities).map Junction.name =
      m.manyToMany.map Lint.OwnedRelation.junction := by
  rw [descriptions_normalize, List.map_map]
  exact List.map_congr_left fun r _ ↦ r.name_described

/-! ## What the lints see to -/

namespace Lint

variable {n : Manifest} (hduplicates : duplicates n = [])

include hduplicates

theorem tableNames_nodup_of_duplicates : (n.entities.map Entity.tableName).Nodup := by
  have hdistinct := distinct_eq_of_duplicates hduplicates
  simp only [duplicates, List.append_eq_nil_iff] at hduplicates
  have htables : tablesTwice n = [] := hduplicates.1.2
  rw [← map_key_zipIdx, ← hdistinct]
  exact (repeats_eq_nil_iff _ _).mp (List.map_eq_nil_iff.mp htables)

/-- No junction table is described under the name of the table of an entity. -/
theorem tableName_ne_of_duplicates {e : Entity} (he : e ∈ n.entities) {d : Junction}
    (hd : d ∈ Junction.descriptions n.entities) : e.tableName ≠ d.name := by
  have hdistinct := distinct_eq_of_duplicates hduplicates
  simp only [duplicates, List.append_eq_nil_iff] at hduplicates
  have hjunctions : junctionsOnTables n = [] := hduplicates.2
  rw [junctionsOnTables, List.map_eq_nil_iff, firsts_eq_nil_iff, hdistinct,
    List.flatMap_eq_nil_iff] at hjunctions
  obtain ⟨owner, howner, hd⟩ := List.mem_flatMap.mp hd
  obtain ⟨r, hr, hd⟩ := List.mem_filterMap.mp hd
  obtain ⟨hkind, rfl⟩ : r.2.kind = .belongsToMany ∧ Junction.ofRelation owner.name r.1 r.2 = d := by
    simpa using hd
  rw [← List.zipIdx_map_fst 0 n.entities] at he howner
  obtain ⟨p, hp, rfl⟩ := List.mem_map.mp he
  obtain ⟨q, hq, rfl⟩ := List.mem_map.mp howner
  have htaken := List.filterMap_eq_nil_iff.mp (hjunctions q hq) r hr
  rw [if_pos hkind, hdistinct, Option.map_eq_none_iff, List.find?_eq_none] at htaken
  exact mt beq_iff_eq.mpr (htaken p hp)

end Lint

/-! ## Valid manifests -/

theorem names_tables (dialect : DatabaseKind) (n : Manifest) :
    (tables dialect (.ofNormal n)).map Table.name =
      n.entities.map Entity.tableName ++ (Junction.ofEntities n.entities).map Junction.name ++
        if n.entities.any (·.behaviors.isAudited) then ["audit_log"] else [] := by
  rw [tables, List.map_append, List.map_append, apply_ite (List.map Table.name)]
  simp only [Blueprint.ofNormal, List.map_map, List.any_map]
  rfl

/-- Where the lints find nothing, entities and junctions have distinct tables. -/
theorem names_storage_nodup {n : Manifest} (hduplicates : Lint.duplicates n = []) :
    (n.entities.map Entity.tableName ++
      (Junction.ofEntities n.entities).map Junction.name).Nodup := by
  refine List.nodup_append.mpr ⟨Lint.tableNames_nodup_of_duplicates hduplicates,
    Junction.names_ofEntities_nodup n.entities, ?_⟩
  intro table htable name hname
  obtain ⟨e, he, rfl⟩ := List.mem_map.mp htable
  obtain ⟨d, hd, rfl⟩ := List.mem_map.mp (Junction.mem_names_ofEntities_iff.mp hname)
  exact Lint.tableName_ne_of_duplicates hduplicates he hd

/-- All tables of a valid manifest, in every kind of database, have pairwise distinct names exactly
if, where an entity is audited, neither the table of an entity nor a junction table is named like
the log. -/
theorem tableNames_nodup_iff [Pattern.Checker] (m : Manifest) (hvalid : m.validate.valid = true)
    (dialect : DatabaseKind) :
    ((tables dialect (Blueprint.ofManifest m)).map Table.name).Nodup ↔
      ((∃ e ∈ m.normalize.entities, e.behaviors.isAudited = true) →
        "audit_log" ∉ m.entities.map Entity.tableName ∧
          "audit_log" ∉ m.manyToMany.map Lint.OwnedRelation.junction) := by
  obtain ⟨-, hduplicates, -⟩ := m.valid_iff.mp hvalid
  have hstorage := names_storage_nodup hduplicates
  have htables : m.normalize.entities.map Entity.tableName = m.entities.map Entity.tableName := by
    rw [Manifest.normalize, List.map_map]
    rfl
  rw [Blueprint.ofManifest, names_tables, ← m.names_descriptions, ← htables,
    ← Junction.mem_names_ofEntities_iff, ← not_or, ← List.mem_append]
  by_cases haudit : ∃ e ∈ m.normalize.entities, e.behaviors.isAudited = true
  · rw [if_pos (List.any_eq_true.mpr haudit), List.nodup_append_comm, List.singleton_append,
      List.nodup_cons]
    exact ⟨fun h _ ↦ h.1, fun h ↦ ⟨h haudit, hstorage⟩⟩
  · rw [if_neg (List.any_eq_true.not.mpr haudit), List.append_nil]
    exact ⟨fun _ h ↦ absurd h haudit, fun _ ↦ hstorage⟩

def auditedPair (left right : Entity) : Manifest where
  database := some (.sqlite "app.db")
  defaults := some { behaviors := { audit := some true } }
  entities :=
    [{ left with
        relations := .ofList [("links", ⟨.belongsToMany, right.name, none, none, false⟩)] },
      right]

theorem tableNames_nodup_auditedPair :
    (auditedPair { name := "Audit" } { name := "Entry" }).validate.valid = true ∧
      ((tables .mysql (Blueprint.ofManifest
        (auditedPair { name := "Audit" } { name := "Entry" }))).map Table.name).Nodup :=
  have hvalid : (auditedPair { name := "Audit" } { name := "Entry" }).validate.valid = true := by
    decide +kernel
  ⟨hvalid, (tableNames_nodup_iff _ hvalid .mysql).mpr fun _ ↦ by decide +kernel⟩

/-- The name of the log may be that of a junction table, or one that is given to an entity. -/
theorem valid_with_repeated_tables :
    ((auditedPair { name := "Audit" } { name := "Log" }).validate.valid = true ∧
      ∀ dialect, ¬ ((tables dialect (Blueprint.ofManifest
        (auditedPair { name := "Audit" } { name := "Log" }))).map Table.name).Nodup) ∧
    ((auditedPair { name := "Entry", table := some "audit_log" } { name := "Tag" }).validate.valid =
        true ∧
      ∀ dialect, ¬ ((tables dialect (Blueprint.ofManifest (auditedPair
        { name := "Entry", table := some "audit_log" } { name := "Tag" }))).map
          Table.name).Nodup) := by
  refine ⟨⟨by decide +kernel, ?_⟩, by decide +kernel, ?_⟩ <;>
    rintro (_ | _ | _) <;> decide +kernel

end Scaffold

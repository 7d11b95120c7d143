import Scaffold.Proofs.Schema.JunctionColumns
import Scaffold.Proofs.Schema.RecordColumns
import Scaffold.Proofs.Validity

/-!
# Distinct columns

The lints look at the columns of entity tables, but neither at the columns that every table gets
among themselves nor at junction tables.  So the tables of a valid manifest have distinct columns
exactly if its tenant column and its junction tables are in order, and there are valid manifests
where they are not.
-/

namespace Scaffold

open Sql

/-- What the lints do not look at in a manifest in normal form: whether the tenant column is apart
from the other columns that a table gets, and whether each junction table, which is described first
by `d`, has distinct columns. -/
structure Manifest.ColumnsApart (n : Manifest) : Prop where
  tenant : ∀ e ∈ n.entities, Lint.TenantApart n e
  junctions : ∀ d, Junction.named? (Junction.descriptions n.entities) d.name = some d →
    Junction.Apart (Junction.descriptions n.entities) d

theorem names_auditLog_nodup (dialect : DatabaseKind) :
    ((auditLog dialect).columns.map Column.name).Nodup := by
  simp [auditLog, idColumn, timestampColumn]

theorem junctionTables_nodup_iff (dialect : DatabaseKind) (b : Blueprint)
    (entities : List Entity) :
    (∀ j ∈ Junction.ofEntities entities,
        ((junctionTable dialect b j).columns.map Column.name).Nodup) ↔
      ∀ d, Junction.named? (Junction.descriptions entities) d.name = some d →
        Junction.Apart (Junction.descriptions entities) d := by
  simp only [names_junctionTable, Junction.mem_ofEntities_iff]
  constructor
  · intro h d hd
    exact (Junction.columns_nodup_iff_apart hd).mp (h _ ⟨d, hd, rfl⟩)
  · rintro h _ ⟨d, hd, rfl⟩
    exact (Junction.columns_nodup_iff_apart hd).mpr (h d hd)

/-- All tables of a valid manifest, in every kind of database, have pairwise distinct columns
exactly if the columns that the lints do not look at are apart. -/
theorem columns_nodup_iff [Pattern.Checker] (m : Manifest) (hvalid : m.validate.valid = true)
    (dialect : DatabaseKind) :
    (∀ t ∈ tables dialect (Blueprint.ofManifest m), (t.columns.map Column.name).Nodup) ↔
      m.normalize.ColumnsApart := by
  obtain ⟨-, hduplicates, -, hconfiguration, -⟩ := m.valid_iff.mp hvalid
  have htenancy : Lint.tenancy m.normalize = [] := by
    simp only [Lint.configuration, List.append_eq_nil_iff] at hconfiguration
    exact hconfiguration.2
  have hrecords : (∀ t ∈ (Blueprint.ofManifest m).records.map
        (recordTable dialect (Blueprint.ofManifest m)), (t.columns.map Column.name).Nodup) ↔
      ∀ e ∈ m.normalize.entities, Lint.TenantApart m.normalize e := by
    simp only [Blueprint.ofManifest, Blueprint.ofNormal, List.forall_mem_map]
    exact forall₂_congr fun e he ↦ recordColumns_nodup_iff hduplicates htenancy dialect he
  have haudit : ∀ t ∈ if (Blueprint.ofManifest m).records.any (·.traits.audit) then
      [auditLog dialect] else [], (t.columns.map Column.name).Nodup := by
    intro t ht
    rw [List.mem_singleton.mp (List.mem_ite_nil_right.mp ht).2]
    exact names_auditLog_nodup dialect
  rw [tables, List.forall_mem_append, List.forall_mem_append, hrecords, List.forall_mem_map,
    and_iff_left haudit]
  simp only [Blueprint.ofManifest, Blueprint.ofNormal, junctionTables_nodup_iff]
  exact ⟨fun h ↦ ⟨h.1, h.2⟩, fun h ↦ ⟨h.tenant, h.junctions⟩⟩

/-- Posts with tags, and fields on the table between them. -/
def tagged (pivot : List (String × Field)) : Manifest where
  database := some (.sqlite "app.db")
  entities :=
    [{ name := "Post", fields := .ofList [("title", { kind := .text })],
       relations := .ofList
         [("tags", ⟨.belongsToMany, "Tag", none, some { fields := .ofList pivot }, false⟩)] },
      { name := "Tag", fields := .ofList [("label", { kind := .text })] }]

theorem columns_nodup_iff_tagged :
    (tagged [("position", { kind := .number })]).validate.valid = true ∧
      ∀ t ∈ tables .postgres (Blueprint.ofManifest (tagged [("position", { kind := .number })])),
        (t.columns.map Column.name).Nodup := by
  have hvalid : (tagged [("position", { kind := .number })]).validate.valid = true := by
    decide +kernel
  have hapart : (tagged [("position", { kind := .number })]).normalize.ColumnsApart := by
    -- there are no tenants, and one relation describes the one junction table
    refine ⟨fun _ _ _ hfield ↦ (nomatch hfield), fun d hd ↦ ?_⟩
    obtain rfl := List.mem_singleton.mp (List.mem_of_find?_eq_some hd)
    exact ⟨by decide +kernel, by decide +kernel, by decide +kernel, by decide +kernel⟩
  exact ⟨hvalid, (columns_nodup_iff _ hvalid .postgres).mpr hapart⟩

/-- A field of a junction table may land on one of its keys, and a tenant field on `id`. -/
theorem valid_with_repeated_columns :
    ((tagged [("postId", { kind := .text })]).validate.valid = true ∧
      ∀ dialect, ¬ ∀ t ∈ tables dialect (Blueprint.ofManifest
        (tagged [("postId", { kind := .text })])), (t.columns.map Column.name).Nodup) ∧
    ({ tagged [] with tenancy := some ⟨some true, some "id"⟩ : Manifest }.validate.valid = true ∧
      ∀ dialect, ¬ ∀ t ∈ tables dialect (Blueprint.ofManifest
        { tagged [] with tenancy := some ⟨some true, some "id"⟩ }),
        (t.columns.map Column.name).Nodup) := by
  refine ⟨⟨by decide +kernel, ?_⟩, by decide +kernel, ?_⟩ <;>
    rintro (_ | _ | _) <;> decide +kernel

end Scaffold

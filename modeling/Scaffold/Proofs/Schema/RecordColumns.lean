import Mathlib.Data.List.Nodup
import Scaffold.Proofs.Repeats
import Scaffold.Diagnosis.Validate
import Scaffold.Sql.Schema

/-!
# The columns of entity tables

The lint for names used twice keeps its own account of the columns of a table.  That account is a
rearrangement of the columns that the schema has.  So if the lint finds nothing, only the columns
that every table gets can still collide, and there the tenant column is the one that can be named
freely.
-/

namespace Scaffold

open Sql Lint

/-! ## The records of a manifest -/

namespace Manifest

theorem records_ofManifest (m : Manifest) : (Blueprint.ofManifest m).records =
    m.entities.map fun e ↦ Record.ofEntity (e.normalize m.defaults m.source) := by
  rw [Blueprint.ofManifest, Blueprint.ofNormal, Manifest.normalize, List.map_map]
  rfl

theorem stored_ofEntity_normalize (e : Entity) (defaults : Option Defaults)
    (source : Option Source) :
    (Record.ofEntity (e.normalize defaults source)).stored =
      e.storedFields.entries.map fun f ↦ Attribute.ofField f.1 f.2.normalize := by
  simp only [Record.stored, Record.ofEntity, Entity.normalize, normalizeFields, Attribute.ofFields,
    Entity.storedFields, Assoc.entries_filter, Assoc.entries_mapValues, List.map_map,
    List.filter_map]
  rfl

end Manifest

/-! ## Two accounts of the same columns -/

def Lint.columnUses (n : Manifest) (e : Entity) : List ColumnUse :=
  generatedColumns n e ++ fieldColumns e ++ ownKeys e ++ foreignKeys n e.name

theorem names_tenantColumns (dialect : DatabaseKind) (n : Manifest) :
    (tenantColumns dialect (Blueprint.ofNormal n).tenant).map Column.name =
      (n.tenantField?.map columnOf).toList := by
  cases htenancy : n.tenancy with
  | none => simp [tenantColumns, Blueprint.ofNormal, Manifest.tenantField?, htenancy]
  | some t =>
      by_cases henabled : t.enabled.getD false = true <;>
        simp [tenantColumns, Blueprint.ofNormal, Manifest.tenantField?, htenancy, henabled]

theorem names_attributeColumns (dialect : DatabaseKind) (e : Entity) :
    ((Record.ofEntity e).stored.map (attributeColumn dialect)).map Column.name =
      (fieldColumns e).map ColumnUse.column := by
  simp only [Record.stored, Record.ofEntity, Attribute.ofFields, fieldColumns,
    Entity.storedFields, List.filter_map, List.map_map]
  rfl

theorem names_ownKeyColumns (dialect : DatabaseKind) (b : Blueprint) (e : Entity) :
    (ownKeyColumns dialect b (Record.ofEntity e)).map Column.name =
      (ownKeys e).map ColumnUse.column := by
  simp only [ownKeyColumns, Record.ownedLinks, Record.ofEntity, ownKeys, List.map_map]
  induction e.relations.entries with
  | nil => rfl
  | cons r rs ih =>
      by_cases hkind : r.2.kind = .hasOne <;>
        simp_all [Link.ofRelation]

theorem names_keyColumnsFrom (dialect : DatabaseKind) (owner : Entity) (target : String) :
    (keyColumnsFrom dialect (Record.ofEntity owner) target).map Column.name =
      (keysFrom owner target).map ColumnUse.column := by
  simp only [keyColumnsFrom, Record.ofEntity, keysFrom, List.map_map]
  induction owner.relations.entries with
  | nil => rfl
  | cons r rs ih =>
      by_cases hkey : r.2.kind = .hasMany ∧ r.2.external = false ∧ r.2.entity = target <;>
        simp_all [Link.ofRelation]

theorem names_foreignKeyColumns (dialect : DatabaseKind) (n : Manifest) (target : String) :
    (foreignKeyColumns dialect (Blueprint.ofNormal n) target).map Column.name =
      (foreignKeys n target).map ColumnUse.column := by
  simp only [foreignKeyColumns, Blueprint.ofNormal, foreignKeys, List.map_flatMap,
    List.flatMap_map, names_keyColumnsFrom]

theorem names_generated (dialect : DatabaseKind) (n : Manifest) (e : Entity) :
    (generatedColumns n e).map ColumnUse.column =
      "id" :: (tenantColumns dialect (Blueprint.ofNormal n).tenant).map Column.name ++
        (traitColumns dialect (Record.ofEntity e).traits).map Column.name := by
  rw [names_tenantColumns]
  cases htenant : n.tenantField? <;>
    by_cases htimestamps : e.behaviors.keepsTimestamps = true <;>
      by_cases hsoft : e.behaviors.deletesSoftly = true <;>
        simp [generatedColumns, traitColumns, Record.ofEntity, timestampColumn, htenant,
          htimestamps, hsoft]

/-- The schema has the columns that the lint counts; only the order differs. -/
theorem names_recordColumns_perm (dialect : DatabaseKind) (n : Manifest) (e : Entity) :
    ((recordColumns dialect (Blueprint.ofNormal n) (Record.ofEntity e)).map Column.name).Perm
      ((columnUses n e).map ColumnUse.column) := by
  simp only [recordColumns, columnUses, List.map_append, names_attributeColumns,
    names_ownKeyColumns, names_generated dialect n e]
  rw [show (Record.ofEntity e).name = e.name from rfl, names_foreignKeyColumns]
  simp only [idColumn, List.map_cons, List.map_nil, List.cons_append, List.nil_append,
    List.append_assoc]
  apply List.Perm.cons
  apply List.Perm.append_left
  rw [← List.append_assoc, ← List.append_assoc]
  refine (List.perm_append_comm).trans ?_
  simp only [List.append_assoc]
  rfl

/-! ## What it takes for the columns to be distinct -/

/-- The tenant column is none of the other columns that the table of an entity gets. -/
def Lint.TenantApart (n : Manifest) (e : Entity) : Prop :=
  ∀ field, n.tenantField? = some field →
    columnOf field ≠ "id" ∧
      (e.behaviors.keepsTimestamps = true →
        columnOf field ≠ "created_at" ∧ columnOf field ≠ "updated_at") ∧
      (e.behaviors.deletesSoftly = true → columnOf field ≠ "deleted_at")

theorem generatedColumns_nodup_iff (n : Manifest) (e : Entity) :
    ((generatedColumns n e).map ColumnUse.column).Nodup ↔ TenantApart n e := by
  cases htenant : n.tenantField? <;>
    by_cases htimestamps : e.behaviors.keepsTimestamps = true <;>
      by_cases hsoft : e.behaviors.deletesSoftly = true <;>
        simp [generatedColumns, TenantApart, htenant, htimestamps, hsoft, eq_comm, and_assoc]

/-- Where no field is on a generated column, all of them take part in the comparison. -/
theorem furtherColumns_of_apart {n : Manifest} {e : Entity}
    (h : ∀ field ∈ Assoc.keys e.fields, ∀ use ∈ generatedColumns n e,
      use.column ≠ columnOf field) :
    furtherColumns n e = fieldColumns e ++ ownKeys e ++ foreignKeys n e.name := by
  have hfilter : (fieldColumns e).filter
      (fun c ↦ !(generatedColumns n e).any (·.column == c.column)) = fieldColumns e := by
    rw [List.filter_eq_self]
    intro c hc
    obtain ⟨f, hf, rfl⟩ := List.mem_map.mp hc
    have hkey : f.1 ∈ Assoc.keys e.fields :=
      List.mem_map_of_mem (List.mem_of_mem_filter hf)
    simp only [Bool.not_eq_true', List.any_eq_false, beq_iff_eq]
    exact h f.1 hkey
  rw [furtherColumns, hfilter]

theorem map_key_zipIdx (key : Entity → String) (entities : List Entity) :
    entities.zipIdx.map (fun p ↦ key p.1) = entities.map key := by
  rw [show (fun p : Entity × Nat ↦ key p.1) = key ∘ Prod.fst from rfl,
    ← List.map_map, List.zipIdx_map_fst]

theorem Manifest.entityNames_normalize (m : Manifest) :
    m.normalize.entityNames = m.entityNames := by
  rw [Manifest.entityNames, Manifest.normalize, List.map_map]
  rfl

section

variable {n : Manifest} (hduplicates : duplicates n = [])

include hduplicates

theorem entityNames_nodup_of_duplicates : (n.entities.map Entity.name).Nodup := by
  simp only [duplicates, List.append_eq_nil_iff] at hduplicates
  have hentities : entitiesTwice n = [] := hduplicates.1.1.1.1
  rw [← map_key_zipIdx]
  exact (repeats_eq_nil_iff _ _).mp (List.map_eq_nil_iff.mp hentities)

/-- Without repeated names, every entity is looked at. -/
theorem declared_eq_of_duplicates : declared n = n.entities.zipIdx := by
  apply firsts_eq_self
  rw [map_key_zipIdx Entity.name]
  exact entityNames_nodup_of_duplicates hduplicates

theorem singulars_nodup_of_duplicates : (n.entities.map fun e ↦ singularOf e.name).Nodup := by
  have hdeclared := declared_eq_of_duplicates hduplicates
  simp only [duplicates, List.append_eq_nil_iff] at hduplicates
  have hsingulars : singularsTwice n = [] := hduplicates.1.1.2
  rw [← map_key_zipIdx, ← hdeclared]
  exact (repeats_eq_nil_iff _ _).mp (List.map_eq_nil_iff.mp hsingulars)

/-- Without repeated storage forms, the table of every entity is looked at. -/
theorem distinct_eq_of_duplicates : distinct n = n.entities.zipIdx := by
  rw [distinct, declared_eq_of_duplicates hduplicates]
  apply firsts_eq_self
  rw [map_key_zipIdx fun e ↦ singularOf e.name]
  exact singulars_nodup_of_duplicates hduplicates

theorem columnFindings_eq_nil_of_duplicates {e : Entity} (he : e ∈ n.entities) :
    reservedFields n e = [] ∧ columnsTwice n e = [] := by
  have hdeclared := declared_eq_of_duplicates hduplicates
  rw [← List.zipIdx_map_fst 0 n.entities] at he
  obtain ⟨p, hp, rfl⟩ := List.mem_map.mp he
  simp only [duplicates, List.append_eq_nil_iff, List.flatMap_eq_nil_iff, hdeclared] at hduplicates
  have hentity := hduplicates.1.1.1.2 p hp
  exact ⟨hentity.1.2, hentity.2⟩

/-- No field, the tenant field included, is on a column that the table gets anyway. -/
theorem column_ne_of_mem_generatedColumns (htenancy : tenancy n = []) {e : Entity}
    (he : e ∈ n.entities) {field : String} (hfield : field ∈ Assoc.keys e.fields)
    {use : ColumnUse} (huse : use ∈ generatedColumns n e) : use.column ≠ columnOf field := by
  have hreserved := (columnFindings_eq_nil_of_duplicates hduplicates he).1
  have hnone := List.filterMap_eq_nil_iff.mp hreserved field hfield
  by_cases htenant : n.tenantField? = some field
  · simp only [tenancy, htenant, List.map_eq_nil_iff, List.filter_eq_nil_iff] at htenancy
    obtain ⟨p, hp, rfl⟩ := List.mem_map.mp hfield
    exact absurd (List.any_eq_true.mpr ⟨p, hp, by simp⟩) (htenancy e he)
  · rw [if_neg htenant, Option.map_eq_none_iff, List.find?_eq_none] at hnone
    simpa using hnone use huse

theorem furtherColumns_eq (htenancy : tenancy n = []) {e : Entity} (he : e ∈ n.entities) :
    furtherColumns n e = fieldColumns e ++ ownKeys e ++ foreignKeys n e.name :=
  furtherColumns_of_apart fun _ hfield _ huse ↦
    column_ne_of_mem_generatedColumns hduplicates htenancy he hfield huse

/-- Where the lints find nothing, the table of an entity has distinct columns exactly if its tenant
column is apart from the others that it gets. -/
theorem recordColumns_nodup_iff (htenancy : tenancy n = []) (dialect : DatabaseKind) {e : Entity}
    (he : e ∈ n.entities) :
    ((recordColumns dialect (Blueprint.ofNormal n) (Record.ofEntity e)).map Column.name).Nodup ↔
      TenantApart n e := by
  have htwice := (columnFindings_eq_nil_of_duplicates hduplicates he).2
  obtain ⟨hfurther, hapart⟩ := (filterMap_withEarlier_eq_nil_iff ColumnUse.column
    (generatedColumns n e).reverse (furtherColumns n e)
    fun c first ↦ Finding.columnTwice e.name c.column first.origin c.origin).mp htwice
  have huses : columnUses n e = generatedColumns n e ++ furtherColumns n e := by
    rw [furtherColumns_eq hduplicates htenancy he, columnUses]
    simp only [List.append_assoc]
  rw [(names_recordColumns_perm dialect n e).nodup_iff, huses, List.map_append,
    List.nodup_append, generatedColumns_nodup_iff]
  constructor
  · exact fun h ↦ h.1
  · intro htenant
    refine ⟨htenant, hfurther, ?_⟩
    simp only [List.mem_map]
    rintro _ ⟨first, hfirst, rfl⟩ _ ⟨c, hc, rfl⟩
    exact hapart first (List.mem_reverse.mpr hfirst) c hc

end

end Scaffold

import Mathlib.Tactic.TFAE
import Scaffold.Proofs.Generation.OutputPaths
import Scaffold.Proofs.Schema.Columns
import Scaffold.Proofs.Schema.ForeignKeys
import Scaffold.Proofs.Schema.PivotFields

/-!
# Columns and storage

A computed field has no storage.  The tables of entities keep to that: they are the tables of the
manifest that has no computed fields.  A junction table, however, has a column for whatever its
relations declare, and the lints let a relation declare a computed field.  There is no type for such
a column, so that the columns of a valid manifest all have types exactly if no relation does that.
-/

namespace Scaffold

open Sql Lint

/-! ## Manifests without computed fields -/

def Pivot.withoutComputed (p : Pivot) : Pivot :=
  { p with fields := p.fields.filter (!·.2.isComputed) }

def Relation.withoutComputed (r : Relation) : Relation :=
  { r with pivot := r.pivot.map Pivot.withoutComputed }

def Entity.withoutComputed (e : Entity) : Entity :=
  { e with
    fields := e.storedFields
    relations := e.relations.mapValues Relation.withoutComputed }

/-- The manifest with all computed fields left out, those of pivots included. -/
def Manifest.withoutComputed (m : Manifest) : Manifest :=
  { m with entities := m.entities.map Entity.withoutComputed }

theorem normalizeFields_filter (fields : Assoc Field) :
    normalizeFields (fields.filter (!·.2.isComputed)) =
      (normalizeFields fields).filter (!·.2.isComputed) := by
  ext1
  simp only [normalizeFields, Assoc.entries_mapValues, Assoc.entries_filter, List.filter_map]
  rfl

theorem Relation.normalize_withoutComputed (r : Relation) :
    r.withoutComputed.normalize = r.normalize.withoutComputed := by
  rcases r with ⟨kind, entity, field, - | pivot, external⟩
  · rfl
  · simp only [withoutComputed, normalize, Option.map_some, Pivot.withoutComputed,
      Pivot.normalize, normalizeFields_filter]

theorem Entity.normalize_withoutComputed (defaults : Option Defaults) (source : Option Source)
    (e : Entity) :
    e.withoutComputed.normalize defaults source =
      (e.normalize defaults source).withoutComputed := by
  simp only [withoutComputed, normalize, storedFields, normalizeFields_filter,
    Assoc.mapValues_mapValues, Function.comp_def, Relation.normalize_withoutComputed]

theorem Manifest.normalize_withoutComputed (m : Manifest) :
    m.withoutComputed.normalize = m.normalize.withoutComputed := by
  simp only [withoutComputed, normalize, List.map_map, Function.comp_def,
    Entity.normalize_withoutComputed, effectiveMode]

theorem Link.ofRelation_withoutComputed (owner name : String) (r : Relation) :
    ofRelation owner name r.withoutComputed = ofRelation owner name r := by
  rcases r with ⟨kind, entity, field, - | pivot, external⟩ <;> rfl

def Record.storedOnly (r : Record) : Record := { r with attributes := r.stored }

theorem Record.ofEntity_withoutComputed (e : Entity) :
    ofEntity e.withoutComputed = (ofEntity e).storedOnly := by
  have hattributes : Attribute.ofFields e.storedFields = (ofEntity e).stored := by
    rw [Entity.storedFields, stored, ofEntity, Attribute.ofFields, Attribute.ofFields,
      Assoc.entries_filter, List.filter_map]
    rfl
  simp only [ofEntity, Entity.withoutComputed, storedOnly, Assoc.entries_mapValues, List.map_map,
    Function.comp_def, Link.ofRelation_withoutComputed, hattributes]
  rfl

theorem Blueprint.records_withoutComputed (n : Manifest) :
    (ofNormal n.withoutComputed).records = (ofNormal n).records.map Record.storedOnly := by
  simp only [ofNormal, Manifest.withoutComputed, List.map_map, Function.comp_def,
    Record.ofEntity_withoutComputed]

/-! ## Tables without computed fields -/

namespace Sql

section

variable {b c : Blueprint} (hrecords : c.records = b.records.map Record.storedOnly)
  (dialect : DatabaseKind)

include hrecords

theorem tableOf_storedOnly (entity : String) : tableOf c entity = tableOf b entity := by
  rw [tableOf, tableOf, Blueprint.record?, hrecords, List.find?_map, Option.map_map]
  rfl

theorem junctionTable_storedOnly (j : Junction) :
    junctionTable dialect c j = junctionTable dialect b j := by
  simp only [junctionTable, junctionKey, tableOf_storedOnly hrecords]

/-- The table of a record does not depend on its computed attributes. -/
theorem recordTable_storedOnly (htenant : c.tenant = b.tenant) (r : Record) :
    recordTable dialect c r.storedOnly = recordTable dialect b r := by
  have hstored : r.storedOnly.stored = r.stored := by
    simp [Record.storedOnly, Record.stored, List.filter_filter]
  have hown : ownKeyColumns dialect c r.storedOnly = ownKeyColumns dialect b r := by
    simp only [ownKeyColumns, tableOf_storedOnly hrecords]
    rfl
  have hforeign : foreignKeyColumns dialect c r.name = foreignKeyColumns dialect b r.name := by
    rw [foreignKeyColumns, hrecords, List.flatMap_map]
    rfl
  -- the other parts of the table are on both sides already
  change Table.mk r.table (_ ++ foreignKeyColumns dialect c r.name ++ _) _ = _
  rw [hstored, hown, hforeign, htenant]
  rfl

end

/-- Leaving out the computed fields changes nothing but the attributes of the junctions. -/
theorem tables_withoutComputed (dialect : DatabaseKind) (n : Manifest) :
    tables dialect (.ofNormal n.withoutComputed) =
      (Blueprint.ofNormal n).records.map (recordTable dialect (.ofNormal n)) ++
        (Junction.ofEntities n.withoutComputed.entities).map
          (junctionTable dialect (.ofNormal n)) ++
        if (Blueprint.ofNormal n).records.any (·.traits.audit) then [auditLog dialect] else [] := by
  have hrecords := Blueprint.records_withoutComputed n
  have htables : (Blueprint.ofNormal n.withoutComputed).records.map
      (recordTable dialect (.ofNormal n.withoutComputed)) =
        (Blueprint.ofNormal n).records.map (recordTable dialect (.ofNormal n)) := by
    rw [hrecords, List.map_map]
    exact List.map_congr_left fun r _ ↦ recordTable_storedOnly hrecords dialect rfl r
  have haudit : (Blueprint.ofNormal n.withoutComputed).records.any (·.traits.audit) =
      (Blueprint.ofNormal n).records.any (·.traits.audit) := by
    rw [hrecords, List.any_map]
    rfl
  have hjunction : junctionTable dialect (.ofNormal n.withoutComputed) =
      junctionTable dialect (.ofNormal n) := funext (junctionTable_storedOnly hrecords dialect)
  rw [tables, htables, haudit, hjunction]
  rfl

/-! ## Types of columns -/

def Table.Typed (t : Table) : Prop := ∀ c ∈ t.columns, c.type ≠ ""

instance decidableTyped (t : Table) : Decidable t.Typed :=
  inferInstanceAs (Decidable (∀ c ∈ t.columns, c.type ≠ ""))

theorem idType_ne_empty (dialect : DatabaseKind) : idType dialect ≠ "" := by
  cases dialect <;> decide

theorem timestampType_ne_empty (dialect : DatabaseKind) : timestampType dialect ≠ "" := by
  cases dialect <;> decide

theorem columnType_ne_empty_iff (dialect : DatabaseKind) (a : Attribute) :
    columnType dialect a ≠ "" ↔ a.isStored = true := by
  simp only [columnType, Attribute.isStored]
  cases a.kind with
  | computed => simp [FieldKind.isComputed]
  | date => simpa [FieldKind.isComputed] using timestampType_ne_empty dialect
  | boolean => cases dialect <;> simp [FieldKind.isComputed]
  | number => cases dialect <;> simp only [FieldKind.isComputed] <;> split <;> simp
  | text => cases dialect <;> simp [FieldKind.isComputed]
  | enum => cases dialect <;> simp [FieldKind.isComputed]

/-- Every column of the table of a record has a type. -/
theorem typed_recordTable (dialect : DatabaseKind) (b : Blueprint) (r : Record) :
    (recordTable dialect b r).Typed := by
  intro c hc
  simp only [recordTable, recordColumns, List.mem_append] at hc
  rcases hc with ((((hid | htenant) | hstored) | hown) | hforeign) | htraits
  · rw [List.mem_singleton.mp hid]
    exact idType_ne_empty dialect
  · rw [tenantColumns, List.mem_ite_nil_right, List.mem_singleton] at htenant
    rw [htenant.2]
    exact idType_ne_empty dialect
  · obtain ⟨a, ha, rfl⟩ := List.mem_map.mp hstored
    exact (columnType_ne_empty_iff dialect a).mpr (List.mem_filter.mp ha).2
  · obtain ⟨l, -, rfl⟩ := List.mem_map.mp hown
    exact idType_ne_empty dialect
  · obtain ⟨owner, -, hkey⟩ := List.mem_flatMap.mp hforeign
    obtain ⟨l, -, rfl⟩ := List.mem_map.mp hkey
    exact idType_ne_empty dialect
  · simp only [traitColumns, List.mem_append, List.mem_ite_nil_right, List.mem_cons,
      List.not_mem_nil, or_false] at htraits
    rcases htraits with ⟨-, rfl | rfl⟩ | ⟨-, rfl⟩ <;> exact timestampType_ne_empty dialect

theorem typed_auditLog (dialect : DatabaseKind) : (auditLog dialect).Typed := by
  cases dialect <;> decide

theorem typed_junctionTable_iff (dialect : DatabaseKind) (b : Blueprint) (j : Junction) :
    (junctionTable dialect b j).Typed ↔ ∀ a ∈ j.attributes, a.isStored = true := by
  simp only [Table.Typed, junctionTable, List.forall_mem_append, List.forall_mem_cons,
    List.forall_mem_map]
  have hkeys : idType dialect ≠ "" := idType_ne_empty dialect
  simp only [junctionKey, attributeColumn, columnType_ne_empty_iff]
  simp [hkeys]

/-- All columns have types exactly if no computed field is on a junction table. -/
theorem typed_tables_iff (dialect : DatabaseKind) (b : Blueprint) :
    (∀ t ∈ tables dialect b, t.Typed) ↔
      ∀ j ∈ b.junctions, ∀ a ∈ j.attributes, a.isStored = true := by
  have hrecords : ∀ t ∈ b.records.map (recordTable dialect b), t.Typed := by
    rw [List.forall_mem_map]
    exact fun r _ ↦ typed_recordTable dialect b r
  have haudit : ∀ t ∈ if b.records.any (·.traits.audit) then [auditLog dialect] else [],
      t.Typed := by
    intro t ht
    rw [List.mem_singleton.mp (List.mem_ite_nil_right.mp ht).2]
    exact typed_auditLog dialect
  rw [tables, List.forall_mem_append, List.forall_mem_append, and_iff_left haudit,
    and_iff_right hrecords, List.forall_mem_map]
  exact forall₂_congr fun j _ ↦ typed_junctionTable_iff dialect b j

end Sql

/-! ## Computed fields of pivots -/

/-- No relation with many on both sides declares a computed field for its junction table. -/
def Manifest.PivotsStored (m : Manifest) : Prop :=
  ∀ r ∈ m.manyToMany, ∀ pivot ∈ r.relation.pivot, ∀ f ∈ pivot.fields.entries, f.2.isComputed = false

theorem Field.agree_of_beq {f g : Field} (h : (f == g) = true) :
    f.kind = g.kind ∧ (f.default == g.default) = true := by
  have hparts : (f.parts == g.parts) = true := h
  simp only [Field.parts, beq_pair, Bool.and_eq_true, beq_iff_eq] at hparts
  exact ⟨hparts.1, hparts.2.2.2.1⟩

namespace Manifest

variable {n : Manifest}

theorem pivotsStored_iff :
    n.PivotsStored ↔ ∀ p ∈ pivotFields n, p.field.isComputed = false := by
  constructor
  · intro h p hp
    obtain ⟨r, hr, pivot, hpivot, f, hf, rfl⟩ := mem_pivotFields.mp hp
    exact h r hr pivot hpivot f hf
  · intro h r hr pivot hpivot f hf
    exact h (r.declaration f) (mem_pivotFields.mpr ⟨r, hr, pivot, hpivot, f, hf, rfl⟩)

theorem pivotsStored_normalize (m : Manifest) : m.normalize.PivotsStored ↔ m.PivotsStored := by
  have hmany : m.normalize.manyToMany = m.manyToMany.map OwnedRelation.normalize := by
    rw [manyToMany, ownedRelations_normalize, List.filter_map]
    rfl
  simp only [PivotsStored, hmany, List.forall_mem_map]
  refine forall₂_congr fun r _ ↦ ?_
  rcases r with ⟨owner, name, ⟨kind, entity, field, - | pivot, external⟩⟩
  · simp [OwnedRelation.normalize, Relation.normalize]
  · simp [OwnedRelation.normalize, Relation.normalize, Pivot.normalize, normalizeFields,
      Field.normalize, Field.isComputed]

theorem PivotsStored.isStored (h : n.PivotsStored) {j : Junction}
    (hj : j ∈ Junction.ofEntities n.entities) {a : Attribute} (ha : a ∈ j.attributes) :
    a.isStored = true := by
  obtain ⟨d, hfirst, rfl⟩ := Junction.mem_ofEntities_iff.mp hj
  obtain ⟨added, heq, hdeclared, -⟩ := Junction.attributes_addAttributes_spec hfirst
  obtain ⟨p, hp, -, rfl⟩ := Junction.mem_attributesNamed_iff.mp (hdeclared a (heq ▸ ha))
  have hcomputed : p.field.isComputed = false := pivotsStored_iff.mp h p hp
  exact congrArg not hcomputed

/-- If junction tables store all their attributes, no pivot has a computed field. -/
theorem pivotsStored_of_isStored (hrelations : relations n = [])
    (h : ∀ j ∈ Junction.ofEntities n.entities, ∀ a ∈ j.attributes, a.isStored = true) :
    n.PivotsStored := by
  refine pivotsStored_iff.mpr fun p hp ↦ ?_
  obtain ⟨j, hj, q, hq, -, hsame⟩ := exists_mem_attributes hrelations hp
  have hkind : q.field.kind = p.field.kind := by
    rcases hsame with rfl | hbeq
    · rfl
    · exact (Field.agree_of_beq hbeq).1
  have hmem : j ∈ Junction.ofEntities n.entities :=
    List.mem_of_mem_filter (hj ▸ List.mem_singleton_self j)
  have hstored : (!q.field.kind.isComputed) = true := h j hmem q.attribute hq
  rw [hkind] at hstored
  simpa [Field.isComputed] using hstored

theorem pivotsStored_withoutComputed (n : Manifest) : n.withoutComputed.PivotsStored := by
  intro r hr pivot hpivot f hf
  obtain ⟨e', he', hr⟩ := List.mem_flatMap.mp (mem_manyToMany.mp hr).1
  obtain ⟨e, -, rfl⟩ := List.mem_map.mp he'
  obtain ⟨entry', hentry', rfl⟩ := List.mem_map.mp hr
  obtain ⟨entry, -, rfl⟩ := List.mem_map.mp hentry'
  obtain ⟨declared, -, rfl⟩ := Option.map_eq_some_iff.mp hpivot
  simpa using (List.mem_filter.mp hf).2

/-- Without computed fields, junction tables are the same where pivots have none. -/
theorem PivotsStored.junctions_withoutComputed (h : n.PivotsStored) :
    Junction.ofEntities n.withoutComputed.entities = Junction.ofEntities n.entities := by
  -- relations of other kinds do lose fields, but describe no junction table
  have hrelation (e) (he : e ∈ n.entities) (r) (hr : r ∈ e.relations.entries)
      (hkind : r.2.kind = .belongsToMany) : r.2.withoutComputed = r.2 := by
    have howned : ⟨e.name, r.1, r.2⟩ ∈ n.manyToMany := mem_manyToMany.mpr
      ⟨List.mem_flatMap.mpr ⟨e, he, List.mem_map.mpr ⟨r, hr, rfl⟩⟩, hkind⟩
    rcases r with ⟨name, ⟨kind, entity, field, - | pivot, external⟩⟩
    · rfl
    · have hfields : pivot.fields.filter (!·.2.isComputed) = pivot.fields :=
        Assoc.ext (List.filter_eq_self.mpr fun f hf ↦ by simpa using h _ howned pivot rfl f hf)
      simp only [Relation.withoutComputed, Option.map_some, Pivot.withoutComputed, hfields]
  have hentity (e) (he : e ∈ n.entities) :
      Junction.ofEntity e.withoutComputed = Junction.ofEntity e := by
    rw [Junction.ofEntity, Entity.withoutComputed, Assoc.entries_mapValues, List.filterMap_map]
    refine List.filterMap_congr fun r hr ↦ ?_
    by_cases hkind : r.2.kind = .belongsToMany
    · simp only [Function.comp_apply, hrelation e he r hr hkind]
    · simp [Relation.withoutComputed, hkind]
  rw [Junction.ofEntities, withoutComputed, List.flatMap_map, List.flatMap_congr hentity]
  rfl

/-! ## Valid manifests -/

theorem tableFor_withoutComputed (m : Manifest) (dialect : DatabaseKind) (e : Entity) :
    m.withoutComputed.tableFor dialect e.withoutComputed = m.tableFor dialect e := by
  have hrecords := Blueprint.records_withoutComputed m.normalize
  rw [← normalize_withoutComputed] at hrecords
  calc
    m.withoutComputed.tableFor dialect e.withoutComputed
      = recordTable dialect (.ofManifest m.withoutComputed)
          (Record.ofEntity (e.normalize m.defaults m.source)).storedOnly := by
        rw [tableFor, ← Record.ofEntity_withoutComputed, ← Entity.normalize_withoutComputed]
        rfl
    _ = m.tableFor dialect e := recordTable_storedOnly hrecords dialect rfl _

theorem tableFor_mem_tables {m : Manifest} {e : Entity} (he : e ∈ m.entities)
    (dialect : DatabaseKind) : m.tableFor dialect e ∈ tables dialect (.ofManifest m) := by
  rw [tables, recordTables_eq, List.append_assoc]
  exact List.mem_append_left _ (List.mem_map_of_mem he)

/-- In the schema of a valid manifest the table of every entity has a type for each column, and is
the same without the computed fields.  That all tables have types, that all are the same without
the computed fields, and that no relation declares a computed field for its junction table, are the
same. -/
theorem computed_unstored_iff [Pattern.Checker] (m : Manifest) (hvalid : m.validate.valid = true)
    {d : Database} (hdatabase : m.database = some d) :
    (m.effectiveMode ≠ .apiOnly → .generated "schema.sql"
        (Sql.render d.kind Standard.generatedHeading (tables d.kind (.ofManifest m))) ∈
      Standard.files (.ofManifest m)) ∧
    (∀ e ∈ m.entities, m.tableFor d.kind e ∈ tables d.kind (.ofManifest m) ∧
      (m.tableFor d.kind e).Typed ∧
        m.tableFor d.kind e = m.withoutComputed.tableFor d.kind e.withoutComputed) ∧
    [∀ t ∈ tables d.kind (.ofManifest m), t.Typed,
      tables d.kind (.ofManifest m) = tables d.kind (.ofManifest m.withoutComputed),
      m.PivotsStored].TFAE := by
  obtain ⟨-, -, hrelations, -⟩ := m.valid_iff.mp hvalid
  refine ⟨schema_mem_files hdatabase, fun e he ↦ ⟨tableFor_mem_tables he d.kind,
    typed_recordTable _ _ _, (tableFor_withoutComputed m d.kind e).symm⟩, ?_⟩
  tfae_have 1 → 3 := fun htyped ↦ (pivotsStored_normalize m).mp <|
    pivotsStored_of_isStored hrelations ((typed_tables_iff d.kind _).mp htyped)
  tfae_have 3 → 2 := by
    intro hstored
    have hjunctions := ((pivotsStored_normalize m).mpr hstored).junctions_withoutComputed
    rw [Blueprint.ofManifest, Blueprint.ofManifest, normalize_withoutComputed,
      tables_withoutComputed, hjunctions]
    rfl
  tfae_have 2 → 1 := by
    intro heq
    rw [heq, typed_tables_iff]
    intro j hj a ha
    exact ((pivotsStored_normalize _).mpr (pivotsStored_withoutComputed m)).isStored hj ha
  tfae_finish

end Manifest

/-- Posts with a computed slug, and with tags on whose junction table there are more fields. -/
def computedPosts (pivot : List (String × Field)) : Manifest where
  database := some (.mysql "mysql://localhost/app")
  entities :=
    [{ name := "Post",
       fields := .ofList
         [("title", { kind := .text }), ("slug", { kind := .computed ["title"] "title" })],
       relations := .ofList
         [("tags", ⟨.belongsToMany, "Tag", none, some { fields := .ofList pivot }, false⟩)] },
      { name := "Tag", fields := .ofList [("label", { kind := .text })] }]

theorem Manifest.computed_unstored_iff_computedPosts :
    (computedPosts [("weight", { kind := .number })]).validate.valid = true ∧
      (computedPosts [("weight", { kind := .number })]).PivotsStored ∧
        ∀ t ∈ tables .mysql (.ofManifest (computedPosts [("weight", { kind := .number })])),
          t.Typed := by
  have hvalid : (computedPosts [("weight", { kind := .number })]).validate.valid = true := by
    decide +kernel
  have hstored : (computedPosts [("weight", { kind := .number })]).PivotsStored := by
    unfold PivotsStored
    decide +kernel
  exact ⟨hvalid, hstored, ((computed_unstored_iff _ hvalid rfl).2.2.out 0 2).mpr hstored⟩

/-- A computed field of a pivot passes the lints and has a column, to which no database gives a
type. -/
theorem Manifest.valid_with_untyped_column :
    (computedPosts [("label", { kind := .text }),
        ("slug", { kind := .computed ["label"] "label" })]).validate.valid = true ∧
      ∀ dialect, ∃ t ∈ tables dialect (.ofManifest (computedPosts [("label", { kind := .text }),
          ("slug", { kind := .computed ["label"] "label" })])),
        t.name = "post_tag" ∧ ¬ t.Typed ∧
          ∃ c ∈ t.columns, c.render dialect = "slug  NOT NULL" := by
  refine ⟨by decide +kernel, ?_⟩
  rintro (_ | _ | _) <;> decide +kernel

end Scaffold

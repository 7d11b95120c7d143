import Scaffold.Proofs.Schema.RecordColumns
import Scaffold.Proofs.Validity

/-!
# Findings about columns

Three lints share the columns of a table.  A field on a column that the table gets anyway is a
reserved field, unless it is the tenant field, which is a matter of the configuration; and keys and
the other fields are compared with each other.  Together they find something exactly if two things
ask for one column, the columns that every table gets among themselves apart.
-/

namespace Scaffold

open Sql Lint

namespace Lint

variable {n : Manifest} {e : Entity}

/-! ## What there is to find -/

def columnFindings (n : Manifest) (e : Entity) : List Finding :=
  reservedFields n e ++ columnsTwice n e ++ tenantConflicts n e

/-- Whether what an entity and the relations to it ask for fits on its table. -/
structure ColumnsClear (n : Manifest) (e : Entity) : Prop where
  fields : ∀ field ∈ Assoc.keys e.fields, ∀ use ∈ generatedColumns n e,
    use.column ≠ columnOf field
  keys : ∀ key ∈ ownKeys e ++ foreignKeys n e.name, ∀ use ∈ generatedColumns n e,
    use.column ≠ key.column
  distinct : ((fieldColumns e ++ ownKeys e ++ foreignKeys n e.name).map ColumnUse.column).Nodup

theorem tenantConflicts_eq_nil_iff : tenantConflicts n e = [] ↔
    ∀ field, n.tenantField? = some field → field ∉ Assoc.keys e.fields := by
  simp only [tenantConflicts, List.map_eq_nil_iff, List.filter_eq_nil_iff, Option.mem_toList]
  simp [Assoc.contains, Assoc.keys]

theorem reservedFields_eq_nil_iff : reservedFields n e = [] ↔
    ∀ field ∈ Assoc.keys e.fields, n.tenantField? ≠ some field →
      ∀ use ∈ generatedColumns n e, use.column ≠ columnOf field := by
  rw [reservedFields, List.filterMap_eq_nil_iff]
  refine forall₂_congr fun field _ ↦ ?_
  by_cases htenant : n.tenantField? = some field
  · simp [htenant]
  · simp [htenant]

theorem columnsTwice_eq_nil_iff : columnsTwice n e = [] ↔
    ((furtherColumns n e).map ColumnUse.column).Nodup ∧
      ∀ c ∈ furtherColumns n e, ∀ use ∈ generatedColumns n e, use.column ≠ c.column := by
  unfold columnsTwice
  rw [filterMap_withEarlier_eq_nil_iff ColumnUse.column _ _
    fun c first ↦ Finding.columnTwice e.name c.column first.origin c.origin]
  simp only [List.mem_reverse]
  exact and_congr_right fun _ ↦ ⟨fun h c hc use huse ↦ h use huse c hc,
    fun h use huse c hc ↦ h c hc use huse⟩

/-- The tenant column is on every table. -/
theorem tenant_mem_generatedColumns {field : String} (h : n.tenantField? = some field) :
    ⟨columnOf field, .tenancy⟩ ∈ generatedColumns n e := by
  simp [generatedColumns, h]

/-- The tenant field and the others together are all fields. -/
theorem fields_apart_iff : (∀ field ∈ Assoc.keys e.fields, ∀ use ∈ generatedColumns n e,
      use.column ≠ columnOf field) ↔
    reservedFields n e = [] ∧ tenantConflicts n e = [] := by
  rw [reservedFields_eq_nil_iff, tenantConflicts_eq_nil_iff]
  constructor
  · intro h
    refine ⟨fun field hfield _ ↦ h field hfield, fun field htenant hfield ↦ ?_⟩
    exact h field hfield _ (tenant_mem_generatedColumns htenant) rfl
  · rintro ⟨hreserved, htenant⟩ field hfield
    exact hreserved field hfield fun h ↦ htenant field h hfield

/-- The lints find nothing about the columns of an entity exactly if everything fits. -/
theorem columnFindings_eq_nil_iff : columnFindings n e = [] ↔ ColumnsClear n e := by
  rw [columnFindings, List.append_eq_nil_iff, List.append_eq_nil_iff, and_right_comm,
    ← fields_apart_iff]
  constructor
  · rintro ⟨hfields, htwice⟩
    obtain ⟨hnodup, hapart⟩ := columnsTwice_eq_nil_iff.mp htwice
    rw [furtherColumns_of_apart hfields] at hnodup hapart
    rw [List.append_assoc] at hapart
    exact ⟨hfields, fun key hkey ↦ hapart key (List.mem_append_right _ hkey), hnodup⟩
  · rintro ⟨hfields, hkeys, hnodup⟩
    refine ⟨hfields, columnsTwice_eq_nil_iff.mpr ?_⟩
    rw [furtherColumns_of_apart hfields]
    refine ⟨hnodup, fun c hc ↦ ?_⟩
    rw [List.append_assoc] at hc
    rcases List.mem_append.mp hc with hfield | hkey
    · obtain ⟨f, hf, rfl⟩ := List.mem_map.mp hfield
      exact hfields f.1 (List.mem_map_of_mem (List.mem_of_mem_filter hf))
    · exact hkeys c hkey

/-! ## Where it is found -/

theorem filter_columns_eq_nil {found : List Finding} {t : Topic} (h : ∀ f ∈ found, f.topic = t)
    {entity : String} (ht : t ≠ .columns entity) :
    found.filter (·.topic = .columns entity) = [] := by
  refine List.filter_eq_nil_iff.mpr fun f hf ↦ ?_
  rw [h f hf]
  simpa using ht

theorem filter_columns_flatMap {α : Type} {xs : List α} {name : α → String}
    {find : α → List Finding} (h : ∀ x ∈ xs, ∀ f ∈ find x, f.topic = .columns (name x))
    (entity : String) :
    (xs.flatMap find).filter (·.topic = .columns entity) =
      (xs.filter (name · == entity)).flatMap find := by
  have htopic : (xs.flatMap find).filter (·.topic == .columns entity) =
      (xs.filter (fun x ↦ Topic.columns (name x) == .columns entity)).flatMap find :=
    filter_flatMap_key h _
  have hname : xs.filter (fun x ↦ Topic.columns (name x) == .columns entity) =
      xs.filter (name · == entity) :=
    List.filter_congr fun x _ ↦ by simp [beq_eq_decide]
  rw [← hname, ← htopic]
  rfl

/-- Of the entities of one name, only the first one has its columns compared. -/
theorem filter_duplicates (h : n.entity? e.name = some e) :
    (duplicates n).filter (·.topic = .columns e.name) =
      reservedFields n e ++ columnsTwice n e := by
  have hstep : ∀ p ∈ declared n, (relationsNamedAsFields p.1 ++
        (reservedFields n p.1 ++ columnsTwice n p.1)).filter (·.topic = .columns e.name) =
      (reservedFields n p.1 ++ columnsTwice n p.1).filter (·.topic = .columns e.name) := by
    intro p _
    rw [List.filter_append,
      filter_columns_eq_nil (fun _ ↦ topic_of_mem_relationsNamedAsFields) (by simp),
      List.nil_append]
  have hcolumns : ∀ p ∈ declared n, ∀ f ∈ reservedFields n p.1 ++ columnsTwice n p.1,
      f.topic = .columns p.1.name := by
    intro p _ f hf
    rcases List.mem_append.mp hf with hreserved | htwice
    · exact topic_of_mem_reservedFields hreserved
    · exact topic_of_mem_columnsTwice htwice
  have hfirst : ((declared n).filter (·.1.name == e.name)).map Prod.fst = [e] := by
    rw [declared, filter_firsts (fun p : Entity × Nat ↦ p.1.name)]
    rw [Manifest.entity?, ← List.zipIdx_map_fst 0 n.entities, List.find?_map,
      Option.map_eq_some_iff] at h
    obtain ⟨p, hp, rfl⟩ := h
    exact congrArg (fun found ↦ found.toList.map Prod.fst) hp
  rw [duplicates_eq, List.filter_append, List.filter_append,
    filter_columns_eq_nil (fun _ ↦ topic_of_mem_entitiesTwice) (by simp),
    filter_columns_eq_nil (fun _ ↦ topic_of_mem_storage) (by simp), List.nil_append,
    List.append_nil, List.filter_flatMap, List.flatMap_congr hstep, ← List.filter_flatMap,
    filter_columns_flatMap hcolumns]
  calc
    _ = (((declared n).filter (·.1.name == e.name)).map Prod.fst).flatMap fun e ↦
          reservedFields n e ++ columnsTwice n e := by rw [List.flatMap_map]
    _ = reservedFields n e ++ columnsTwice n e := by rw [hfirst, List.flatMap_singleton]

theorem filter_configuration (entity : String) :
    (configuration n).filter (·.topic = .columns entity) =
      (n.entities.filter (·.name == entity)).flatMap (tenantConflicts n) := by
  rw [configuration_eq, List.filter_append,
    filter_columns_eq_nil (fun _ ↦ topic_of_mem_settings) (by simp), List.nil_append,
    filter_columns_flatMap fun _ _ _ ↦ topic_of_mem_tenantConflicts]

/-- All findings about the columns of an entity that is the first of its name, and those about the
tenant field in later entities of that name. -/
theorem filter_findings [Pattern.Checker] (h : n.entity? e.name = some e) :
    (findings n).filter (·.topic = .columns e.name) = columnFindings n e ++
      (n.entities.filter (·.name == e.name)).tail.flatMap (tenantConflicts n) := by
  obtain ⟨later, hlater⟩ : ∃ later, n.entities.filter (·.name == e.name) = e :: later := by
    rw [Manifest.entity?, ← List.head?_filter] at h
    exact List.head?_eq_some_iff.mp h
  simp only [findings, List.filter_append]
  rw [filter_columns_eq_nil (fun _ ↦ topic_of_mem_names) (by simp),
    filter_columns_eq_nil (fun _ ↦ topic_of_mem_relations) (by simp),
    filter_columns_eq_nil (fun _ ↦ topic_of_mem_fields) (by simp),
    filter_columns_eq_nil (fun _ ↦ topic_of_mem_advice) (by simp), filter_duplicates h,
    filter_configuration, hlater]
  simp only [columnFindings, List.flatMap_cons, List.tail_cons, List.nil_append, List.append_nil,
    List.append_assoc]

end Lint

/-- The findings about columns by their codes; the one code that they share with others is that of
relations that are named like fields. -/
theorem Finding.columns_iff (f : Finding) : (∃ entity, f.topic = .columns entity) ↔
    f.code = .reservedFieldName ∨ f.code = .tenantFieldConflict ∨
      f.code = .duplicateField ∧ ∀ entity name, f ≠ .relationNamedAsField entity name := by
  cases f <;> simp [topic, code]

/-- The schema has the columns that the lints count, up to their order.  About the columns of an
entity that is the first of its name, the validation finds what the lints find about this entity,
and the tenant field in later entities of the name; and that about the entity itself is nothing
exactly if no field and no key is on a column that the table gets anyway, and stored fields and keys
are on columns of their own. -/
theorem Manifest.column_findings_exact [Pattern.Checker] (m : Manifest) :
    (∀ dialect, ∀ e ∈ m.normalize.entities,
      ((recordColumns dialect (.ofManifest m) (.ofEntity e)).map Column.name).Perm
        ((generatedColumns m.normalize e ++ fieldColumns e ++ ownKeys e ++
          foreignKeys m.normalize e.name).map ColumnUse.column)) ∧
      m.validate = .ofDiagnostics ((findings m.normalize).map Finding.diagnostic) ∧
      (∀ f : Finding, (∃ entity, f.topic = .columns entity) ↔
        f.code = .reservedFieldName ∨ f.code = .tenantFieldConflict ∨
          f.code = .duplicateField ∧ ∀ entity name, f ≠ .relationNamedAsField entity name) ∧
      ∀ e, m.normalize.entity? e.name = some e →
        (findings m.normalize).filter (·.topic = .columns e.name) =
            columnFindings m.normalize e ++ (m.normalize.entities.filter
              (·.name == e.name)).tail.flatMap (tenantConflicts m.normalize) ∧
          (columnFindings m.normalize e = [] ↔ ColumnsClear m.normalize e) := by
  refine ⟨fun dialect e _ ↦ names_recordColumns_perm dialect m.normalize e, ?_,
    Finding.columns_iff, fun e he ↦ ⟨filter_findings he, columnFindings_eq_nil_iff⟩⟩
  rw [Manifest.validate, run_builtIn]

/-- Two entities of one name, the second of which declares the tenant field. -/
def twins : Manifest where
  database := some (.sqlite "app.db")
  tenancy := some ⟨some true, none⟩
  entities :=
    [{ name := "Post", fields := .ofList [("title", { kind := .text })] },
      { name := "Post", fields := .ofList [("tenantId", { kind := .text })] }]

theorem Manifest.column_findings_exact_twins :
    ∃ e, e ∈ twins.normalize.entities ∧ twins.normalize.entity? e.name = some e ∧
      ((recordColumns .sqlite (.ofManifest twins) (.ofEntity e)).map Column.name).Perm
        ["id", "tenant_id", "created_at", "updated_at", "title"] ∧
      (findings twins.normalize).filter (·.topic = .columns e.name) =
        [.tenantFieldDeclared "Post" "tenantId"] ∧ ColumnsClear twins.normalize e := by
  obtain ⟨hcolumns, -, -, hfindings⟩ := column_findings_exact twins
  set e := Entity.normalize none none
    { name := "Post", fields := .ofList [("title", { kind := .text })] }
  have hmem : e ∈ twins.normalize.entities := List.mem_cons_self
  have hfirst : twins.normalize.entity? e.name = some e := by decide +kernel
  refine ⟨e, hmem, hfirst, (hcolumns .sqlite e hmem).trans ?_, ?_, ?_⟩
  · exact .of_eq (by decide +kernel)
  · exact (hfindings e hfirst).1.trans (by decide +kernel)
  · exact (hfindings e hfirst).2.mp (by decide +kernel)

end Scaffold

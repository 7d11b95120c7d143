import Mathlib.Data.List.Basic
import Scaffold.Diagnosis.Validate
import Scaffold.Pattern.Program

/-!
# Valid manifests

Everything that the lints find blocks generation, except for advice.  So a manifest is valid
exactly if the five other lints find nothing in its normal form.
-/

namespace Scaffold

inductive Topic where
  | names
  | repetitions
  /-- The columns of the table of an entity. -/
  | columns (entity : String)
  | relations
  | settings
  | fields
  | advice
deriving DecidableEq

namespace Finding

def topic : Finding → Topic
  | .entityName .. | .fieldName _ | .relationName .. => .names
  | .entityRepeated .. | .relationNamedAsField .. | .singularTwice .. | .tableTwice ..
  | .junctionOnTable .. => .repetitions
  | .fieldReserved entity .. | .columnTwice entity .. | .tenantFieldDeclared entity _ =>
      .columns entity
  | .targetMissing .. | .pivotMisplaced .. | .pivotConflict .. => .relations
  | .databaseMissing | .connectionMissing _ | .authMissing _ | .providerUnknown ..
  | .sourceMissing _ | .sourceEmpty _ | .sourceScheme .. | .endpointRelative ..
  | .localeUndeclared _ => .settings
  | .ruleMisplaced .. | .patternInvalid .. | .boundInvalid .. | .boundsCrossed .. | .enumEmpty _
  | .enumRepeated .. | .defaultOnComputed _ | .defaultNoValue .. | .defaultMistyped ..
  | .sourceFieldMissing .. | .sourceFieldComputed .. => .fields
  | .noEntities | .entityEmpty _ | .providersMissing | .databaseUnused => .advice

def Blocks (f : Finding) : Prop := f.diagnostic.isError = true

theorem blocks_iff (f : Finding) : f.Blocks ↔ f.topic ≠ .advice := by
  cases f <;> simp [Blocks, topic, diagnostic, code, Diagnostic.isError, Diagnostic.severity,
    DiagnosticCode.severity]

end Finding

namespace Lint

/-! ## What each lint finds -/

theorem topic_of_mem_fieldNames {owner : FieldsOf} {fields : Assoc Field} {f : Finding}
    (h : f ∈ fieldNames owner fields) : f.topic = .names := by
  obtain ⟨name, -, rfl⟩ := List.mem_map.mp h
  rfl

theorem topic_of_mem_names {m : Manifest} {f : Finding} (h : f ∈ names m) : f.topic = .names := by
  obtain ⟨⟨e, i⟩, -, he⟩ := List.mem_flatMap.mp h
  simp only [entityNames, relationNames, List.mem_append, List.mem_flatMap,
    List.mem_ite_nil_left, List.mem_singleton] at he
  rcases he with (⟨-, rfl⟩ | hfield) | ⟨r, -, ⟨-, rfl⟩ | hpivot⟩
  · rfl
  · exact topic_of_mem_fieldNames hfield
  · rfl
  · exact topic_of_mem_fieldNames hpivot

theorem topic_of_mem_reservedFields {m : Manifest} {e : Entity} {f : Finding}
    (h : f ∈ reservedFields m e) : f.topic = .columns e.name := by
  obtain ⟨field, -, hfield⟩ := List.mem_filterMap.mp h
  split at hfield
  · simp at hfield
  · obtain ⟨use, -, rfl⟩ := Option.map_eq_some_iff.mp hfield
    rfl

theorem topic_of_mem_columnsTwice {m : Manifest} {e : Entity} {f : Finding}
    (h : f ∈ columnsTwice m e) : f.topic = .columns e.name := by
  obtain ⟨p, -, hp⟩ := List.mem_filterMap.mp h
  obtain ⟨first, -, rfl⟩ := Option.map_eq_some_iff.mp hp
  rfl

theorem topic_of_mem_entitiesTwice {m : Manifest} {f : Finding} (h : f ∈ entitiesTwice m) :
    f.topic = .repetitions := by
  obtain ⟨p, -, rfl⟩ := List.mem_map.mp h
  rfl

theorem topic_of_mem_relationsNamedAsFields {e : Entity} {f : Finding}
    (h : f ∈ relationsNamedAsFields e) : f.topic = .repetitions := by
  obtain ⟨relation, -, rfl⟩ := List.mem_map.mp h
  rfl

/-- The findings about storage forms and tables. -/
theorem topic_of_mem_storage {m : Manifest} {f : Finding}
    (h : f ∈ singularsTwice m ++ tablesTwice m ++ junctionsOnTables m) :
    f.topic = .repetitions := by
  simp only [singularsTwice, tablesTwice, junctionsOnTables, List.mem_append, List.mem_map] at h
  rcases h with (⟨p, -, rfl⟩ | ⟨p, -, rfl⟩) | ⟨t, -, rfl⟩ <;> rfl

theorem topic_of_mem_pivotConflicts {earlier : List PivotField} {r : OwnedRelation} {f : Finding}
    (h : f ∈ pivotConflicts earlier r) : f.topic = .relations := by
  obtain ⟨p, -, hp⟩ := List.mem_filterMap.mp h
  obtain ⟨first, -, hfirst⟩ := Option.bind_eq_some_iff.mp hp
  split at hfirst
  · cases hfirst
    rfl
  · simp at hfirst

theorem topic_of_mem_relationsFrom {m : Manifest} {earlier : List PivotField}
    {rs : List OwnedRelation} {f : Finding} (h : f ∈ relationsFrom m earlier rs) :
    f.topic = .relations := by
  induction rs generalizing earlier with
  | nil => simp [relationsFrom] at h
  | cons r rs ih =>
      simp only [relationsFrom, danglingTarget, misplacedPivot, List.mem_append,
        List.mem_ite_nil_right, List.mem_singleton] at h
      rcases h with ((⟨-, rfl⟩ | ⟨-, rfl⟩) | hconflict) | hrest
      · rfl
      · rfl
      · exact topic_of_mem_pivotConflicts hconflict
      · exact ih hrest

theorem topic_of_mem_relations {m : Manifest} {f : Finding} (h : f ∈ relations m) :
    f.topic = .relations :=
  topic_of_mem_relationsFrom h

theorem topic_of_mem_source {owner : SourceOf} {s : Source} {f : Finding}
    (h : f ∈ source owner s) : f.topic = .settings := by
  rcases List.mem_append.mp h with hurl | hendpoint
  · simp only [sourceUrl] at hurl
    split at hurl
    · rw [List.mem_singleton.mp hurl]
      rfl
    · rw [(List.mem_ite_nil_left.mp hurl).2 |> List.mem_singleton.mp]
      rfl
  · obtain ⟨op, -, hop⟩ := List.mem_filterMap.mp hendpoint
    obtain ⟨endpoint, -, hpath⟩ := Option.bind_eq_some_iff.mp hop
    split at hpath
    · simp at hpath
    · cases hpath
      rfl

theorem topic_of_mem_entitySource {m : Manifest} {e : Entity} {f : Finding}
    (h : f ∈ entitySource m e) : f.topic = .settings := by
  unfold entitySource at h
  split at h
  · rw [(List.mem_ite_nil_right.mp h).2 |> List.mem_singleton.mp]
    rfl
  · exact topic_of_mem_source (List.mem_ite_nil_left.mp h).2

theorem topic_of_mem_sources {m : Manifest} {f : Finding} (h : f ∈ sources m) :
    f.topic = .settings := by
  rcases List.mem_append.mp h with hown | hentity
  · cases hsource : m.source with
    | none => simp [hsource] at hown
    | some s => exact topic_of_mem_source (by simpa [hsource] using hown)
  · obtain ⟨e, -, he⟩ := List.mem_flatMap.mp hentity
    exact topic_of_mem_entitySource he

theorem topic_of_mem_database {m : Manifest} {f : Finding} (h : f ∈ database m) :
    f.topic = .settings := by
  unfold database at h
  split at h
  · rw [(List.mem_ite_nil_right.mp h).2 |> List.mem_singleton.mp]
    rfl
  · rw [(List.mem_ite_nil_right.mp h).2 |> List.mem_singleton.mp]
    rfl

theorem topic_of_mem_locale {m : Manifest} {f : Finding} (h : f ∈ locale m) :
    f.topic = .settings := by
  unfold locale at h
  split at h
  · rw [(List.mem_ite_nil_left.mp h).2 |> List.mem_singleton.mp]
    rfl
  · simp at h

/-- The findings about settings other than tenancy. -/
theorem topic_of_mem_settings {m : Manifest} {f : Finding}
    (h : f ∈ database m ++ unmetProtection m ++ providers m ++ sources m ++ locale m) :
    f.topic = .settings := by
  simp only [List.mem_append] at h
  rcases h with (((hdatabase | hauth) | hprovider) | hsource) | hlocale
  · exact topic_of_mem_database hdatabase
  · obtain ⟨e, -, rfl⟩ := List.mem_map.mp (List.mem_ite_nil_left.mp hauth).2
    rfl
  · obtain ⟨p, -, rfl⟩ := List.mem_map.mp hprovider
    rfl
  · exact topic_of_mem_sources hsource
  · exact topic_of_mem_locale hlocale

def tenantConflicts (m : Manifest) (e : Entity) : List Finding :=
  (m.tenantField?.toList.filter (Assoc.contains e.fields)).map (.tenantFieldDeclared e.name)

theorem tenancy_eq (m : Manifest) : tenancy m = m.entities.flatMap (tenantConflicts m) := by
  cases hfield : m.tenantField? with
  | none => simp [tenancy, tenantConflicts, hfield]
  | some field =>
      simp only [tenancy, hfield]
      induction m.entities with
      | nil => rfl
      | cons e entities ih =>
          rw [List.flatMap_cons, ← ih]
          by_cases hdeclared : Assoc.contains e.fields field = true <;>
            simp [tenantConflicts, hfield, hdeclared]

theorem topic_of_mem_tenantConflicts {m : Manifest} {e : Entity} {f : Finding}
    (h : f ∈ tenantConflicts m e) : f.topic = .columns e.name := by
  obtain ⟨field, -, rfl⟩ := List.mem_map.mp h
  rfl

theorem topic_of_mem_rule [Pattern.Checker] {place : FieldPlace} {kind : FieldKind} {r : Rule}
    {i : Nat} {f : Finding} (h : f ∈ rule place kind r i) : f.topic = .fields := by
  unfold rule at h
  split at h
  · rw [List.mem_singleton.mp h]
    rfl
  · split at h
    · split at h
      · rw [List.mem_singleton.mp h]
        rfl
      · simp at h
    · rw [(List.mem_ite_nil_left.mp h).2 |> List.mem_singleton.mp]
      rfl
    · rw [(List.mem_ite_nil_left.mp h).2 |> List.mem_singleton.mp]
      rfl
    · simp at h

theorem topic_of_mem_crossedBounds {place : FieldPlace} {field : Field} {f : Finding}
    (h : f ∈ crossedBounds place field) : f.topic = .fields := by
  unfold crossedBounds at h
  split at h
  · rw [(List.mem_ite_nil_right.mp h).2 |> List.mem_singleton.mp]
    rfl
  · simp at h

theorem topic_of_mem_enumValues {place : FieldPlace} {field : Field} {f : Finding}
    (h : f ∈ enumValues place field) : f.topic = .fields := by
  unfold enumValues at h
  split at h
  · split at h
    · rw [List.mem_singleton.mp h]
      rfl
    · obtain ⟨p, -, rfl⟩ := List.mem_map.mp h
      rfl
  · simp at h

theorem topic_of_mem_default {place : FieldPlace} {field : Field} {f : Finding}
    (h : f ∈ default place field) : f.topic = .fields := by
  obtain ⟨value, -, hvalue⟩ := Option.bind_eq_some_iff.mp (Option.mem_toList.mp h)
  unfold defaultProblem? at hvalue
  split at hvalue
  case h_7 =>
    split at hvalue
    · simp at hvalue
    · cases hvalue
      rfl
  all_goals cases hvalue <;> rfl

theorem topic_of_mem_sourceFields {place : FieldPlace} {siblings : Assoc Field} {field : Field}
    {f : Finding} (h : f ∈ sourceFields place siblings field) : f.topic = .fields := by
  unfold sourceFields at h
  split at h
  · obtain ⟨p, -, hp⟩ := List.mem_filterMap.mp h
    unfold sourceFieldProblem? at hp
    split at hp
    · cases hp
      rfl
    · split at hp
      · cases hp
        rfl
      · simp at hp
  · simp at h

theorem topic_of_mem_fieldMap [Pattern.Checker] {owner : FieldsOf} {fields : Assoc Field}
    {f : Finding} (h : f ∈ fieldMap owner fields) : f.topic = .fields := by
  obtain ⟨p, -, hp⟩ := List.mem_flatMap.mp h
  simp only [field, rules, List.mem_append, List.mem_flatMap] at hp
  rcases hp with (((⟨r, -, hr⟩ | hbounds) | henum) | hdefault) | hsource
  · exact topic_of_mem_rule hr
  · exact topic_of_mem_crossedBounds hbounds
  · exact topic_of_mem_enumValues henum
  · exact topic_of_mem_default hdefault
  · exact topic_of_mem_sourceFields hsource

theorem topic_of_mem_fields [Pattern.Checker] {m : Manifest} {f : Finding} (h : f ∈ fields m) :
    f.topic = .fields := by
  obtain ⟨e, -, he⟩ := List.mem_flatMap.mp h
  rcases List.mem_append.mp he with hown | hpivot
  · exact topic_of_mem_fieldMap hown
  · obtain ⟨r, -, hr⟩ := List.mem_flatMap.mp hpivot
    exact topic_of_mem_fieldMap hr

theorem topic_of_mem_advice {m : Manifest} {f : Finding} (h : f ∈ advice m) :
    f.topic = .advice := by
  simp only [advice, List.mem_append, List.mem_map, List.mem_ite_nil_right,
    List.mem_singleton] at h
  rcases h with ((⟨-, rfl⟩ | ⟨e, -, rfl⟩) | ⟨-, rfl⟩) | ⟨-, rfl⟩ <;> rfl

/-! ## What they find together -/

theorem duplicates_eq (m : Manifest) : duplicates m = entitiesTwice m ++
    ((declared m).flatMap fun p ↦
      relationsNamedAsFields p.1 ++ (reservedFields m p.1 ++ columnsTwice m p.1)) ++
    (singularsTwice m ++ tablesTwice m ++ junctionsOnTables m) := by
  simp only [duplicates, List.append_assoc]

theorem configuration_eq (m : Manifest) : configuration m =
    (database m ++ unmetProtection m ++ providers m ++ sources m ++ locale m) ++
      m.entities.flatMap (tenantConflicts m) := by
  rw [configuration, tenancy_eq]

theorem blocks_of_topic {f : Finding} {t : Topic} (h : f.topic = t) (ht : t ≠ .advice) :
    f.Blocks :=
  f.blocks_iff.mpr (h ▸ ht)

theorem blocks_of_mem_duplicates {m : Manifest} {f : Finding} (h : f ∈ duplicates m) :
    f.Blocks := by
  rw [duplicates_eq, List.mem_append, List.mem_append, List.mem_flatMap] at h
  rcases h with (hentity | ⟨p, -, hp⟩) | hstorage
  · exact blocks_of_topic (topic_of_mem_entitiesTwice hentity) nofun
  · simp only [List.mem_append] at hp
    rcases hp with hnamed | hreserved | htwice
    · exact blocks_of_topic (topic_of_mem_relationsNamedAsFields hnamed) nofun
    · exact blocks_of_topic (topic_of_mem_reservedFields hreserved) nofun
    · exact blocks_of_topic (topic_of_mem_columnsTwice htwice) nofun
  · exact blocks_of_topic (topic_of_mem_storage hstorage) nofun

theorem blocks_of_mem_configuration {m : Manifest} {f : Finding} (h : f ∈ configuration m) :
    f.Blocks := by
  rw [configuration_eq, List.mem_append, List.mem_flatMap] at h
  rcases h with hsettings | ⟨e, -, htenant⟩
  · exact blocks_of_topic (topic_of_mem_settings hsettings) nofun
  · exact blocks_of_topic (topic_of_mem_tenantConflicts htenant) nofun

/-- Findings all of which block are none exactly if none of them blocks. -/
theorem eq_nil_iff_of_blocks {found : List Finding} (h : ∀ f ∈ found, f.Blocks) :
    found = [] ↔ ∀ f ∈ found, ¬ f.Blocks := by
  constructor
  · rintro rfl
    simp
  · intro hnone
    apply List.eq_nil_iff_forall_not_mem.mpr
    intro f hf
    exact hnone f hf (h f hf)

def findings [Pattern.Checker] (m : Manifest) : List Finding :=
  names m ++ duplicates m ++ relations m ++ configuration m ++ fields m ++ advice m

theorem run_builtIn [Pattern.Checker] (m : Manifest) :
    run builtIn m = (findings m).map Finding.diagnostic := by
  simp [run, builtIn, findings, namingLint, duplicatesLint, relationsLint, configurationLint,
    fieldRulesLint, advisoryLint, ofFindings]

end Lint

theorem Manifest.valid_iff_not_blocks [Pattern.Checker] (m : Manifest) :
    m.validate.valid = true ↔ ∀ f ∈ Lint.findings m.normalize, ¬ f.Blocks := by
  simp [Manifest.validate, Validation.ofDiagnostics, Lint.run_builtIn, Finding.Blocks]

/-- A manifest is valid exactly if no lint finds anything in its normal form, advice apart. -/
theorem Manifest.valid_iff [Pattern.Checker] (m : Manifest) :
    m.validate.valid = true ↔
      Lint.names m.normalize = [] ∧ Lint.duplicates m.normalize = [] ∧
        Lint.relations m.normalize = [] ∧ Lint.configuration m.normalize = [] ∧
          Lint.fields m.normalize = [] := by
  rw [Manifest.valid_iff_not_blocks]
  rw [Lint.eq_nil_iff_of_blocks fun _ h ↦ Lint.blocks_of_topic (Lint.topic_of_mem_names h) nofun,
    Lint.eq_nil_iff_of_blocks fun _ ↦ Lint.blocks_of_mem_duplicates,
    Lint.eq_nil_iff_of_blocks fun _ h ↦ Lint.blocks_of_topic (Lint.topic_of_mem_relations h) nofun,
    Lint.eq_nil_iff_of_blocks fun _ ↦ Lint.blocks_of_mem_configuration,
    Lint.eq_nil_iff_of_blocks fun _ h ↦ Lint.blocks_of_topic (Lint.topic_of_mem_fields h) nofun]
  have hadvice : ∀ f ∈ Lint.advice m.normalize, ¬ f.Blocks := fun f h hblocks ↦
    f.blocks_iff.mp hblocks (Lint.topic_of_mem_advice h)
  simp only [Lint.findings, List.forall_mem_append, and_assoc, and_iff_left hadvice]

end Scaffold

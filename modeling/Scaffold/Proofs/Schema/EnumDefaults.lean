import Scaffold.Proofs.Artifact.Lines
import Scaffold.Proofs.Generation.OutputPaths
import Scaffold.Proofs.Lint.Fields
import Scaffold.Proofs.Schema.PivotFields

/-!
# Defaults and values in the schema

A column that lists the values it may hold is the column of an enum, in the table of an entity or of
a junction.  The lint has looked at the field behind it, wherever it stands, so that in the script
of a valid manifest the default of such a column is one of the values in its list.
-/

namespace Scaffold

open Sql

/-! ## The fields behind columns -/

namespace Blueprint

variable {n : Manifest}

theorem exists_placed_of_mem_record {r : Record} (hr : r ∈ (ofNormal n).records) {a : Attribute}
    (ha : a ∈ r.stored) : ∃ p ∈ n.placedFields, a = .ofField p.place.field p.field := by
  obtain ⟨e, he, rfl⟩ := List.mem_map.mp hr
  obtain ⟨f, hf, rfl⟩ := List.mem_map.mp (List.mem_of_mem_filter ha)
  exact ⟨⟨⟨.entity e.name, f.1⟩, e.fields, f.2⟩,
    List.mem_flatMap.mpr ⟨e, he, List.mem_append_left _ (List.mem_map_of_mem hf)⟩, rfl⟩

/-- Whichever description an attribute of a junction table comes from, a relation declares it. -/
theorem exists_placed_of_mem_junction {j : Junction} (hj : j ∈ (ofNormal n).junctions)
    {a : Attribute} (ha : a ∈ j.attributes) :
    ∃ p ∈ n.placedFields, a = .ofField p.place.field p.field := by
  obtain ⟨d, hfirst, rfl⟩ := Junction.mem_ofEntities_iff.mp hj
  obtain ⟨added, heq, hmem, -⟩ := Junction.attributes_addAttributes_spec hfirst
  obtain ⟨description, hdescription, -, ha⟩ := Junction.mem_attributesNamed.mp (hmem a (heq ▸ ha))
  obtain ⟨e, he, hdescription⟩ := List.mem_flatMap.mp hdescription
  obtain ⟨r, hr, hdescription⟩ := List.mem_filterMap.mp hdescription
  split at hdescription
  case isFalse => cases hdescription
  case isTrue =>
      cases hdescription
      obtain ⟨f, hf, rfl⟩ := List.mem_map.mp ha
      refine ⟨⟨⟨.pivot e.name r.1, f.1⟩, (r.2.pivot.map Pivot.fields).getD {}, f.2⟩, ?_, rfl⟩
      refine List.mem_flatMap.mpr ⟨e, he, List.mem_append_right _ ?_⟩
      refine List.mem_flatMap.mpr ⟨r, hr, ?_⟩
      exact List.mem_map_of_mem hf

end Blueprint

namespace Sql

theorem values_attributeColumn (dialect : DatabaseKind) (a : Attribute) (values : List String) :
    (attributeColumn dialect a).values = some values ↔ a.kind = .enum values := by
  rw [attributeColumn]
  cases a.kind <;> simp

/-- What stands beside the fields of a record in its table has no list of values. -/
theorem mem_stored_of_values {dialect : DatabaseKind} {b : Blueprint} {r : Record} {c : Column}
    (hc : c ∈ recordColumns dialect b r) (hvalues : c.values ≠ none) :
    c ∈ r.stored.map (attributeColumn dialect) := by
  simp only [recordColumns, List.mem_append] at hc
  rcases hc with ((((hid | htenant) | hstored) | hown) | hforeign) | htraits
  · rw [List.mem_singleton.mp hid] at hvalues
    exact absurd rfl hvalues
  · rw [tenantColumns, List.mem_ite_nil_right, List.mem_singleton] at htenant
    rw [htenant.2] at hvalues
    exact absurd rfl hvalues
  · exact hstored
  · obtain ⟨l, -, rfl⟩ := List.mem_map.mp hown
    exact absurd rfl hvalues
  · obtain ⟨owner, -, hkey⟩ := List.mem_flatMap.mp hforeign
    obtain ⟨l, -, rfl⟩ := List.mem_map.mp hkey
    exact absurd rfl hvalues
  · simp only [traitColumns, List.mem_append, List.mem_ite_nil_right, List.mem_cons,
      List.not_mem_nil, or_false] at htraits
    rcases htraits with ⟨-, rfl | rfl⟩ | ⟨-, rfl⟩ <;> exact absurd rfl hvalues

theorem mem_attributes_of_values {dialect : DatabaseKind} {b : Blueprint} {j : Junction}
    {c : Column} (hc : c ∈ (junctionTable dialect b j).columns) (hvalues : c.values ≠ none) :
    c ∈ j.attributes.map (attributeColumn dialect) := by
  rcases List.mem_append.mp hc with hkey | hattribute
  · simp only [List.mem_cons, List.not_mem_nil, or_false] at hkey
    rcases hkey with rfl | rfl <;> exact absurd rfl hvalues
  · exact hattribute

theorem values_of_mem_auditLog {dialect : DatabaseKind} {c : Column}
    (hc : c ∈ (auditLog dialect).columns) : c.values = none := by
  simp only [auditLog, List.mem_cons, List.not_mem_nil, or_false] at hc
  rcases hc with rfl | rfl | rfl | rfl | rfl <;> rfl

/-- A column with a list of values is the column of an enum that is declared somewhere. -/
theorem exists_placed_of_values {n : Manifest} {dialect : DatabaseKind} {t : Table}
    (ht : t ∈ tables dialect (.ofNormal n)) {c : Column} (hc : c ∈ t.columns)
    {values : List String} (hvalues : c.values = some values) :
    ∃ p ∈ n.placedFields, p.field.kind = .enum values ∧
      c = attributeColumn dialect (.ofField p.place.field p.field) := by
  have hsome : c.values ≠ none := by simp [hvalues]
  simp only [tables, List.mem_append, List.mem_map, List.mem_ite_nil_right,
    List.mem_singleton] at ht
  rcases ht with (⟨r, hr, rfl⟩ | ⟨j, hj, rfl⟩) | ⟨-, rfl⟩
  · obtain ⟨a, ha, rfl⟩ := List.mem_map.mp (mem_stored_of_values hc hsome)
    obtain ⟨p, hp, rfl⟩ := Blueprint.exists_placed_of_mem_record hr ha
    exact ⟨p, hp, (values_attributeColumn dialect _ values).mp hvalues, rfl⟩
  · obtain ⟨a, ha, rfl⟩ := List.mem_map.mp (mem_attributes_of_values hc hsome)
    obtain ⟨p, hp, rfl⟩ := Blueprint.exists_placed_of_mem_junction hj ha
    exact ⟨p, hp, (values_attributeColumn dialect _ values).mp hvalues, rfl⟩
  · exact absurd (values_of_mem_auditLog hc) hsome

/-! ## The text of the script -/

/-- The text of a column that has a default and a list of values, and refers to no table. -/
theorem Column.render_eq (dialect : DatabaseKind) {c : Column} {values : List String}
    {value : Literal} (hdefault : c.default = some (.literal value))
    (hvalues : c.values = some values) (hreferences : c.references = none) :
    c.render dialect = c.name ++ " " ++ c.type ++
      String.join ((if c.isPrimaryKey then [" PRIMARY KEY"] else []) ++
        (if c.isNotNull then [" NOT NULL"] else []) ++ if c.isUnique then [" UNIQUE"] else []) ++
      (" DEFAULT " ++ literal dialect value) ++
      (" CHECK (" ++ c.name ++ " IN (" ++ ", ".intercalate (values.map quoteText) ++ "))") := by
  have hclauses : c.clauses dialect =
      ((if c.isPrimaryKey then [" PRIMARY KEY"] else []) ++
        (if c.isNotNull then [" NOT NULL"] else []) ++ if c.isUnique then [" UNIQUE"] else []) ++
        [" DEFAULT " ++ literal dialect value,
          " CHECK (" ++ c.name ++ " IN (" ++ ", ".intercalate (values.map quoteText) ++ "))"] := by
    rw [Column.clauses, hvalues, hdefault, hreferences]
    exact (List.append_nil _).trans (List.append_assoc _ [_] [_])
  rw [Column.render, hclauses, String.join_append]
  simp [String.append_assoc]

theorem render_eq_unlines (dialect : DatabaseKind) (heading : String) (ts : List Table) :
    render dialect heading ts = unlines (["-- " ++ heading] ++ ts.flatMap fun t ↦
      ["", s!"CREATE TABLE {t.name} ("] ++
        (Table.commaSeparated (t.lines dialect)).map ("  " ++ ·) ++ [");"]) := by
  have htable (t : Table) : Code.Writes (fun code ↦ t.write dialect code.blank) fun margin ↦
      [""] ++ ([margin ++ s!"CREATE TABLE {t.name} ("] ++
        (Table.commaSeparated (t.lines dialect)).map (margin ++ "  " ++ ·) ++ [margin ++ ");"]) :=
    Code.writes_blank.trans (Code.writes_block _ _ (Code.writes_eachLine _))
  have htext := ((Code.writes_comment "--" heading).trans
    (Code.writes_each fun t (_ : t ∈ ts) ↦ htable t)).text_eq
  refine htext.trans (congrArg unlines ?_)
  simp

theorem mem_commaSeparated {line : String} {lines : List String} (h : line ∈ lines) :
    line ∈ Table.commaSeparated lines ∨ line ++ "," ∈ Table.commaSeparated lines := by
  fun_induction Table.commaSeparated lines with
  | case1 => cases h
  | case2 only => exact .inl h
  | case3 first rest hrest ih =>
      rcases List.mem_cons.mp h with rfl | h
      · exact .inr List.mem_cons_self
      · exact (ih h).imp (List.mem_cons_of_mem _) (List.mem_cons_of_mem _)

/-- Every column has its line in the script, with a comma behind it unless it is the last. -/
theorem hasLines_column {dialect : DatabaseKind} {heading : String} {ts : List Table} {t : Table}
    (ht : t ∈ ts) {c : Column} (hc : c ∈ t.columns) :
    HasLines (render dialect heading ts) ["  " ++ c.render dialect] ∨
      HasLines (render dialect heading ts) ["  " ++ (c.render dialect ++ ",")] := by
  have hline : c.render dialect ∈ t.lines dialect := List.mem_append_left _ (List.mem_map_of_mem hc)
  have hindented {line : String} (h : line ∈ Table.commaSeparated (t.lines dialect)) :
      HasLines (render dialect heading ts) ["  " ++ line] := by
    rw [render_eq_unlines]
    refine hasLines_of_mem (List.mem_append_right _ (List.mem_flatMap.mpr ⟨t, ht, ?_⟩))
    exact List.mem_append_left _ (List.mem_append_right _ (List.mem_map_of_mem h))
  exact (mem_commaSeparated hline).imp hindented hindented

/-- Whether a script has the line of a column in which the default is one of the values that the
column is checked for. -/
def DefaultListed (dialect : DatabaseKind) (script : String) (c : Column) (values : List String) :
    Prop :=
  ∃ v ∈ values, c.default = some (.literal (.text v)) ∧
    (∃ front, c.render dialect = front ++ (" DEFAULT " ++ quoteText v) ++
      (" CHECK (" ++ c.name ++ " IN (" ++ ", ".intercalate (values.map quoteText) ++ "))")) ∧
    (HasLines script ["  " ++ c.render dialect] ∨
      HasLines script ["  " ++ (c.render dialect ++ ",")])

/-- Where all fields are sound, the default of a column with a list of values is in the list. -/
theorem defaultListed_of_sound {n : Manifest} (hsound : ∀ p ∈ n.placedFields, p.Sound)
    {dialect : DatabaseKind} {heading : String} {t : Table} (ht : t ∈ tables dialect (.ofNormal n))
    {c : Column} (hc : c ∈ t.columns) {values : List String} (hvalues : c.values = some values)
    (hdefault : c.default ≠ none) :
    DefaultListed dialect (render dialect heading (tables dialect (.ofNormal n))) c values := by
  have hlines := @hasLines_column dialect heading _ _ ht _ hc
  obtain ⟨p, hp, hkind, hcolumn⟩ := exists_placed_of_values ht hc hvalues
  have hclause : c.default = p.field.default.map .literal := by rw [hcolumn]; rfl
  obtain ⟨value, hvalue⟩ : ∃ value, p.field.default = some value := by
    rw [hclause, Ne, Option.map_eq_none_iff] at hdefault
    exact Option.ne_none_iff_exists'.mp hdefault
  -- the lint has accepted the default for the type, which is an enum of these values
  have hsuits := (hsound p hp).default value hvalue
  rw [hkind] at hsuits
  obtain ⟨v, hv, rfl⟩ := hsuits
  have hclause : c.default = some (.literal (.text v)) := by rw [hclause, hvalue, Option.map_some]
  have hreferences : c.references = none := by rw [hcolumn]; rfl
  have hrender := Column.render_eq dialect hclause hvalues hreferences
  have htext : ∃ front, c.render dialect = front ++ (" DEFAULT " ++ quoteText v) ++
      (" CHECK (" ++ c.name ++ " IN (" ++ ", ".intercalate (values.map quoteText) ++ "))") :=
    ⟨_, hrender⟩
  exact ⟨v, hv, hclause, htext, hlines⟩

end Sql

/-- The fields of a valid manifest are sound in its normal form. -/
theorem Manifest.sound_of_valid [Pattern.Checker] {m : Manifest} (h : m.validate.valid = true) :
    ∀ p ∈ m.normalize.placedFields, p.Sound := by
  obtain ⟨-, -, -, -, hfields⟩ := m.valid_iff.mp h
  refine (Lint.forall_check_iff_sound m.normalize).mp fun d hd ↦ ?_
  change d ∈ (Lint.fields m.normalize).map Finding.diagnostic at hd
  rw [hfields] at hd
  cases hd

/-- Values, defaults and sources are reported exactly where they are unsound, and a value once for
each time it is repeated.  So the schema of a valid manifest has no default outside of the values
that are checked for. -/
theorem Manifest.fieldRules_exact [Pattern.Checker] (m : Manifest) :
    ((∀ d ∈ Lint.fieldRulesLint.check m,
        d.code ∉ [.invalidEnum, .invalidDefault, .computedSourceNotFound]) ↔
      ∀ p ∈ m.placedFields, p.Sound) ∧
    placesOf .invalidEnum (Lint.fieldRulesLint.check m) =
      m.placedFields.flatMap PlacedField.enumFaults ∧
    (∀ p ∈ m.placedFields, ∀ values, p.field.kind = .enum values → values ≠ [] →
      p.enumFaults.length = values.length - values.toFinset.card) ∧
    (m.validate.valid = true → ∀ d, m.database = some d → m.effectiveMode ≠ .apiOnly →
      ∃ script, .generated "schema.sql" script ∈ Standard.files (.ofManifest m) ∧
        ∀ t ∈ tables d.kind (.ofManifest m), ∀ c ∈ t.columns, ∀ values, c.values = some values →
          c.default ≠ none → DefaultListed d.kind script c values) := by
  refine ⟨Lint.forall_check_iff_sound m, Lint.placesOf_invalidEnum m,
    fun p _ values hkind hvalues ↦ p.length_enumFaults hkind hvalues, ?_⟩
  intro hvalid d hdatabase hmode
  refine ⟨_, schema_mem_files hdatabase hmode, fun t ht c hc values hvalues hdefault ↦ ?_⟩
  exact defaultListed_of_sound (sound_of_valid hvalid) ht hc hvalues hdefault

/-- A document with a field of two values and a default. -/
def draftedPost : String :=
  "\x7b\"database\": \x7b\"type\": \"sqlite\", \"file\": \"app.db\"\x7d, \"entities\": [\x7b" ++
    "\"name\": \"Post\", \"fields\": \x7b\"status\": \x7b\"type\": \"enum\", " ++
    "\"values\": [\"draft\", \"live\"], \"default\": \"draft\"\x7d\x7d\x7d]\x7d"

theorem Manifest.fieldRules_exact_draftedPost :
    ∃ m d, Manifest.ofJson draftedPost = .ok m ∧
      m.database = some d ∧ (∀ p ∈ m.placedFields, p.Sound) ∧
      ∃ script, .generated "schema.sql" script ∈ Standard.files (.ofManifest m) ∧
        ∃ t ∈ tables d.kind (.ofManifest m), ∃ c ∈ t.columns,
          DefaultListed d.kind script c ["draft", "live"] := by
  have hread : (Manifest.ofJson draftedPost).toOption.any (fun m ↦
      m.validate.valid && decide (m.effectiveMode ≠ .apiOnly) &&
        decide (Lint.fieldRulesLint.check m = []) && m.database.any fun d ↦
        (tables d.kind (.ofManifest m)).any fun t ↦ t.columns.any fun c ↦
          decide (c.values = some ["draft", "live"]) && c.default.isSome) = true := by
    decide +kernel
  obtain ⟨m, hm, htest⟩ := exists_ok_of_any hread
  simp only [Bool.and_eq_true, List.any_eq_true, Option.any_eq_true, decide_eq_true_eq] at htest
  obtain ⟨⟨⟨hvalid, hmode⟩, hcheck⟩, d, hd, t, ht, c, hc, hvalues, hdefault⟩ := htest
  obtain ⟨hsound, -, -, hschema⟩ := fieldRules_exact m
  obtain ⟨script, hscript, hlisted⟩ := hschema hvalid d hd hmode
  refine ⟨m, d, hm, hd, hsound.mp (by simp [hcheck]), script, hscript, t, ht, c, hc, ?_⟩
  exact hlisted t ht c hc _ hvalues (Option.isSome_iff_ne_none.mp hdefault)

end Scaffold

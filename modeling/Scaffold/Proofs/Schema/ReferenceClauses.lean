import Scaffold.Proofs.Schema.PlainNames

/-!
# The reference clauses of a script

What a database reads from the script of a valid manifest has one table for every entity.  Relations
to one other and relations to many each have a column there of their own, and no other column of
these tables has a reference clause.  Whatever a table of the script refers to is created by it.

All of this is about names that can be read.  A relation may give its key any text for a name, and
then there are manifests that pass all lints and have clauses that no relation asks for.
-/

namespace Scaffold

open Sql Lint

/-! ## Reference clauses -/

namespace Sql

def Clause.referred? : Clause → Option String
  | .references table => some table
  | _ => none

def ColumnDefinition.referred (c : ColumnDefinition) : List String :=
  c.clauses.filterMap Clause.referred?

theorem referred_definition (c : Column) : c.definition.referred = c.references.toList := by
  rcases c with ⟨name, type, isPrimaryKey, isNotNull, isUnique, default, values, references⟩
  cases isNotNull <;> cases values <;> cases references <;> rfl

theorem filter_definition_name (cs : List Column) (name : String) :
    (cs.map Column.definition).filter (·.name == name) =
      (cs.filter (·.name == name)).map Column.definition :=
  List.filter_map

theorem filter_definition_referred (cs : List Column) :
    (cs.map Column.definition).filter (!·.referred.isEmpty) =
      (cs.filter (·.references.isSome)).map Column.definition := by
  rw [List.filter_map]
  congr 1
  refine List.filter_congr fun c _ ↦ ?_
  rw [Function.comp_apply, referred_definition]
  cases c.references <;> rfl

end Sql

/-- The column that a relation asks for, with a clause if the entity it refers to is declared. -/
def Lint.OwnedRelation.keyDefinition (m : Manifest) (r : OwnedRelation) : ColumnDefinition where
  name := r.link.foreignKey
  clauses := (m.tableOf? r.referred).toList.map .references

theorem Lint.OwnedRelation.definition_keyColumn (dialect : DatabaseKind) (m : Manifest)
    (r : OwnedRelation) : (r.keyColumn dialect m).definition = r.keyDefinition m := by
  cases h : m.tableOf? r.referred <;> simp [keyColumn, Column.definition, keyDefinition, h]

namespace Manifest

/-- How the reference clauses of a script and the relations of a manifest belong together.  The
script defines a table for each entity, and other tables. -/
structure ReferencesMatch (m : Manifest) (table : Entity → TableDefinition)
    (others : List TableDefinition) : Prop where
  names : ∀ e ∈ m.entities, (table e).name = e.tableName ∧ m.tableOf? e.name = some e.tableName
  /-- A relation to one other has one column on the table of its owner, which refers to the table of
  the target if that is declared. -/
  hasOne : ∀ e ∈ m.entities, ∀ r ∈ e.owned, r.relation.kind = .hasOne →
    (table e).columns.filter (·.name == r.link.foreignKey) =
      [⟨r.link.foreignKey, (m.tableOf? r.relation.entity).toList.map .references⟩]
  /-- A relation to many has one column on the table of its target, which refers to the table of the
  owner. -/
  hasMany : ∀ e ∈ m.entities, ∀ r ∈ e.owned, r.relation.kind = .hasMany →
    r.relation.external = false → ∃ target ∈ m.entities, target.name = r.relation.entity ∧
      (table target).columns.filter (·.name == r.link.foreignKey) =
        [⟨r.link.foreignKey, [.references e.tableName]⟩]
  /-- No two relations share a column. -/
  distinct : ∀ e ∈ m.entities, ((m.keysOn e.name).map (·.link.foreignKey)).Nodup
  /-- Nothing else on the table of an entity refers to a table. -/
  exclusive : ∀ e ∈ m.entities, (table e).columns.filter (!·.referred.isEmpty) =
    ((m.keysOn e.name).map (OwnedRelation.keyDefinition m)).filter (!·.referred.isEmpty)
  /-- What is referred to, by any table, is created as well. -/
  created : ∀ t ∈ m.entities.map table ++ others, ∀ c ∈ t.columns, ∀ name ∈ c.referred,
    name ∈ (m.entities.map table ++ others).map TableDefinition.name

theorem map_definition_tables (m : Manifest) (dialect : DatabaseKind) :
    ∃ others, (tables dialect (.ofManifest m)).map Table.definition =
      m.entities.map (fun e ↦ (m.tableFor dialect e).definition) ++ others := by
  rw [tables, recordTables_eq, List.append_assoc, List.map_append, List.map_map]
  exact ⟨_, rfl⟩

/-- In the tables of a valid manifest, references are where the relations ask for them. -/
theorem referencesMatch_of_valid [Pattern.Checker] {m : Manifest} (hvalid : m.validate.valid = true)
    (dialect : DatabaseKind) {others : List TableDefinition}
    (hothers : (tables dialect (.ofManifest m)).map Table.definition =
      m.entities.map (fun e ↦ (m.tableFor dialect e).definition) ++ others) :
    m.ReferencesMatch (fun e ↦ (m.tableFor dialect e).definition) others where
  names e he := ⟨rfl, tableOf?_name (entityNames_nodup_of_valid hvalid) he⟩
  hasOne e he r hr hkind := by
    have hkey : r ∈ m.keysOn e.name := by
      rw [keysOn, ownKeysOn_eq (entityNames_nodup_of_valid hvalid) he]
      exact List.mem_append_left _ (List.mem_filter.mpr ⟨hr, by simpa using hkind⟩)
    have hfilter := filter_columns_foreignKey hvalid dialect he hkey
    rw [Table.definition, filter_definition_name, hfilter, List.map_singleton,
      OwnedRelation.definition_keyColumn, OwnedRelation.keyDefinition, OwnedRelation.referred,
      if_pos hkind]
  hasMany e he r hr hkind hexternal := by
    have howned : r ∈ ownedRelations m := List.mem_flatMap.mpr ⟨e, he, hr⟩
    have howner : r.owner = e.name := by
      obtain ⟨_, -, rfl⟩ := List.mem_map.mp hr
      rfl
    obtain ⟨target, htarget, hname⟩ := exists_target_of_valid hvalid howned hexternal
    have hkey : r ∈ m.keysOn target.name :=
      List.mem_append_right _ (List.mem_filter.mpr ⟨howned, by simp [hkind, hexternal, hname]⟩)
    have hreferred : m.tableOf? r.referred = some e.tableName := by
      rw [OwnedRelation.referred, hkind, if_neg (by simp), howner]
      exact tableOf?_name (entityNames_nodup_of_valid hvalid) he
    have hfilter := filter_columns_foreignKey hvalid dialect htarget hkey
    refine ⟨target, htarget, hname, ?_⟩
    rw [Table.definition, filter_definition_name, hfilter, List.map_singleton,
      OwnedRelation.definition_keyColumn, OwnedRelation.keyDefinition, hreferred]
    rfl
  distinct _ he := foreignKeys_nodup hvalid he
  exclusive e he := by
    have hkeys : (m.keysOn e.name).map (OwnedRelation.keyDefinition m) =
        ((m.keysOn e.name).map (OwnedRelation.keyColumn dialect m)).map Column.definition := by
      rw [List.map_map]
      exact List.map_congr_left fun r _ ↦ (r.definition_keyColumn dialect m).symm
    rw [Table.definition, hkeys, filter_definition_referred, filter_definition_referred,
      filter_columns_references hvalid dialect he]
  created t ht c hc name hname := by
    rw [← hothers] at ht ⊢
    obtain ⟨created, hcreated, rfl⟩ := List.mem_map.mp ht
    obtain ⟨column, hcolumn, rfl⟩ := List.mem_map.mp hc
    rw [referred_definition, Option.mem_toList] at hname
    obtain ⟨entity, hentity⟩ := exists_tableOf_of_valid hvalid hcreated hcolumn hname
    rw [List.map_map]
    exact mem_tables_of_tableOf hentity

/-- The script of a valid manifest with plain names is read as the tables of its entities, with
others behind them. -/
theorem definitions_schema [Pattern.Checker] {m : Manifest} (hvalid : m.validate.valid = true)
    {dialect : DatabaseKind} (hplain : m.PlainFor dialect) :
    ∃ others, (tables dialect (.ofManifest m)).map Table.definition =
        m.entities.map (fun e ↦ (m.tableFor dialect e).definition) ++ others ∧
      definitions dialect
          (Sql.render dialect Standard.generatedHeading (tables dialect (.ofManifest m))) =
        some (m.entities.map (fun e ↦ (m.tableFor dialect e).definition) ++ others) := by
  obtain ⟨others, hothers⟩ := map_definition_tables m dialect
  have hheading : (language dialect).Reads ("-- " ++ Standard.generatedHeading ++ "\n") [] :=
    Language.reads_lineComment (fun _ ↦ rfl) rfl rfl
  refine ⟨others, hothers, ?_⟩
  rw [definitions_render hheading (readable_of_mem_tables hvalid hplain), hothers]

/-- In the script of a valid manifest with plain names, reference clauses and relations correspond
to each other. -/
theorem references_match_relations [Pattern.Checker] (m : Manifest)
    (hvalid : m.validate.valid = true) {d : Database} (hdatabase : m.database = some d)
    (hmode : m.effectiveMode ≠ .apiOnly) (hplain : m.PlainFor d.kind) :
    ∃ script, .generated "schema.sql" script ∈ Standard.files (.ofManifest m) ∧
      ∃ table others, definitions d.kind script = some (m.entities.map table ++ others) ∧
        m.ReferencesMatch table others := by
  obtain ⟨others, hothers, hread⟩ := definitions_schema hvalid hplain
  exact ⟨_, schema_mem_files hdatabase hmode, _, others, hread,
    referencesMatch_of_valid hvalid d.kind hothers⟩

/-- Authors and books with two keys between them, a key to the same entity, and external ends. -/
def booksOfAuthors : Manifest where
  database := some (.sqlite "app.db")
  entities :=
    [entityWith "Author"
        [("books", { kind := .hasMany, entity := "Book" }),
          ("mentor", { kind := .hasOne, entity := "Author" }),
          ("house", { kind := .hasOne, entity := "House", external := true }),
          ("letters", { kind := .hasMany, entity := "Letter", external := true })],
      entityWith "Book"
        [("editor", { kind := .hasOne, entity := "Author", field := "edited_by" }),
          ("readers", { kind := .belongsToMany, entity := "Author" })]]

theorem plainFor_booksOfAuthors : booksOfAuthors.PlainFor .sqlite where
  tables := by decide +kernel
  keys := by decide +kernel
  junctions := by decide +kernel
  targets := by decide +kernel
  tenant := by decide +kernel
  texts _ _ _ _ h := nomatch h

theorem references_match_relations_booksOfAuthors :
    booksOfAuthors.validate.valid = true ∧ booksOfAuthors.PlainFor .sqlite ∧
    ∃ script, .generated "schema.sql" script ∈ Standard.files (.ofManifest booksOfAuthors) ∧
      ∃ table others,
        definitions .sqlite script = some (booksOfAuthors.entities.map table ++ others) ∧
        booksOfAuthors.ReferencesMatch table others := by
  have hvalid : booksOfAuthors.validate.valid = true := by decide +kernel
  have hdatabase : booksOfAuthors.database = some (.sqlite "app.db") := rfl
  have hmode : booksOfAuthors.effectiveMode ≠ .apiOnly := by decide
  have hmatch := references_match_relations _ hvalid hdatabase hmode plainFor_booksOfAuthors
  exact ⟨hvalid, plainFor_booksOfAuthors, hmatch⟩

def chainedNotes (key : String) : Manifest where
  database := some (.sqlite "app.db")
  entities := [{
    name := "Note"
    relations := .ofList [("previous", { kind := .hasOne, entity := "Note", field := key })]
    behaviors := { timestamps := false } }]

/-- With a comma in the name of a key comes a column that no relation asks for, and it may refer to
a table that nothing creates. -/
theorem valid_with_stray_reference :
    (chainedNotes "x TEXT REFERENCES ghosts (id), y").validate.valid = true ∧
    ∃ script, .generated "schema.sql" script ∈
        Standard.files (.ofManifest (chainedNotes "x TEXT REFERENCES ghosts (id), y")) ∧
      definitions .sqlite script = some [⟨"notes",
        [⟨"id", []⟩, ⟨"x", [.references "ghosts"]⟩, ⟨"y", [.references "notes"]⟩]⟩] := by
  have hvalid : (chainedNotes "x TEXT REFERENCES ghosts (id), y").validate.valid = true := by
    decide +kernel
  have hscript : Sql.render .sqlite Standard.generatedHeading (tables .sqlite
      (.ofManifest (chainedNotes "x TEXT REFERENCES ghosts (id), y"))) =
      "-- Generated by loam. Do not edit.\n\nCREATE TABLE notes (\n  id TEXT PRIMARY KEY,\n" ++
        "  x TEXT REFERENCES ghosts (id), y TEXT REFERENCES notes (id)\n);\n" := by
    decide +kernel
  have hmem := @schema_mem_files (chainedNotes "x TEXT REFERENCES ghosts (id), y")
    (.sqlite "app.db") rfl (by decide)
  refine ⟨hvalid, _, hscript ▸ hmem, ?_⟩
  decide +kernel

end Manifest

end Scaffold

import Scaffold.Proofs.Lint.Relations
import Scaffold.Proofs.Schema.ColumnFindings
import Scaffold.Proofs.Schema.TableNames

/-!
# Foreign keys and relations

A relation to one other puts a key on the table of its owner, and a relation to many puts one on the
table of its target.  In the schema of a valid manifest nothing else refers to a table: each of
these relations has one column under the name of its key, every other column of an entity's table
refers to nothing, and whatever is referred to is created by the same script.
-/

namespace Scaffold

open Sql Lint

/-! ## Keys of relations -/

def Entity.owned (e : Entity) : List OwnedRelation :=
  e.relations.entries.map fun r ↦ ⟨e.name, r.1, r.2⟩

def Manifest.tableOf? (m : Manifest) (entity : String) : Option String :=
  (m.entity? entity).map Entity.tableName

/-- The entity that the key of a relation refers to: its target if it has one of it, and its owner
if it has many. -/
def Lint.OwnedRelation.referred (r : OwnedRelation) : String :=
  if r.relation.kind = .hasOne then r.relation.entity else r.owner

def Lint.OwnedRelation.keyColumn (dialect : DatabaseKind) (m : Manifest) (r : OwnedRelation) :
    Column :=
  { name := r.link.foreignKey, type := idType dialect, references := m.tableOf? r.referred }

@[simp] theorem Lint.OwnedRelation.kind_link (r : OwnedRelation) :
    r.link.kind = r.relation.kind := rfl

@[simp] theorem Lint.OwnedRelation.target_link (r : OwnedRelation) :
    r.link.target = r.relation.entity := rfl

@[simp] theorem Lint.OwnedRelation.external_link (r : OwnedRelation) :
    r.link.external = r.relation.external := rfl

def Manifest.ownKeysOn (m : Manifest) (entity : String) : List OwnedRelation :=
  (ownedRelations m).filter fun r ↦ r.relation.kind == .hasOne && r.owner == entity

def Manifest.foreignKeysOn (m : Manifest) (entity : String) : List OwnedRelation :=
  (ownedRelations m).filter fun r ↦
    r.relation.kind == .hasMany && !r.relation.external && r.relation.entity == entity

/-- The relations that put a key on the table of an entity. -/
def Manifest.keysOn (m : Manifest) (entity : String) : List OwnedRelation :=
  m.ownKeysOn entity ++ m.foreignKeysOn entity

def Manifest.tableFor (m : Manifest) (dialect : DatabaseKind) (e : Entity) : Table :=
  recordTable dialect (.ofManifest m) (.ofEntity (e.normalize m.defaults m.source))

namespace Manifest

variable {m : Manifest} {dialect : DatabaseKind}

theorem recordTables_eq (m : Manifest) (dialect : DatabaseKind) :
    (Blueprint.ofManifest m).records.map (recordTable dialect (.ofManifest m)) =
      m.entities.map (m.tableFor dialect) := by
  rw [records_ofManifest, List.map_map]
  rfl

theorem tableOf_ofManifest (m : Manifest) (entity : String) :
    tableOf (.ofManifest m) entity = m.tableOf? entity := by
  rw [tableOf, Blueprint.record?, records_ofManifest, List.find?_map, Option.map_map]
  rfl

/-- With distinct names, an entity is found under its name. -/
theorem tableOf?_name (hnames : m.entityNames.Nodup) {e : Entity} (he : e ∈ m.entities) :
    m.tableOf? e.name = some e.tableName := by
  have hsome : (m.entity? e.name).isSome = true := List.find?_isSome.mpr ⟨e, he, by simp⟩
  obtain ⟨e', he'⟩ := Option.isSome_iff_exists.mp hsome
  have hname : e'.name = e.name := by simpa using List.find?_some he'
  have heq : e' = e :=
    List.inj_on_of_nodup_map hnames (List.mem_of_find?_eq_some he') he hname
  rw [tableOf?, he', heq, Option.map_some]

/-! ## The keys on one table -/

theorem links_ofEntity_normalize (e : Entity) (defaults : Option Defaults)
    (source : Option Source) :
    (Record.ofEntity (e.normalize defaults source)).links = e.owned.map OwnedRelation.link := by
  simp only [Record.ofEntity, Entity.normalize, Assoc.entries_mapValues, Entity.owned, List.map_map]
  refine List.map_congr_left fun r _ ↦ ?_
  exact OwnedRelation.link_normalize e.name r.1 r.2

theorem filter_owner (hnames : m.entityNames.Nodup) {e : Entity} (he : e ∈ m.entities) :
    (ownedRelations m).filter (·.owner == e.name) = e.owned := by
  have howner : ∀ e' ∈ m.entities, ∀ r ∈ e'.owned, r.owner = e'.name := by
    intro e' _ r hr
    obtain ⟨_, -, rfl⟩ := List.mem_map.mp hr
    rfl
  calc
    (ownedRelations m).filter (·.owner == e.name)
      = (m.entities.filter (·.name == e.name)).flatMap Entity.owned :=
        filter_flatMap_key howner e.name
    _ = e.owned := by rw [filter_key_eq_singleton hnames he, List.flatMap_singleton]

theorem ownKeysOn_eq (hnames : m.entityNames.Nodup) {e : Entity} (he : e ∈ m.entities) :
    m.ownKeysOn e.name = e.owned.filter (·.relation.kind == .hasOne) := by
  rw [ownKeysOn, ← filter_owner hnames he, List.filter_filter]

theorem ownKeyColumns_eq (hnames : m.entityNames.Nodup) {e : Entity} (he : e ∈ m.entities) :
    ownKeyColumns dialect (.ofManifest m) (.ofEntity (e.normalize m.defaults m.source)) =
      (m.ownKeysOn e.name).map (OwnedRelation.keyColumn dialect m) := by
  rw [ownKeyColumns, Record.ownedLinks, links_ofEntity_normalize, List.filter_map, List.map_map,
    ownKeysOn_eq hnames he]
  refine List.map_congr_left fun r hr ↦ ?_
  have hkind : r.relation.kind = .hasOne := by simpa using (List.mem_filter.mp hr).2
  simp only [Function.comp_apply, OwnedRelation.keyColumn, OwnedRelation.referred, if_pos hkind,
    tableOf_ofManifest, OwnedRelation.target_link]

/-- The keys that an entity puts on the table of another are those of its relations to many of
it. -/
theorem keyColumnsFrom_eq (hnames : m.entityNames.Nodup) {e : Entity} (he : e ∈ m.entities)
    (target : String) :
    keyColumnsFrom dialect (.ofEntity (e.normalize m.defaults m.source)) target =
      (e.owned.filter fun r ↦ r.relation.kind == .hasMany && !r.relation.external &&
        r.relation.entity == target).map (OwnedRelation.keyColumn dialect m) := by
  rw [keyColumnsFrom, links_ofEntity_normalize, List.filter_map, List.map_map]
  refine List.map_congr_left fun r hr ↦ ?_
  obtain ⟨howned, htest⟩ := List.mem_filter.mp hr
  have hkind : r.relation.kind = .hasMany := by simp_all
  have howner : r.owner = e.name := by
    obtain ⟨_, -, rfl⟩ := List.mem_map.mp howned
    rfl
  have hreferred : m.tableOf? r.referred = some e.tableName := by
    rw [OwnedRelation.referred, hkind, if_neg (by simp), howner, tableOf?_name hnames he]
  rw [Function.comp_apply, OwnedRelation.keyColumn, hreferred]
  rfl

theorem foreignKeyColumns_eq (hnames : m.entityNames.Nodup) (target : String) :
    foreignKeyColumns dialect (.ofManifest m) target =
      (m.foreignKeysOn target).map (OwnedRelation.keyColumn dialect m) := by
  rw [foreignKeyColumns, records_ofManifest, List.flatMap_map, foreignKeysOn, ownedRelations,
    List.filter_flatMap, List.map_flatMap]
  exact List.flatMap_congr fun e he ↦ keyColumnsFrom_eq hnames he target

/-- The lint counts the same keys. -/
theorem foreignKey_keysOn (hnames : m.entityNames.Nodup) {e : Entity} (he : e ∈ m.entities) :
    (m.keysOn e.name).map (·.link.foreignKey) =
      (ownKeys (e.normalize m.defaults m.source) ++ foreignKeys m.normalize e.name).map
        ColumnUse.column := by
  have hown := names_ownKeyColumns .sqlite (.ofManifest m) (e.normalize m.defaults m.source)
  have hforeign := names_foreignKeyColumns .sqlite m.normalize e.name
  rw [ownKeyColumns_eq hnames he, List.map_map] at hown
  rw [← Blueprint.ofManifest, foreignKeyColumns_eq hnames, List.map_map] at hforeign
  rw [keysOn, List.map_append, List.map_append, ← hown, ← hforeign]
  rfl

end Manifest

theorem Sql.references_of_mem_generated {dialect : DatabaseKind} {tenant : Tenant} {traits : Traits}
    {c : Column} (hc : c ∈ [idColumn dialect] ++ tenantColumns dialect tenant ++
      traitColumns dialect traits) : c.references = none := by
  simp only [tenantColumns, traitColumns, List.mem_append, List.mem_ite_nil_right, List.mem_cons,
    List.not_mem_nil, or_false] at hc
  rcases hc with (rfl | ⟨-, rfl⟩) | ⟨-, rfl | rfl⟩ | ⟨-, rfl⟩ <;> rfl

/-- Where the lints find nothing, everything fits on every table. -/
theorem Lint.columnsClear {n : Manifest} (hduplicates : duplicates n = [])
    (hconfiguration : configuration n = []) {e : Entity} (he : e ∈ n.entities) :
    ColumnsClear n e := by
  obtain ⟨hreserved, htwice⟩ := columnFindings_eq_nil_of_duplicates hduplicates he
  rw [configuration_eq, List.append_eq_nil_iff, List.flatMap_eq_nil_iff] at hconfiguration
  apply columnFindings_eq_nil_iff.mp
  rw [columnFindings, hreserved, htwice, hconfiguration.2 e he]
  rfl

namespace Manifest

variable [Pattern.Checker] {m : Manifest} {e : Entity} (hvalid : m.validate.valid = true)
  (dialect : DatabaseKind)

include hvalid

theorem entityNames_nodup_of_valid : m.entityNames.Nodup := by
  rw [← entityNames_normalize]
  exact entityNames_nodup_of_duplicates (m.valid_iff.mp hvalid).2.1

/-- Keys stand between the other columns of a table, which refer to nothing and have other names. -/
theorem exists_columns_eq (he : e ∈ m.entities) :
    ∃ before after,
      (m.tableFor dialect e).columns =
          before ++ (m.keysOn e.name).map (OwnedRelation.keyColumn dialect m) ++ after ∧
        ∀ c ∈ before ++ after,
          c.references = none ∧ c.name ∉ (m.keysOn e.name).map (·.link.foreignKey) := by
  have hnames := entityNames_nodup_of_valid hvalid
  obtain ⟨-, hduplicates, -, hconfiguration, -⟩ := m.valid_iff.mp hvalid
  set n := e.normalize m.defaults m.source with hn
  have hclear : ColumnsClear m.normalize n :=
    columnsClear hduplicates hconfiguration (List.mem_map_of_mem he)
  -- what the table gets anyway and what fields ask for are the two kinds of other columns
  have hgenerated : ∀ c ∈ [idColumn dialect] ++
      tenantColumns dialect (Blueprint.ofManifest m).tenant ++
      traitColumns dialect (Record.ofEntity n).traits,
      c.references = none ∧ c.name ∉ (m.keysOn e.name).map (·.link.foreignKey) := by
    intro c hc
    refine ⟨references_of_mem_generated hc, fun hkey ↦ ?_⟩
    have hname : c.name ∈ (generatedColumns m.normalize n).map ColumnUse.column := by
      rw [names_generated dialect, ← Blueprint.ofManifest]
      simpa [idColumn, or_assoc] using List.mem_map_of_mem (f := Column.name) hc
    rw [foreignKey_keysOn hnames he] at hkey
    obtain ⟨use, huse, heq⟩ := List.mem_map.mp hname
    obtain ⟨key, hkey, heq'⟩ := List.mem_map.mp hkey
    exact hclear.keys key hkey use huse (heq.trans heq'.symm)
  have hfields : ∀ c ∈ (Record.ofEntity n).stored.map (attributeColumn dialect),
      c.references = none ∧ c.name ∉ (m.keysOn e.name).map (·.link.foreignKey) := by
    intro c hc
    have hreferences : c.references = none := by
      obtain ⟨a, -, rfl⟩ := List.mem_map.mp hc
      rfl
    refine ⟨hreferences, fun hkey ↦ ?_⟩
    have hname : c.name ∈ (fieldColumns n).map ColumnUse.column :=
      names_attributeColumns dialect n ▸ List.mem_map_of_mem hc
    have hdistinct := hclear.distinct
    rw [List.append_assoc, List.map_append, List.nodup_append] at hdistinct
    rw [foreignKey_keysOn hnames he] at hkey
    exact hdistinct.2.2 c.name hname c.name hkey rfl
  refine ⟨[idColumn dialect] ++ tenantColumns dialect (Blueprint.ofManifest m).tenant ++
    (Record.ofEntity n).stored.map (attributeColumn dialect),
    traitColumns dialect (Record.ofEntity n).traits, ?_, ?_⟩
  · rw [keysOn, List.map_append, ← ownKeyColumns_eq hnames he, ← foreignKeyColumns_eq hnames]
    simp only [tableFor, recordTable, recordColumns, List.append_assoc]
    rfl
  · simp only [List.forall_mem_append] at hgenerated ⊢
    exact ⟨⟨hgenerated.1, hfields⟩, hgenerated.2⟩

theorem foreignKeys_nodup (he : e ∈ m.entities) :
    ((m.keysOn e.name).map (·.link.foreignKey)).Nodup := by
  obtain ⟨-, hduplicates, -, hconfiguration, -⟩ := m.valid_iff.mp hvalid
  have hclear : ColumnsClear m.normalize (e.normalize m.defaults m.source) :=
    columnsClear hduplicates hconfiguration (List.mem_map_of_mem he)
  have hdistinct := hclear.distinct
  rw [List.append_assoc, List.map_append, List.nodup_append] at hdistinct
  rw [foreignKey_keysOn (entityNames_nodup_of_valid hvalid) he]
  exact hdistinct.2.1

/-- A relation with a key on a table has one column there under the name of the key. -/
theorem filter_columns_foreignKey (he : e ∈ m.entities) {r : OwnedRelation}
    (hr : r ∈ m.keysOn e.name) :
    (m.tableFor dialect e).columns.filter (·.name == r.link.foreignKey) =
      [r.keyColumn dialect m] := by
  obtain ⟨before, after, heq, hothers⟩ := exists_columns_eq hvalid dialect he
  have hnone : ∀ cs : List Column, (∀ c ∈ cs, c ∈ before ++ after) →
      cs.filter (·.name == r.link.foreignKey) = [] := by
    intro cs hcs
    refine List.filter_eq_nil_iff.mpr fun c hc hname ↦ (hothers c (hcs c hc)).2 ?_
    exact List.mem_map.mpr ⟨r, hr, (by simpa using hname : c.name = _).symm⟩
  have hkeys : ((m.keysOn e.name).map (OwnedRelation.keyColumn dialect m)).filter
      (·.name == r.link.foreignKey) = [r.keyColumn dialect m] := by
    rw [List.filter_map]
    exact congrArg _ (filter_key_eq_singleton (foreignKeys_nodup hvalid he) hr)
  rw [heq, List.filter_append, List.filter_append, hkeys, hnone before (by simp +contextual),
    hnone after (by simp +contextual)]
  rfl

/-- All that refers to another table is the key of a relation. -/
theorem filter_columns_references (he : e ∈ m.entities) :
    (m.tableFor dialect e).columns.filter (·.references.isSome) =
      ((m.keysOn e.name).map (OwnedRelation.keyColumn dialect m)).filter (·.references.isSome) := by
  obtain ⟨before, after, heq, hothers⟩ := exists_columns_eq hvalid dialect he
  have hnone : ∀ cs : List Column, (∀ c ∈ cs, c ∈ before ++ after) →
      cs.filter (·.references.isSome) = [] := by
    intro cs hcs
    exact List.filter_eq_nil_iff.mpr fun c hc ↦ by simp [(hothers c (hcs c hc)).1]
  rw [heq, List.filter_append, List.filter_append, hnone before (by simp +contextual),
    hnone after (by simp +contextual)]
  simp

theorem exists_target_of_valid {r : OwnedRelation} (hr : r ∈ ownedRelations m)
    (hexternal : r.relation.external = false) : ∃ t ∈ m.entities, t.name = r.relation.entity := by
  obtain ⟨-, -, hrelations, -⟩ := m.valid_iff.mp hvalid
  have hr' : r.normalize ∈ ownedRelations m.normalize :=
    ownedRelations_normalize m ▸ List.mem_map_of_mem hr
  have hdangling := ((relations_eq_nil_iff m.normalize).mp hrelations).1 _ hr'
  obtain ⟨t, ht, hname⟩ := isDangling_eq_false_iff.mp hdangling.1 hexternal
  obtain ⟨target, htarget, rfl⟩ := List.mem_map.mp ht
  exact ⟨target, htarget, hname⟩

end Manifest

/-! ## What is referred to -/

namespace Manifest

variable {m : Manifest} {dialect : DatabaseKind}

theorem mem_tables_of_tableOf {entity table : String} (h : m.tableOf? entity = some table) :
    table ∈ (tables dialect (.ofManifest m)).map Table.name := by
  obtain ⟨e, he, rfl⟩ := Option.map_eq_some_iff.mp h
  have htable : m.tableFor dialect e ∈ tables dialect (.ofManifest m) := by
    rw [tables, recordTables_eq, List.append_assoc]
    exact List.mem_append_left _ (List.mem_map_of_mem (List.mem_of_find?_eq_some he))
  exact List.mem_map.mpr ⟨_, htable, rfl⟩

theorem exists_tableOf_of_junctionTable {j : Junction} {c : Column}
    (hc : c ∈ (junctionTable dialect (.ofManifest m) j).columns) {table : String}
    (href : c.references = some table) : ∃ entity, m.tableOf? entity = some table := by
  simp only [junctionTable, List.mem_append, List.mem_cons, List.not_mem_nil, or_false] at hc
  rcases hc with (rfl | rfl) | hc
  · exact ⟨j.leftEntity, (tableOf_ofManifest m _).symm.trans href⟩
  · exact ⟨j.rightEntity, (tableOf_ofManifest m _).symm.trans href⟩
  · obtain ⟨a, -, rfl⟩ := List.mem_map.mp hc
    simp [attributeColumn] at href

theorem references_of_mem_auditLog {c : Column} (hc : c ∈ (auditLog dialect).columns) :
    c.references = none := by
  simp only [auditLog, List.mem_cons, List.not_mem_nil, or_false] at hc
  rcases hc with rfl | rfl | rfl | rfl | rfl <;> rfl

/-- Every table that is referred to is the table of an entity. -/
theorem exists_tableOf_of_valid [Pattern.Checker] (hvalid : m.validate.valid = true) {t : Table}
    (ht : t ∈ tables dialect (.ofManifest m)) {c : Column} (hc : c ∈ t.columns) {table : String}
    (href : c.references = some table) : ∃ entity, m.tableOf? entity = some table := by
  rw [tables, recordTables_eq, List.mem_append, List.mem_append] at ht
  rcases ht with (ht | ht) | ht
  · obtain ⟨e, he, rfl⟩ := List.mem_map.mp ht
    have hsome : c ∈ (m.tableFor dialect e).columns.filter (·.references.isSome) :=
      List.mem_filter.mpr ⟨hc, by simp [href]⟩
    rw [filter_columns_references hvalid dialect he] at hsome
    obtain ⟨r, -, rfl⟩ := List.mem_map.mp (List.mem_filter.mp hsome).1
    exact ⟨_, href⟩
  · obtain ⟨j, -, rfl⟩ := List.mem_map.mp ht
    exact exists_tableOf_of_junctionTable hc href
  · obtain ⟨-, ht⟩ := List.mem_ite_nil_right.mp ht
    rw [List.mem_singleton.mp ht] at hc
    simp [references_of_mem_auditLog hc] at href

end Manifest

end Scaffold

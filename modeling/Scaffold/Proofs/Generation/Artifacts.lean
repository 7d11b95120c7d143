import Mathlib.Tactic.TFAE
import Scaffold.Proofs.Generation.Modules
import Scaffold.Proofs.Manifest.Survival
import Scaffold.Proofs.Schema.ReferenceClauses

/-!
# Artifacts in step

The schema, the document of input rules and the interfaces of an entity are made by themselves, each
in its own format.  Whoever reads the files finds the same stored fields in the same order, and
agreement about which of them are required and which values they may have.

This is about names and texts that can be read.  The field of a tenant may bring more members into
an interface, even one that is named like a field and contradicts it.
-/

namespace Scaffold

/-! ## The document of input rules -/

section

open Data Json Value

namespace Json.Value

/-- What is read where the value was written: a number that is not finite is written as null. -/
def legible : Value → Value
  | .float x => if x.isFinite then .float x else .null
  | v => v

theorem prettyAt_legible (depth : Nat) (v : Value) :
    prettyAt depth v.legible = prettyAt depth v := by
  cases v with
  | float x =>
      cases x with
      | nan => rfl
      | infinite negative => cases negative <;> rfl
      | finite negative mantissa exponent => rfl
  | _ => rfl

theorem prettyMembers_congr {α : Type} {items : List α} {depth : Nat} {key : α → String}
    {value other : α → Value} (h : ∀ a, prettyAt depth (value a) = prettyAt depth (other a)) :
    prettyMembers depth (items.map fun a ↦ (key a, value a)) =
      prettyMembers depth (items.map fun a ↦ (key a, other a)) := by
  induction items with
  | nil => rfl
  | cons a items ih => simp only [List.map_cons, prettyMembers, h, ih]

theorem within_legible {P : Numeral → Prop} {k : Nat} {v : Value} (h : Within P k v) :
    Within P k v.legible := by
  cases v with
  | float x =>
      rw [legible]
      split
      · exact h
      · exact .null
  | _ => exact h

def legibleMembers : Value → Value
  | .object members => .object (members.map fun e ↦ (e.1, e.2.legible))
  | v => v

theorem prettyAt_legibleMembers (depth : Nat) (v : Value) :
    prettyAt depth v.legibleMembers = prettyAt depth v := by
  cases v with
  | object members =>
      have hmembers := @prettyMembers_congr _ members (depth + 1) Prod.fst
        (fun e ↦ e.2.legible) Prod.snd fun e ↦ prettyAt_legible _ e.2
      simp only [Prod.eta, List.map_id'] at hmembers
      rw [legibleMembers, prettyAt, prettyAt, hmembers]
  | _ => rfl

theorem get?_legibleMembers (v : Value) (key : String) :
    v.legibleMembers.get? key = (v.get? key).map legible := by
  cases v with
  | object members =>
      simp only [legibleMembers, get?]
      induction members with
      | nil => rfl
      | cons e members ih =>
          obtain ⟨other, v⟩ := e
          rw [List.map_cons, List.lookup_cons, List.lookup_cons, ih]
          cases key == other <;> rfl
  | _ => rfl

end Json.Value

theorem within_default {l : Literal} {k : Nat}
    (h : ∀ i, l = .integer i → Numeral.Writable (.integer i)) :
    Within Numeral.Writable k l.toJson.legible := by
  cases l with
  | text s => exact .string s
  | flag b => exact .bool b
  | integer i => exact .integer (h i rfl)
  | float x =>
      rw [Literal.toJson, legible]
      split
      · next hfinite => exact .float hfinite
      · exact .null

namespace Attribute

variable {a : Attribute}

theorem get?_required (a : Attribute) :
    a.inputRules.get? "required" = some (.bool a.required) := rfl

theorem get?_values {values : List String} (h : a.kind = .enum values) :
    a.inputRules.get? "values" = some (.array (values.map .string)) := by
  cases hunique : a.unique <;> simp only [inputRules, get?, h, hunique] <;> rfl

/-- The rules of an attribute are nested three deep at most, and their numbers can be written. -/
theorem within_inputRules
    (hdefault : ∀ i, a.default = some (.integer i) → Numeral.Writable (.integer i))
    (hrules : ∀ r ∈ a.rules, r.Fits) :
    Within Numeral.Writable 3 a.inputRules.legibleMembers := by
  have hliteral : ∀ e ∈ member? "default" a.default Literal.toJson,
      Within Numeral.Writable 2 e.2.legible := by
    cases hvalue : a.default with
    | none => simp [member?]
    | some l =>
        exact List.forall_mem_singleton.mpr (within_default fun i hi ↦ hdefault i (hi ▸ hvalue))
  have hbounds : ∀ e ∈ listMember? "rules" a.rules Rule.toJson,
      Within Numeral.Writable 2 e.2.legible := fun e he ↦
    within_legible (within_listMember? (fun r hr ↦ within_rule (hrules r hr)) e he)
  refine .object (List.forall_mem_map.mpr ?_)
  simp only [List.forall_mem_append]
  refine ⟨⟨⟨⟨?_, ?_⟩, ?_⟩, hliteral⟩, hbounds⟩
  · simpa using ⟨.string _, .bool _⟩
  · split
    · simpa using .bool true
    · simp
  · split
    · exact List.forall_mem_singleton.mpr (within_legible (within_texts _))
    · simp

end Attribute

/-- The document of input rules has a tree of them, with the members of each attribute as they are
read. -/
theorem Record.read_inputRules {r : Record}
    (hdefault : ∀ a ∈ r.stored, ∀ i, a.default = some (.integer i) → Numeral.Writable (.integer i))
    (hrules : ∀ a ∈ r.stored, ∀ rule ∈ a.rules, rule.Fits) :
    Holds WrittenNumber (Document.read (r.inputRules.pretty ++ "\n")).root
        (.object [("entity", .string r.name),
          ("fields", .object (r.stored.map fun a ↦ (a.name, a.inputRules.legibleMembers)))]) ∧
      (Document.read (r.inputRules.pretty ++ "\n")).trailing = none := by
  set v : Value := .object [("entity", .string r.name),
    ("fields", .object (r.stored.map fun a ↦ (a.name, a.inputRules.legibleMembers)))] with hv
  have hpretty : r.inputRules.pretty = v.pretty := by
    have hfields := @prettyMembers_congr _ r.stored 2 Attribute.name
      (fun a ↦ a.inputRules.legibleMembers) Attribute.inputRules
      fun a ↦ prettyAt_legibleMembers _ a.inputRules
    simp only [hv, inputRules, pretty, prettyAt, prettyMembers, hfields]
  have hwithin : Within Numeral.Writable 5 v := by
    refine .object (List.forall_mem_cons.mpr ⟨.string _, List.forall_mem_singleton.mpr ?_⟩)
    exact .object (List.forall_mem_map.mpr fun a ha ↦
      Attribute.within_inputRules (hdefault a ha) (hrules a ha))
  rw [hpretty]
  exact read_written_append (hwithin.imp fun _ _ ↦ Numeral.Writable.scansAs) (by decide)
    ⟨by decide, by decide, by decide, by decide⟩ fun _ ↦ rfl

end

open Naming Sql TypeScript Lint

/-! ## What a file tells about a field -/

theorem Sql.notNull_mem_definition (c : Column) :
    .notNull ∈ c.definition.clauses ↔ c.isNotNull = true := by
  simp [Column.definition]

theorem Sql.oneOf_mem_definition {c : Column} {values : List String} (h : c.values = some values) :
    .oneOf c.name values ∈ c.definition.clauses := by
  simp [Column.definition, h]

namespace TypeScript.Member

theorem null_mem_definition (m : Member) :
    .named "null" ∈ m.definition.type ↔ m.isNullable = true := by
  have htype : Alternative.named "null" ∉ m.type.alternatives := by
    cases m.type <;> simp [ValueType.alternatives]
  simp [definition, alternatives, htype]

theorem filter_definition {m : Member} {values : List String} (h : m.type = .oneOf values) :
    m.definition.type.filter (· ≠ .named "null") = values.map .text := by
  have hvalues : (values.map Alternative.text).filter (· ≠ .named "null") = values.map .text :=
    List.filter_eq_self.mpr (List.forall_mem_map.mpr fun _ _ ↦ by simp)
  have hnull : (if m.isNullable then [Alternative.named "null"] else []).filter
      (· ≠ .named "null") = [] := by
    cases m.isNullable <;> rfl
  rw [definition, alternatives, h, ValueType.alternatives, List.filter_append, hvalues, hnull,
    List.append_nil]

end TypeScript.Member

/-- A stored field with what the files of its entity have for it. -/
structure FieldRow where
  name : String
  field : Field
  column : ColumnDefinition
  /-- What the document of input rules has under its name. -/
  rules : Json.Value
  /-- Its member in the interface of an input. -/
  input : MemberDefinition
  /-- Its member in the interface of a record. -/
  member : MemberDefinition

namespace FieldRow

def ofField (dialect : DatabaseKind) (name : String) (f : Field) : FieldRow :=
  let a := Attribute.ofField name f.normalize
  ⟨name, f, (attributeColumn dialect a).definition, a.inputRules.legibleMembers,
    (inputMember a).definition, (attributeMember a).definition⟩

/-- The files agree about a field: what it is called, whether it is required, and which values it
may have. -/
structure Agrees (row : FieldRow) : Prop where
  column : row.column.name = columnOf row.name
  input : row.input.name = row.name
  member : row.member.name = row.name
  required : List.TFAE [row.field.isRequired = true,
    .notNull ∈ row.column.clauses,
    row.rules.get? "required" = some (.bool true),
    .named "null" ∉ row.input.type,
    .named "null" ∉ row.member.type]
  values : ∀ values, row.field.kind = .enum values →
    .oneOf row.column.name values ∈ row.column.clauses ∧
      row.rules.get? "values" = some (.array (values.map .string)) ∧
      row.input.type.filter (· ≠ .named "null") = values.map .text ∧
      row.member.type.filter (· ≠ .named "null") = values.map .text

/-- What is written for a stored field agrees in all three files. -/
theorem agrees_ofField (dialect : DatabaseKind) (name : String) {f : Field}
    (hstored : f.isComputed = false) : (ofField dialect name f).Agrees where
  column := rfl
  input := rfl
  member := rfl
  required := by
    have hmember : (attributeMember (Attribute.ofField name f.normalize)).isNullable =
        !f.isRequired := by
      rw [attributeMember, Attribute.isStored, show (Attribute.ofField name f.normalize).kind =
        f.kind from rfl, show f.kind.isComputed = false from hstored]
      rfl
    have hinput : (inputMember (Attribute.ofField name f.normalize)).isNullable =
        !f.isRequired := rfl
    refine List.tfae_of_forall (f.isRequired = true) _ ?_
    simp only [List.forall_mem_cons, ofField]
    refine ⟨trivial, notNull_mem_definition _, ?_, ?_, ?_, by simp⟩
    · rw [Json.Value.get?_legibleMembers, Attribute.get?_required, Option.map_some, Option.some_inj]
      exact Json.Value.bool.injEq _ _ ▸ Iff.rfl
    · rw [Member.null_mem_definition, hinput]
      simp
    · rw [Member.null_mem_definition, hmember]
      simp
  values values hkind := by
    have hkind' : (Attribute.ofField name f.normalize).kind = .enum values := hkind
    have htype : ValueType.ofKind (Attribute.ofField name f.normalize).kind = .oneOf values := by
      rw [hkind']
      rfl
    have hvalues : (attributeColumn dialect (Attribute.ofField name f.normalize)).values =
        some values := by
      rw [attributeColumn, hkind']
    refine ⟨oneOf_mem_definition hvalues, ?_, Member.filter_definition htype,
      Member.filter_definition htype⟩
    rw [ofField, Json.Value.get?_legibleMembers, Attribute.get?_values hkind']
    rfl

end FieldRow

/-! ## The files of an entity -/

namespace TypeScript

def Statement.interface? : Statement → Option (String × List MemberDefinition)
  | .interface name members => some (name, members)
  | _ => none

def interfaces (ss : List Statement) : List (String × List MemberDefinition) :=
  ss.filterMap Statement.interface?

end TypeScript

namespace Manifest

variable {m : Manifest} {e : Entity}

/-- How the files of an entity belong together, row by row: a script, a document of input rules and
the code of a module. -/
structure InStep (m : Manifest) (d : Database) (e : Entity) (script document code : String)
    (rows : List FieldRow) : Prop where
  fields : rows.map (fun row ↦ (row.name, row.field)) = e.storedFields.entries
  agree : ∀ row ∈ rows, row.Agrees
  /-- The script creates the table of the entity.  Of its columns, those that are named like a field
  are the columns of the rows. -/
  schema : ∃ table others, definitions d.kind script = some (m.entities.map table ++ others) ∧
    (table e).name = e.tableName ∧
    (table e).columns.filter (·.name ∈ e.storedFields.entries.map fun f ↦ columnOf f.1) =
      rows.map FieldRow.column
  columns_nodup : (rows.map (·.column.name)).Nodup
  document : Json.Holds Json.WrittenNumber (Json.Document.read document).root
      (.object [("entity", .string e.name),
        ("fields", .object (rows.map fun row ↦ (row.name, row.rules)))]) ∧
    (Json.Document.read document).trailing = none
  /-- The module has one interface for records and one for inputs.  In the first, what can be
  written to a record stands between what it gets anyway. -/
  module : ∃ ss members, module? code = some ss ∧
    interfaces ss = [(e.name, members), (createInput e.name, rows.map FieldRow.input)] ∧
    members.filter (!·.isReadonly) =
      Member.definition { name := "id", type := .string } ::
        (tenantMembers (Blueprint.ofManifest m).tenant).map Member.definition ++
        rows.map FieldRow.member ++
        ((Record.ofEntity (e.normalize m.defaults m.source)).ownedLinks.map keyMember ++
          traitMembers (Record.ofEntity (e.normalize m.defaults m.source)).traits).map
            Member.definition

/-- What is on a table for something else than a field has another name than the fields. -/
theorem name_notMem_fieldColumns (hclear : ColumnsClear m.normalize e) (dialect : DatabaseKind)
    {c : Column} (hc : c ∈ [idColumn dialect] ++
      tenantColumns dialect (Blueprint.ofManifest m).tenant ++
      ownKeyColumns dialect (.ofManifest m) (.ofEntity e) ++
      foreignKeyColumns dialect (.ofManifest m) e.name ++
      traitColumns dialect (Record.ofEntity e).traits) :
    c.name ∉ (fieldColumns e).map ColumnUse.column := by
  intro hfield
  have hname : c.name ∈ (generatedColumns m.normalize e ++
      (ownKeys e ++ foreignKeys m.normalize e.name)).map ColumnUse.column := by
    have hmem := List.mem_map_of_mem (f := Column.name) hc
    rw [List.map_append, List.map_append, names_generated dialect]
    simp only [List.map_append, names_ownKeyColumns, Blueprint.ofManifest, names_foreignKeyColumns,
      List.mem_append, List.mem_cons, List.map_cons, List.map_nil, List.not_mem_nil, idColumn]
      at hmem ⊢
    tauto
  rw [List.map_append, List.mem_append] at hname
  rcases hname with hgenerated | hkey
  · obtain ⟨use, huse, hcolumn⟩ := List.mem_map.mp hgenerated
    obtain ⟨_, hmem, heq⟩ := List.mem_map.mp hfield
    obtain ⟨f, hf, rfl⟩ := List.mem_map.mp hmem
    have hdeclared : f.1 ∈ Assoc.keys e.fields := List.mem_map_of_mem (List.mem_of_mem_filter hf)
    exact hclear.fields f.1 hdeclared use huse (hcolumn.trans heq.symm)
  · have hdistinct := hclear.distinct
    rw [List.append_assoc, List.map_append, List.nodup_append] at hdistinct
    exact hdistinct.2.2 c.name hfield c.name hkey rfl

theorem names_fieldColumns : (fieldColumns (e.normalize m.defaults m.source)).map
      ColumnUse.column = e.storedFields.entries.map fun f ↦ columnOf f.1 := by
  rw [← names_attributeColumns .sqlite, stored_ofEntity_normalize, List.map_map, List.map_map]
  rfl

section

variable (hclear : ColumnsClear m.normalize (e.normalize m.defaults m.source))
  (dialect : DatabaseKind)

include hclear

/-- The columns of an entity under the names of its stored fields are those of the fields, in
order. -/
theorem columns_tableFor_filter :
    (m.tableFor dialect e).columns.filter
        (·.name ∈ e.storedFields.entries.map fun f ↦ columnOf f.1) =
      e.storedFields.entries.map fun f ↦
        attributeColumn dialect (Attribute.ofField f.1 f.2.normalize) := by
  set n := e.normalize m.defaults m.source with hn
  have hothers : ∀ c ∈ [idColumn dialect] ++
      tenantColumns dialect (Blueprint.ofManifest m).tenant ++
      ownKeyColumns dialect (.ofManifest m) (.ofEntity n) ++
      foreignKeyColumns dialect (.ofManifest m) (Record.ofEntity n).name ++
      traitColumns dialect (Record.ofEntity n).traits,
      c.name ∉ e.storedFields.entries.map fun f ↦ columnOf f.1 := by
    intro c hc
    rw [← names_fieldColumns]
    exact name_notMem_fieldColumns hclear dialect hc
  simp only [List.forall_mem_append] at hothers
  obtain ⟨⟨⟨⟨hid, htenant⟩, hown⟩, hforeign⟩, htraits⟩ := hothers
  have hnone {cs : List Column}
      (h : ∀ c ∈ cs, c.name ∉ e.storedFields.entries.map fun f ↦ columnOf f.1) :
      cs.filter (·.name ∈ e.storedFields.entries.map fun f ↦ columnOf f.1) = [] :=
    List.filter_eq_nil_iff.mpr fun c hc ↦ by simpa using h c hc
  have hkept : ((Record.ofEntity n).stored.map (attributeColumn dialect)).filter
      (·.name ∈ e.storedFields.entries.map fun f ↦ columnOf f.1) =
        (Record.ofEntity n).stored.map (attributeColumn dialect) := by
    refine List.filter_eq_self.mpr fun c hc ↦ decide_eq_true ?_
    rw [← names_fieldColumns, ← names_attributeColumns dialect]
    exact List.mem_map_of_mem hc
  rw [tableFor, recordTable, recordColumns]
  simp only [List.filter_append]
  rw [hnone hid, hnone htenant, hkept, hnone hown, hnone hforeign, hnone htraits,
    stored_ofEntity_normalize, List.map_map]
  simp only [List.nil_append, List.append_nil]
  rfl

theorem columnNames_nodup : (e.storedFields.entries.map fun f ↦ columnOf f.1).Nodup := by
  have hdistinct := hclear.distinct
  rw [List.append_assoc, List.map_append, List.nodup_append, names_fieldColumns] at hdistinct
  exact hdistinct.1

end

/-- The members that are not read-only are the identifier, the tenant, the stored fields, the keys
and what the traits add. -/
theorem members_filter (m : Manifest) (e : Entity) :
    (m.moduleFor e).record.members.filter (!·.isReadonly) =
      [{ name := "id", type := .string }] ++ tenantMembers (Blueprint.ofManifest m).tenant ++
        (e.storedFields.entries.map fun f ↦
          attributeMember (Attribute.ofField f.1 f.2.normalize)) ++
        ((Record.ofEntity (e.normalize m.defaults m.source)).ownedLinks.map keyMember ++
          traitMembers (Record.ofEntity (e.normalize m.defaults m.source)).traits) := by
  set r := Record.ofEntity (e.normalize m.defaults m.source) with hr
  have hfields : (r.attributes.map attributeMember).filter (!·.isReadonly) =
      e.storedFields.entries.map fun f ↦
        attributeMember (Attribute.ofField f.1 f.2.normalize) := by
    have hwritable : (fun a ↦ !(attributeMember a).isReadonly) = Attribute.isStored :=
      funext fun a ↦ Bool.not_not _
    rw [List.filter_map, Function.comp_def, hwritable, ← Record.stored, hr,
      stored_ofEntity_normalize, List.map_map]
    rfl
  have htenant : (tenantMembers (Blueprint.ofManifest m).tenant).filter (!·.isReadonly) =
      tenantMembers (Blueprint.ofManifest m).tenant := by
    rw [tenantMembers]
    split <;> rfl
  have hkeys : (r.ownedLinks.map keyMember).filter (!·.isReadonly) = r.ownedLinks.map keyMember :=
    List.filter_eq_self.mpr (List.forall_mem_map.mpr fun _ _ ↦ rfl)
  have htraits : (traitMembers r.traits).filter (!·.isReadonly) = traitMembers r.traits := by
    rw [traitMembers]
    cases r.traits.timestamps <;> cases r.traits.softDelete <;> rfl
  change (recordMembers _ r).filter _ = _
  rw [recordMembers]
  simp only [List.filter_append, hfields, htenant, hkeys, htraits, List.append_assoc]
  rfl

section

variable [Pattern.Checker] (hvalid : m.validate.valid = true) (he : e ∈ m.entities)

include hvalid he

theorem exists_table_of_plain {dialect : DatabaseKind} (hplain : m.PlainFor dialect) :
    ∃ table others, definitions dialect
        (Sql.render dialect Standard.generatedHeading (tables dialect (.ofManifest m))) =
          some (m.entities.map table ++ others) ∧
      (table e).name = e.tableName ∧
      (table e).columns.filter (·.name ∈ e.storedFields.entries.map fun f ↦ columnOf f.1) =
        e.storedFields.entries.map fun f ↦
          (attributeColumn dialect (Attribute.ofField f.1 f.2.normalize)).definition := by
  obtain ⟨-, hduplicates, -, hconfiguration, -⟩ := m.valid_iff.mp hvalid
  have hclear : ColumnsClear m.normalize (e.normalize m.defaults m.source) :=
    columnsClear hduplicates hconfiguration (List.mem_map_of_mem he)
  obtain ⟨others, -, hread⟩ := definitions_schema hvalid hplain
  refine ⟨_, others, hread, rfl, ?_⟩
  have hfilter := congrArg (List.map Column.definition) (columns_tableFor_filter hclear dialect)
  rw [List.map_map] at hfilter
  rw [Table.definition, List.filter_map]
  exact hfilter

theorem read_rulesFile (hsized : m.Sized) :
    Json.Holds Json.WrittenNumber (Json.Document.read (Standard.rulesFile
        (.ofEntity (e.normalize m.defaults m.source))).content).root
        (.object [("entity", .string e.name),
          ("fields", .object (e.storedFields.entries.map fun f ↦
            (f.1, (Attribute.ofField f.1 f.2.normalize).inputRules.legibleMembers)))]) ∧
      (Json.Document.read (Standard.rulesFile
        (.ofEntity (e.normalize m.defaults m.source))).content).trailing = none := by
  have hstored := stored_ofEntity_normalize e m.defaults m.source
  have hfield {f : String × Field} (hf : f ∈ e.storedFields.entries) : f.2 ∈ m.everyField :=
    List.mem_flatMap.mpr ⟨e, he,
      List.mem_append_left _ (List.mem_map_of_mem (List.mem_of_mem_filter hf))⟩
  have hread := @Record.read_inputRules (.ofEntity (e.normalize m.defaults m.source))
    (hstored ▸ List.forall_mem_map.mpr fun f hf ↦ hsized f.2 (hfield hf))
    (hstored ▸ List.forall_mem_map.mpr fun f hf ↦ bounds_of_valid hvalid f.2 (hfield hf))
  rw [hstored, List.map_map] at hread
  exact hread

/-- The module of an entity with plain names can be read, and its interfaces have these members. -/
theorem exists_interfaces_of_plain (hplain : m.PlainInEntities) :
    ∃ ss members, module? (Standard.entityFile (.ofManifest m)
        (.ofEntity (e.normalize m.defaults m.source))).content = some ss ∧
      interfaces ss = [(e.name, members), (createInput e.name,
        e.storedFields.entries.map fun f ↦
          (inputMember (Attribute.ofField f.1 f.2.normalize)).definition)] ∧
      members.filter (!·.isReadonly) =
        Member.definition { name := "id", type := .string } ::
          (tenantMembers (Blueprint.ofManifest m).tenant).map Member.definition ++
          (e.storedFields.entries.map fun f ↦
            (attributeMember (Attribute.ofField f.1 f.2.normalize)).definition) ++
          ((Record.ofEntity (e.normalize m.defaults m.source)).ownedLinks.map keyMember ++
            traitMembers (Record.ofEntity (e.normalize m.defaults m.source)).traits).map
              Member.definition := by
  obtain ⟨source, hread⟩ := EntityModule.exists_declares (readable_moduleFor hvalid hplain he)
    Standard.reads_headings.1
  have hinput : (m.moduleFor e).input.members = e.storedFields.entries.map fun f ↦
      inputMember (Attribute.ofField f.1 f.2.normalize) := by
    rw [moduleFor, EntityModule.ofRecord, stored_ofEntity_normalize, List.map_map]
    rfl
  refine ⟨_, (m.moduleFor e).record.members.map Member.definition, hread.module?_eq, ?_, ?_⟩
  · have hinterfaces : interfaces ((m.moduleFor e).statements ++
        (source.map (.constant ((m.moduleFor e).stem ++ "Source"))).toList) =
        [(e.name, (m.moduleFor e).record.members.map Member.definition),
          (createInput e.name, (m.moduleFor e).input.members.map Member.definition)] := by
      cases source <;> rfl
    rw [hinterfaces, hinput, List.map_map]
    rfl
  · have hfilter := congrArg (List.map Member.definition) (members_filter m e)
    simp only [List.map_append, List.map_map] at hfilter
    rw [List.filter_map]
    simp only [List.map_append, List.map_map]
    exact hfilter

end

/-- The files of every entity of a valid manifest with storage are in step, as long as all of its
names and texts can be read there. -/
theorem artifacts_inStep [Pattern.Checker] (m : Manifest) (hvalid : m.validate.valid = true)
    (hsized : m.Sized) {d : Database} (hdatabase : m.database = some d)
    (hmode : m.effectiveMode ≠ .apiOnly) (hplain : m.PlainFor d.kind) (hmodules : m.PlainInEntities)
    (he : e ∈ m.entities) :
    ∃ script document code rows,
      .generated "schema.sql" script ∈ Standard.files (.ofManifest m) ∧
      .generated ("validation/" ++ singularOf e.name ++ ".json") document ∈
        Standard.files (.ofManifest m) ∧
      .generated ("api/" ++ singularOf e.name ++ ".ts") code ∈ Standard.files (.ofManifest m) ∧
      m.InStep d e script document code rows := by
  obtain ⟨-, hduplicates, -, hconfiguration, -⟩ := m.valid_iff.mp hvalid
  have hclear : ColumnsClear m.normalize (e.normalize m.defaults m.source) :=
    columnsClear hduplicates hconfiguration (List.mem_map_of_mem he)
  obtain ⟨hrules, hmodule⟩ := mem_files_of_mem_entities he
  refine ⟨_, _, _, e.storedFields.entries.map fun f ↦ FieldRow.ofField d.kind f.1 f.2,
    schema_mem_files hdatabase hmode, hrules, hmodule, ?_⟩
  constructor
  case fields =>
      rw [List.map_map]
      exact List.map_id _
  case agree =>
      refine List.forall_mem_map.mpr fun f hf ↦ ?_
      have hcomputed : f.2.isComputed = false := by simpa using (List.mem_filter.mp hf).2
      exact FieldRow.agrees_ofField d.kind f.1 hcomputed
  case schema =>
      rw [List.map_map]
      exact exists_table_of_plain hvalid he hplain
  case columns_nodup =>
      rw [List.map_map]
      exact columnNames_nodup hclear
  case document =>
      rw [List.map_map]
      exact read_rulesFile hvalid he hsized
  case module =>
      simp only [List.map_map]
      exact exists_interfaces_of_plain hvalid he hmodules

/-- Products of several tenants, with a field that may be missing, one with few values and one that
is computed, and the key of a maker. -/
def catalogue : Manifest where
  database := some (.sqlite "shop.db")
  tenancy := some ⟨some true, none⟩
  entities :=
    [{ name := "Product",
       fields := .ofList [("label", { kind := .text }),
         ("unitPrice", { kind := .number, required := some false }),
         ("slug", { kind := .computed ["label"] "label" }),
         ("state", { kind := .enum ["new", "maker's own"] })],
       relations := .ofList [("maker", { kind := .hasOne, entity := "Maker" })] },
      { name := "Maker", fields := .ofList [("label", { kind := .text })] }]

theorem sized_catalogue : catalogue.Sized := by
  have hdefaults : ∀ f ∈ catalogue.everyField, f.default = none := by decide +kernel
  intro f hf i hi
  rw [hdefaults f hf] at hi
  cases hi

theorem plainFor_catalogue : catalogue.PlainFor .sqlite where
  tables := by decide +kernel
  keys := by decide +kernel
  junctions := by decide +kernel
  targets := by decide +kernel
  tenant := by decide +kernel
  texts _ _ _ _ h := nomatch h

theorem plainInEntities_catalogue : catalogue.PlainInEntities where
  tenant := by decide +kernel
  keys := by decide +kernel
  values := by
    have hvalues : ∀ e ∈ catalogue.entities, ∀ f ∈ e.fields.entries, ∀ s ∈ f.2.kind.values,
        '\n' ∉ s.toList ∧ '\r' ∉ s.toList := by
      decide +kernel
    exact hvalues
  sources _ he s hs := by
    rcases List.mem_cons.mp he with rfl | he
    · cases hs
    · rw [List.mem_singleton.mp he] at hs
      cases hs

theorem artifacts_inStep_catalogue :
    catalogue.validate.valid = true ∧ catalogue.Sized ∧ catalogue.effectiveMode ≠ .apiOnly ∧
      catalogue.PlainFor .sqlite ∧ catalogue.PlainInEntities ∧
      ∃ e ∈ catalogue.entities, ∃ script document code rows,
        .generated "schema.sql" script ∈ Standard.files (.ofManifest catalogue) ∧
        .generated "validation/product.json" document ∈ Standard.files (.ofManifest catalogue) ∧
        .generated "api/product.ts" code ∈ Standard.files (.ofManifest catalogue) ∧
        catalogue.InStep (.sqlite "shop.db") e script document code rows ∧
        rows.map FieldRow.name = ["label", "unitPrice", "state"] := by
  have hvalid : catalogue.validate.valid = true := by decide +kernel
  have hmode : catalogue.effectiveMode ≠ .apiOnly := by decide
  have hsingular : singularOf "Product" = "product" := by decide +kernel
  obtain ⟨script, document, code, rows, hscript, hdocument, hcode, hrows⟩ :=
    artifacts_inStep catalogue hvalid sized_catalogue rfl hmode plainFor_catalogue
      plainInEntities_catalogue List.mem_cons_self
  rw [hsingular] at hdocument hcode
  refine ⟨hvalid, sized_catalogue, hmode, plainFor_catalogue, plainInEntities_catalogue, _,
    List.mem_cons_self, script, document, code, rows, hscript, hdocument, hcode, hrows, ?_⟩
  have hnames := congrArg (List.map Prod.fst) hrows.fields
  rw [List.map_map] at hnames
  exact hnames

/-! ## A member that contradicts its field -/

def labelledNote : Entity where
  name := "Note"
  fields := .ofList [("label", { kind := .text })]
  behaviors := ⟨some false, none, none⟩

/-- Notes of several tenants, which are told apart by a field of any name. -/
def labelledNotes (field : String) : Manifest where
  database := some (.sqlite "app.db")
  tenancy := some ⟨some true, some field⟩
  entities := [labelledNote]

def notesModule (others : List Member) : EntityModule where
  record := ⟨"Note", { name := "id", type := .string } :: others ++
    [{ name := "label", type := .string }]⟩
  input := ⟨"CreateNoteInput", [{ name := "label", type := .string }]⟩
  stem := "note"
  entity := "Note"
  routes := Operation.all.map fun op ↦
    ⟨op, method op, (Routes.ofEntity "Note").ofOperation op, false⟩
  remote := none

/-- What is read of the member of a tenant whose name has the end of another one in it. -/
def strayMembers : List Member :=
  [{ name := "label", type := .string, isNullable := true }, { name := "x", type := .string }]

theorem render_notesModule (heading : String) :
    (notesModule [⟨"label: string | null;\n  x", .string, false, false, false⟩]).render heading =
      (notesModule strayMembers).render heading := by
  have hrecord : unlines (notesModule
      [⟨"label: string | null;\n  x", .string, false, false, false⟩]).record.lines =
        unlines (notesModule strayMembers).record.lines := by
    decide +kernel
  simp only [EntityModule.render_eq, EntityModule.lines, unlines_append, hrecord]
  rfl

theorem readable_notesModule : (notesModule strayMembers).Readable := by
  have htext {name : String} (hname : TypeScript.isIdentifier name = true) (isNullable : Bool) :
      Member.Readable { name, type := .string, isNullable } := ⟨hname, fun _ h ↦ nomatch h⟩
  have hlabel : TypeScript.isIdentifier "label" = true := rfl
  refine ⟨rfl, rfl, ⟨rfl, ?_⟩, ⟨rfl, ?_⟩, ?_, fun _ h ↦ nomatch h⟩
  · simp only [notesModule, strayMembers, List.forall_mem_cons, List.cons_append, List.nil_append]
    exact ⟨htext rfl false, htext hlabel true, htext rfl false, htext hlabel false, by simp⟩
  · exact List.forall_mem_singleton.mpr (htext hlabel false)
  · exact List.forall_mem_map.mpr fun op _ ↦
      ⟨isBare_method op, (isBare_routes (by decide) op).onOneLine⟩

/-- The lints let the field of the tenants be named in a way that gives records a second member for
a required field, and by that one it may be missing. -/
theorem valid_with_contradicting_member :
    (labelledNotes "label: string | null;\n  x").validate.valid = true ∧
      ∃ e ∈ (labelledNotes "label: string | null;\n  x").entities,
        (∃ f, ("label", f) ∈ e.storedFields.entries ∧ f.isRequired = true) ∧
        ∃ code, .generated ("api/" ++ singularOf e.name ++ ".ts") code ∈
            Standard.files (.ofManifest (labelledNotes "label: string | null;\n  x")) ∧
          ∃ ss, module? code = some ss ∧ interfaces ss =
            [("Note", [⟨"id", false, false, [.named "string"]⟩,
                ⟨"label", false, false, [.named "string", .named "null"]⟩,
                ⟨"x", false, false, [.named "string"]⟩,
                ⟨"label", false, false, [.named "string"]⟩]),
              ("CreateNoteInput", [⟨"label", false, false, [.named "string"]⟩])] := by
  have hvalid : (labelledNotes "label: string | null;\n  x").validate.valid = true := by
    decide +kernel
  have hmem : labelledNote ∈ (labelledNotes "label: string | null;\n  x").entities :=
    List.mem_singleton_self _
  have hmodule : (labelledNotes "label: string | null;\n  x").moduleFor labelledNote =
      notesModule [⟨"label: string | null;\n  x", .string, false, false, false⟩] := by
    decide +kernel
  obtain ⟨source, hread⟩ := EntityModule.exists_declares readable_notesModule
    Standard.reads_headings.1
  rw [← render_notesModule, ← hmodule] at hread
  refine ⟨hvalid, _, hmem, ⟨_, List.mem_singleton_self _, rfl⟩, _,
    (mem_files_of_mem_entities hmem).2, _, hread.module?_eq, ?_⟩
  cases source <;> rfl

end Manifest

end Scaffold

import Scaffold.Proofs.Lint.Order
import Scaffold.Proofs.Manifest.Survival
import Scaffold.Proofs.Naming.Shapes
import Scaffold.Proofs.Schema.Script

/-!
# Plain names

Names that follow from declared ones are identifiers.  The names that a manifest may give in their
place are written as they are, whatever stands in them, and so is the field of a tenant.  As long as
these are identifiers too and the texts of fields come back, every table of a valid manifest can be
read from the script.
-/

namespace Scaffold

open Naming Sql Lint

/-! ## Identifiers -/

namespace Sql

theorem isLetter_of_isAlphanumeric {c : Char} (h : isAlphanumeric c = true) :
    (isLetter c && c != '.') = true := by
  have hall : ∀ n < 128, isAlphanumeric (Char.ofNat n) = true →
      (isLetter (Char.ofNat n) && Char.ofNat n != '.') = true := by
    decide
  have hc := hall c.toNat (isAscii_of_isNameCharacter (isNameCharacter_of_isAlphanumeric h))
  rw [Char.ofNat_toNat] at hc
  exact hc h

theorem isIdentifier_of_wordShape {name : String} (h : WordShape '_' name) :
    isIdentifier name = true := by
  obtain ⟨⟨ws, -, hws, hname⟩, c, hc, hsmall⟩ := h
  rw [isIdentifier, Option.mem_def.mp hc, Bool.and_eq_true, List.all_eq_true, hname]
  refine ⟨?_, fun d hd ↦ ?_⟩
  · have hdigit : c.isDigit = false := not_isDecimal_of_isSmall hsmall
    simp [hdigit]
  · rcases mem_intercalate_singleton hd with rfl | ⟨w, hw, hd⟩
    · rfl
    · rcases (hws w hw).2 d hd with hd | hd
      · exact isLetter_of_isAlphanumeric (isAlphanumeric_of_isSmall hd)
      · refine isLetter_of_isAlphanumeric ?_
        simp only [isAlphanumeric, isDecimal] at hd ⊢
        exact Bool.or_eq_true_iff.mpr (.inr hd)

theorem isIdentifier_append {a b : String} (ha : isIdentifier a = true)
    (hb : (b.toList.all fun c ↦ isLetter c && c != '.') = true) : isIdentifier (a ++ b) = true := by
  simp only [isIdentifier, Bool.and_eq_true] at ha ⊢
  refine ⟨?_, ?_⟩
  · cases hlist : a.toList with
    | nil => simp [hlist] at ha
    | cons c cs => simpa [hlist] using ha.1
  · rw [String.toList_append, List.all_append, ha.2, hb]
    rfl

theorem all_of_isIdentifier {name : String} (h : isIdentifier name = true) :
    (name.toList.all fun c ↦ isLetter c && c != '.') = true := by
  simp only [isIdentifier, Bool.and_eq_true] at h
  exact h.2

section

variable {name : String} (h : isPascal name = true ∨ isCamel name = true)

include h

theorem isIdentifier_snake : isIdentifier (snake name) = true := by
  obtain ⟨c, cs, rest, hworded, hc, -, hsnake⟩ := exists_lowerWords h
  exact isIdentifier_of_wordShape (wordShape_of_toList hsnake hworded.isLowerWord hc)

theorem isIdentifier_pluralOf : isIdentifier (pluralOf name) = true := by
  obtain ⟨c, cs, rest, hworded, hc, -, hsnake⟩ := exists_lowerWords h
  exact isIdentifier_of_wordShape (wordShape_pluralize hsnake hworded hc).1

end

theorem isIdentifier_key {name : String} (h : isIdentifier name = true) :
    isIdentifier (name ++ "_id") = true :=
  isIdentifier_append h rfl

/-! ## Types -/

section

variable {dialect : DatabaseKind}

theorem inert_of_reads {code : String} {ps : List Piece} (h : (language dialect).Reads code ps)
    (hps : ps.all isInert = true) : Inert dialect code :=
  ⟨ps, h.spells, List.all_eq_true.mp hps⟩

theorem inert_idType : Inert dialect (idType dialect) := by
  have htext : Inert dialect "TEXT" := inert_word ⟨by decide, List.all_eq_true.mp rfl⟩ rfl
  have hchar : (language dialect).Reads "CHAR(36)" [.word "CHAR", .group '(' [.word "36"]] :=
    fun _ ↦ rfl
  cases dialect with
  | sqlite | postgres => exact htext
  | mysql => exact inert_of_reads hchar rfl

theorem inert_timestampType : Inert dialect (timestampType dialect) := by
  cases dialect <;> exact inert_word ⟨by decide, List.all_eq_true.mp rfl⟩ rfl

/-- The type of a column contains no clause. -/
theorem inert_columnType (a : Attribute) : Inert dialect (columnType dialect a) := by
  have hword {w : String} (hne : w ≠ "") (hletters : w.toList.all isLetter = true)
      (hinert : isInert (.word w) = true) : Inert dialect w :=
    inert_word ⟨hne, List.all_eq_true.mp hletters⟩ hinert
  have hempty : Inert dialect "" := inert_of_reads Language.reads_nil rfl
  have hdouble : (language dialect).Spells "DOUBLE PRECISION"
      ([.word "DOUBLE"] ++ [.word "PRECISION"]) := Language.spells_of_word fun _ ↦ rfl
  have hsized (n : Nat) : Inert dialect s!"VARCHAR({n})" := by
    obtain ⟨ps, hps, -⟩ := (@inert_repr dialect n).1
    have hvarchar : (language dialect).Spells "VARCHAR" [.word "VARCHAR"] :=
      Language.spells_word ⟨by decide, List.all_eq_true.mp rfl⟩
    have hcode : "VARCHAR" ++ ("(" ++ n.repr ++ ")") = s!"VARCHAR({n})" := by
      apply String.toList_inj.mp
      simp [toString]
    rw [← hcode]
    exact ⟨_, hvarchar.append (Language.stopsAt_append (Language.stopsAt_append
      (Language.stopsAt_of_head rfl ⟨rfl, rfl⟩) (by decide) _) (by simp) _)
      (reads_group hps).spells,
      List.forall_mem_cons.mpr ⟨rfl, List.forall_mem_singleton.mpr rfl⟩⟩
  have htext : Inert dialect
      (if dialect = .mysql then s!"VARCHAR({lengthBound a.rules})" else "TEXT") := by
    split
    · exact hsized _
    · exact hword (by decide) rfl rfl
  unfold columnType
  split
  · exact htext
  · exact htext
  · split
    · split <;> exact hword (by decide) rfl rfl
    · split
      · exact hword (by decide) rfl rfl
      · exact ⟨_, hdouble, List.all_eq_true.mp rfl⟩
      · exact hword (by decide) rfl rfl
  · split <;> exact hword (by decide) rfl rfl
  · exact inert_timestampType
  · exact hempty

/-! ## Generated columns -/

theorem readable_generated {c : Column} (hname : isIdentifier c.name = true)
    (htype : Inert dialect c.type)
    (hdefault : c.default = none ∨ c.default = some .currentTimestamp)
    (hvalues : c.values = none) (hreferences : c.references = none) : c.Readable dialect where
  name := hname
  type := htype
  default s hs := by rcases hdefault with h | h <;> cases h.symm.trans hs
  values _ h := by cases hvalues.symm.trans h
  references _ h := by cases hreferences.symm.trans h

theorem readable_idColumn : (idColumn dialect).Readable dialect := by
  have hname : isIdentifier "id" = true := rfl
  exact readable_generated hname inert_idType (.inl rfl) rfl rfl

theorem readable_timestampColumn {name : String} (h : isIdentifier name = true) :
    (timestampColumn dialect name).Readable dialect :=
  readable_generated h inert_timestampType (.inr rfl) rfl rfl

theorem readable_traitColumns {traits : Traits} :
    ∀ c ∈ traitColumns dialect traits, c.Readable dialect := by
  have hdeleted : isIdentifier "deleted_at" = true := rfl
  intro c hc
  simp only [traitColumns, List.mem_append, List.mem_ite_nil_right, List.mem_cons,
    List.not_mem_nil, or_false] at hc
  rcases hc with ⟨-, rfl | rfl⟩ | ⟨-, rfl⟩
  · exact readable_timestampColumn rfl
  · exact readable_timestampColumn rfl
  · exact readable_generated hdeleted inert_timestampType (.inl rfl) rfl rfl

/-- The table of the audit log can be read. -/
theorem readable_auditLog : (auditLog dialect).Readable dialect := by
  have htext : Inert dialect "TEXT" := inert_word ⟨by decide, List.all_eq_true.mp rfl⟩ rfl
  have hname : isIdentifier "audit_log" = true := rfl
  have hrecord : isIdentifier "record_id" = true := rfl
  refine ⟨hname, by simp [auditLog], fun c hc ↦ ?_, fun _ h ↦ nomatch h⟩
  simp only [auditLog, List.mem_cons, List.not_mem_nil, or_false] at hc
  rcases hc with rfl | rfl | rfl | rfl | rfl
  · exact readable_idColumn
  · exact readable_generated rfl htext (.inl rfl) rfl rfl
  · exact readable_generated hrecord inert_idType (.inl rfl) rfl rfl
  · exact readable_generated rfl htext (.inl rfl) rfl rfl
  · exact readable_timestampColumn rfl

end

end Sql

/-! ## Manifests with plain names -/

def Literal.text? : Literal → Option String
  | .text s => some s
  | _ => none

def FieldKind.values : FieldKind → List String
  | .enum values => values
  | _ => []

def Field.texts (f : Field) : List String := f.kind.values ++ (f.default.bind Literal.text?).toList

/-- Whether whatever a manifest has in a schema as it is written can be read again: the names that
it gives where others would be derived, the column of a tenant, and texts. -/
structure Manifest.PlainFor (m : Manifest) (dialect : DatabaseKind) : Prop where
  tables : ∀ e ∈ m.entities, ∀ table ∈ e.table, isIdentifier table = true
  keys : ∀ r ∈ ownedRelations m, ∀ key ∈ r.relation.field, isIdentifier key = true
  junctions : ∀ r ∈ ownedRelations m, ∀ table ∈ r.relation.pivot.bind Pivot.table,
    isIdentifier table = true
  /-- Names of declared entities are checked, but others are not. -/
  targets : ∀ r ∈ ownedRelations m, r.relation.external = true →
    isIdentifier (singularOf r.relation.entity) = true
  tenant : ∀ field ∈ m.tenantField?, isIdentifier (columnOf field) = true
  texts : ∀ f ∈ m.everyField, ∀ s ∈ f.texts, (quoting dialect).Safe s

namespace Manifest

variable {m : Manifest} {dialect : DatabaseKind}

theorem isCamel_of_mem_placedFields {n : Manifest} (h : names n = []) {p : PlacedField}
    (hp : p ∈ n.placedFields) : isCamel p.place.field = true := by
  obtain ⟨e, he, hp⟩ := List.mem_flatMap.mp hp
  obtain ⟨-, hfields, hrelations⟩ := names_eq_nil_iff.mp h e he
  rcases List.mem_append.mp hp with hp | hp
  · obtain ⟨f, hf, rfl⟩ := List.mem_map.mp hp
    exact hfields f.1 (List.mem_map_of_mem hf)
  · obtain ⟨r, hr, hp⟩ := List.mem_flatMap.mp hp
    obtain ⟨f, hf, rfl⟩ := List.mem_map.mp hp
    exact (hrelations r hr).2 f.1 (List.mem_map_of_mem hf)

theorem isIdentifier_tenant (hplain : m.PlainFor dialect)
    (henabled : (Blueprint.ofManifest m).tenant.enabled = true) :
    isIdentifier (Blueprint.ofManifest m).tenant.column = true := by
  have hswitch : (m.tenancy.bind Tenancy.enabled).getD false = true := henabled
  refine hplain.tenant ((m.tenancy.bind Tenancy.field).getD defaultTenantField) ?_
  cases htenancy : m.tenancy with
  | none => simp [htenancy] at hswitch
  | some t =>
      have ht : t.enabled.getD false = true := by simpa [htenancy] using hswitch
      simp [tenantField?, htenancy, ht]

section

variable [Pattern.Checker] (hvalid : m.validate.valid = true) (hplain : m.PlainFor dialect)

include hvalid hplain

theorem isIdentifier_tableName {e : Entity} (he : e ∈ m.entities) :
    isIdentifier e.tableName = true := by
  rw [Entity.tableName]
  cases htable : e.table with
  | none => exact isIdentifier_pluralOf (.inl (isPascal_of_valid hvalid (List.mem_map_of_mem he)))
  | some table => exact hplain.tables e he table htable

theorem isIdentifier_tableOf {entity table : String} (h : m.tableOf? entity = some table) :
    isIdentifier table = true := by
  obtain ⟨e, he, rfl⟩ := Option.map_eq_some_iff.mp h
  exact isIdentifier_tableName hvalid hplain (List.mem_of_find?_eq_some he)

/-- The storage name of the owner of a relation, and of its target. -/
theorem isIdentifier_ends {r : OwnedRelation} (hr : r ∈ ownedRelations m) :
    isIdentifier (singularOf r.owner) = true ∧
      isIdentifier (singularOf r.relation.entity) = true := by
  obtain ⟨e, he, hentry⟩ := List.mem_flatMap.mp hr
  obtain ⟨entry, -, rfl⟩ := List.mem_map.mp hentry
  have hsnake {e : Entity} (he : e ∈ m.entities) : isIdentifier (singularOf e.name) = true :=
    isIdentifier_snake (.inl (isPascal_of_valid hvalid (List.mem_map_of_mem he)))
  refine ⟨hsnake he, ?_⟩
  cases hexternal : entry.2.external with
  | true => exact hplain.targets _ hr hexternal
  | false =>
      obtain ⟨target, htarget, hname⟩ := exists_target_of_valid hvalid hr hexternal
      exact hname ▸ hsnake htarget

/-- The key of a relation with plain names is an identifier. -/
theorem isIdentifier_foreignKey {r : OwnedRelation} (hr : r ∈ ownedRelations m) :
    isIdentifier r.link.foreignKey = true := by
  obtain ⟨howner, htarget⟩ := isIdentifier_ends hvalid hplain hr
  have hname : isIdentifier (snake r.name) = true := by
    obtain ⟨e, he, hentry⟩ := List.mem_flatMap.mp hr
    obtain ⟨entry, hmem, rfl⟩ := List.mem_map.mp hentry
    have hnames := names_eq_nil_iff.mp (m.valid_iff.mp hvalid).1 _ (List.mem_map_of_mem he)
    exact isIdentifier_snake (.inr (hnames.2.2 _ (List.mem_map_of_mem hmem)).1)
  have hrelated : isIdentifier ("related_" ++ keyOf r.owner) = true :=
    isIdentifier_append rfl (all_of_isIdentifier (isIdentifier_key howner))
  change isIdentifier (r.relation.foreignKey r.owner r.name) = true
  rw [Relation.foreignKey]
  cases hfield : r.relation.field with
  | some key => exact hplain.keys r hr key hfield
  | none =>
      rw [Option.getD_none]
      split
      · exact isIdentifier_key hname
      · exact isIdentifier_key howner
      · split
        · exact hrelated
        · exact isIdentifier_key htarget

/-- The junction table of a relation with plain names has an identifier as its name. -/
theorem isIdentifier_junction {r : OwnedRelation} (hr : r ∈ ownedRelations m) :
    isIdentifier r.junction = true := by
  obtain ⟨howner, htarget⟩ := isIdentifier_ends hvalid hplain hr
  have hjoined {left right : String} (hleft : isIdentifier left = true)
      (hright : isIdentifier right = true) : isIdentifier (left ++ "_" ++ right) = true :=
    isIdentifier_append (isIdentifier_append hleft rfl) (all_of_isIdentifier hright)
  rw [OwnedRelation.junction, Relation.junctionName]
  cases htable : r.relation.pivot.bind Pivot.table with
  | some table => exact hplain.junctions r hr table htable
  | none =>
      simp only [Option.getD_none]
      split
      · exact hjoined htarget howner
      · exact hjoined howner htarget

/-- The column of a field with plain texts can be read. -/
theorem readable_attributeColumn {p : PlacedField} (hp : p ∈ m.normalize.placedFields) :
    (attributeColumn dialect (.ofField p.place.field p.field)).Readable dialect := by
  have htexts : ∀ s ∈ p.field.texts, (quoting dialect).Safe s := by
    have hfield := List.mem_map_of_mem (f := PlacedField.field) hp
    rw [map_field_placedFields, everyField_normalize] at hfield
    obtain ⟨f, hf, heq⟩ := List.mem_map.mp hfield
    rw [← heq]
    exact hplain.texts f hf
  refine ⟨isIdentifier_snake (.inr ?_), inert_columnType _, fun s hs ↦ ?_, fun values hs ↦ ?_, ?_⟩
  · exact isCamel_of_mem_placedFields (m.valid_iff.mp hvalid).1 hp
  · refine htexts s (List.mem_append_right _ ?_)
    obtain ⟨value, hvalue, heq⟩ := Option.map_eq_some_iff.mp hs
    cases heq
    rw [show p.field.default = _ from hvalue]
    exact List.mem_singleton_self s
  · intro s hmem
    have hkind : p.field.kind = .enum values := (values_attributeColumn _ _ values).mp hs
    refine htexts s (List.mem_append_left _ ?_)
    rw [hkind]
    exact hmem
  · intro table htable
    cases htable

theorem readable_keyColumn {r : OwnedRelation} (hr : r ∈ ownedRelations m) :
    (r.keyColumn dialect m).Readable dialect where
  name := isIdentifier_foreignKey hvalid hplain hr
  type := inert_idType
  default _ h := nomatch h
  values _ h := nomatch h
  references _ h := isIdentifier_tableOf hvalid hplain h

/-- The table of an entity with plain names can be read. -/
theorem readable_tableFor {e : Entity} (he : e ∈ m.entities) :
    (m.tableFor dialect e).Readable dialect := by
  have hnames := entityNames_nodup_of_valid hvalid
  have hkeys : ∀ r ∈ m.keysOn e.name, (r.keyColumn dialect m).Readable dialect := fun r hr ↦
    readable_keyColumn hvalid hplain
      ((List.mem_append.mp hr).elim List.mem_of_mem_filter List.mem_of_mem_filter)
  have hname : isIdentifier e.tableName = true := isIdentifier_tableName hvalid hplain he
  refine ⟨hname, by simp [tableFor, recordTable, recordColumns], fun c hc ↦ ?_,
    fun _ h ↦ nomatch h⟩
  simp only [tableFor, recordTable, recordColumns, List.mem_append] at hc
  rcases hc with ((((hc | hc) | hc) | hc) | hc) | hc
  · rw [List.mem_singleton.mp hc]
    exact readable_idColumn
  · obtain ⟨henabled, hc⟩ := List.mem_ite_nil_right.mp hc
    rw [List.mem_singleton.mp hc]
    exact readable_generated (isIdentifier_tenant hplain henabled) inert_idType (.inl rfl) rfl rfl
  · obtain ⟨a, ha, rfl⟩ := List.mem_map.mp hc
    obtain ⟨p, hp, rfl⟩ := Blueprint.exists_placed_of_mem_record
      (n := m.normalize) (List.mem_map_of_mem (List.mem_map_of_mem he)) ha
    exact readable_attributeColumn hvalid hplain hp
  · rw [ownKeyColumns_eq hnames he] at hc
    obtain ⟨r, hr, rfl⟩ := List.mem_map.mp hc
    exact hkeys r (List.mem_append_left _ hr)
  · rw [foreignKeyColumns_eq hnames] at hc
    obtain ⟨r, hr, rfl⟩ := List.mem_map.mp hc
    exact hkeys r (List.mem_append_right _ hr)
  · exact readable_traitColumns c hc

/-- A junction table with plain names can be read. -/
theorem readable_junctionTable {j : Junction} (hj : j ∈ (Blueprint.ofManifest m).junctions) :
    (junctionTable dialect (.ofManifest m) j).Readable dialect := by
  have hattributes : ∀ a ∈ j.attributes, (attributeColumn dialect a).Readable dialect := by
    intro a ha
    obtain ⟨p, hp, rfl⟩ := Blueprint.exists_placed_of_mem_junction hj ha
    exact readable_attributeColumn hvalid hplain hp
  -- names and keys come from the first relation that describes the table
  obtain ⟨d, hfirst, rfl⟩ := Junction.mem_ofEntities_iff.mp hj
  have hd := List.mem_of_find?_eq_some hfirst
  rw [descriptions_normalize] at hd
  obtain ⟨r, hr, rfl⟩ := List.mem_map.mp hd
  obtain ⟨hr, -⟩ := mem_manyToMany.mp hr
  have hname : isIdentifier r.described.name = true := by
    rw [OwnedRelation.name_described]
    exact isIdentifier_junction hvalid hplain hr
  have hleft : isIdentifier r.described.leftColumn = true :=
    isIdentifier_key (isIdentifier_ends hvalid hplain hr).1
  have hright : isIdentifier r.described.rightColumn = true :=
    isIdentifier_foreignKey hvalid hplain hr
  have hkey {column entity : String} (hcolumn : isIdentifier column = true) :
      (junctionKey dialect (.ofManifest m) column entity).Readable dialect :=
    ⟨hcolumn, inert_idType, fun _ h ↦ (nomatch h), fun _ h ↦ (nomatch h), fun _ h ↦
      isIdentifier_tableOf hvalid hplain ((tableOf_ofManifest m entity).symm.trans h)⟩
  refine ⟨hname, by simp [junctionTable], fun c hc ↦ ?_, ?_⟩
  · simp only [junctionTable, List.mem_append, List.mem_cons, List.not_mem_nil, or_false] at hc
    rcases hc with (rfl | rfl) | hc
    · exact hkey hleft
    · exact hkey hright
    · obtain ⟨a, ha, rfl⟩ := List.mem_map.mp hc
      exact hattributes a ha
  · exact List.forall_mem_cons.mpr ⟨hleft, List.forall_mem_singleton.mpr hright⟩

/-- Every table of a valid manifest with plain names and texts can be read. -/
theorem readable_of_mem_tables :
    ∀ t ∈ tables dialect (.ofManifest m), t.Readable dialect := by
  intro t ht
  rw [tables, recordTables_eq, List.mem_append, List.mem_append] at ht
  rcases ht with (ht | ht) | ht
  · obtain ⟨e, he, rfl⟩ := List.mem_map.mp ht
    exact readable_tableFor hvalid hplain he
  · obtain ⟨j, hj, rfl⟩ := List.mem_map.mp ht
    exact readable_junctionTable hvalid hplain hj
  · rw [List.mem_singleton.mp (List.mem_ite_nil_right.mp ht).2]
    exact readable_auditLog

end

end Manifest

end Scaffold

import Scaffold.Proofs.Schema.ForeignKeys
import Scaffold.TypeScript.Entity

/-!
# The members of a record's interface

The lints compare columns, and only those of stored fields.  The interface of a record has a member
for every field, and members for keys whose names are the columns in another style.  So no member
for a field repeats one that every record gets, while the members for keys are on their own, and so
is the tenant field among the members that every record gets.
-/

namespace Scaffold

open Lint TypeScript

def Manifest.moduleFor (m : Manifest) (e : Entity) : EntityModule :=
  .ofRecord (Blueprint.ofManifest m).tenant (.ofEntity (e.normalize m.defaults m.source))

namespace Lint

variable {n : Manifest} {e : Entity}

def generatedMembers (n : Manifest) (e : Entity) : List String :=
  ["id"] ++ n.tenantField?.toList ++
    (if e.behaviors.keepsTimestamps then ["createdAt", "updatedAt"] else []) ++
    if e.behaviors.deletesSoftly then ["deletedAt"] else []

def keyMembers (e : Entity) : List String := (ownKeys e).map fun key ↦ Naming.camel key.column

/-- What the lints leave open about the members of a record. -/
structure MembersApart (n : Manifest) (e : Entity) : Prop where
  /-- The tenant field is none of the other members that the record gets. -/
  tenant : ∀ field, n.tenantField? = some field →
    field ≠ "id" ∧
      (e.behaviors.keepsTimestamps = true → field ≠ "createdAt" ∧ field ≠ "updatedAt") ∧
      (e.behaviors.deletesSoftly = true → field ≠ "deletedAt")
  keys : (keyMembers e).Nodup
  keys_generated : ∀ key ∈ keyMembers e, key ∉ generatedMembers n e
  keys_fields : ∀ key ∈ keyMembers e, key ∉ Assoc.keys e.fields

theorem generatedMembers_nodup_iff : (generatedMembers n e).Nodup ↔
    ∀ field, n.tenantField? = some field →
      field ≠ "id" ∧
        (e.behaviors.keepsTimestamps = true → field ≠ "createdAt" ∧ field ≠ "updatedAt") ∧
        (e.behaviors.deletesSoftly = true → field ≠ "deletedAt") := by
  cases htenant : n.tenantField? <;>
    by_cases htimestamps : e.behaviors.keepsTimestamps = true <;>
      by_cases hsoft : e.behaviors.deletesSoftly = true <;>
        simp [generatedMembers, htenant, htimestamps, hsoft, eq_comm, and_assoc]

/-- The generated columns are those of the generated members. -/
theorem columns_generatedMembers (n : Manifest) (e : Entity) :
    (generatedMembers n e).map columnOf = (generatedColumns n e).map ColumnUse.column := by
  have hid : columnOf "id" = "id" := by decide +kernel
  have hcreated : columnOf "createdAt" = "created_at" := by decide +kernel
  have hupdated : columnOf "updatedAt" = "updated_at" := by decide +kernel
  have hdeleted : columnOf "deletedAt" = "deleted_at" := by decide +kernel
  cases htenant : n.tenantField? <;>
    by_cases htimestamps : e.behaviors.keepsTimestamps = true <;>
      by_cases hsoft : e.behaviors.deletesSoftly = true <;>
        simp [generatedMembers, generatedColumns, htenant, htimestamps, hsoft, hid, hcreated,
          hupdated, hdeleted]

/-- Equal names would have equal columns, and those the lints do compare. -/
theorem ColumnsClear.notMem_generatedMembers (h : ColumnsClear n e) {field : String}
    (hfield : field ∈ Assoc.keys e.fields) : field ∉ generatedMembers n e := by
  intro hmember
  have hcolumn : columnOf field ∈ (generatedColumns n e).map ColumnUse.column :=
    columns_generatedMembers n e ▸ List.mem_map_of_mem hmember
  obtain ⟨use, huse, heq⟩ := List.mem_map.mp hcolumn
  exact h.fields field hfield use huse heq

end Lint

/-! ## The members of a record -/

theorem names_tenantMembers (n : Manifest) :
    (tenantMembers (Blueprint.ofNormal n).tenant).map Member.name = n.tenantField?.toList := by
  cases htenancy : n.tenancy with
  | none => simp [tenantMembers, Blueprint.ofNormal, Manifest.tenantField?, htenancy]
  | some t =>
      by_cases henabled : t.enabled.getD false = true <;>
        simp [tenantMembers, Blueprint.ofNormal, Manifest.tenantField?, htenancy, henabled]

theorem names_keyMembers (e : Entity) :
    ((Record.ofEntity e).ownedLinks.map keyMember).map Member.name = keyMembers e := by
  -- the key columns of the table stand for the same links
  have hcolumns := names_ownKeyColumns .sqlite (Blueprint.ofNormal {}) e
  rw [Sql.ownKeyColumns, List.map_map] at hcolumns
  have hcamel := congrArg (List.map Naming.camel) hcolumns
  rw [List.map_map, List.map_map] at hcamel
  rw [List.map_map]
  exact hcamel

/-- The members of a record are generated, fields, or keys. -/
theorem names_recordMembers_perm (n : Manifest) (e : Entity) :
    ((recordMembers (Blueprint.ofNormal n).tenant (Record.ofEntity e)).map Member.name).Perm
      (generatedMembers n e ++ (Assoc.keys e.fields ++ keyMembers e)) := by
  have hattributes : ((Record.ofEntity e).attributes.map attributeMember).map Member.name =
      Assoc.keys e.fields := by
    simp only [Record.ofEntity, Attribute.ofFields, Assoc.keys, List.map_map]
    rfl
  have htraits : (traitMembers (Record.ofEntity e).traits).map Member.name =
      (if e.behaviors.keepsTimestamps then ["createdAt", "updatedAt"] else []) ++
        if e.behaviors.deletesSoftly then ["deletedAt"] else [] := by
    by_cases htimestamps : e.behaviors.keepsTimestamps = true <;>
      by_cases hsoft : e.behaviors.deletesSoftly = true <;>
        simp [traitMembers, Record.ofEntity, htimestamps, hsoft]
  simp only [recordMembers, List.map_append, names_tenantMembers, hattributes, names_keyMembers,
    htraits, generatedMembers, List.append_assoc]
  apply List.Perm.append_left
  apply List.Perm.append_left
  rw [← List.append_assoc]
  refine List.perm_append_comm.trans (.of_eq ?_)
  rw [List.append_assoc]

/-- The members of the interface of a valid manifest's entity are pairwise distinct exactly if what
the lints leave open is in order. -/
theorem Manifest.members_nodup_iff [Pattern.Checker] (m : Manifest)
    (hvalid : m.validate.valid = true) {e : Entity} (he : e ∈ m.entities) :
    ((m.moduleFor e).record.members.map Member.name).Nodup ↔
      MembersApart m.normalize (e.normalize m.defaults m.source) := by
  obtain ⟨-, hduplicates, -, hconfiguration, -⟩ := m.valid_iff.mp hvalid
  set n := e.normalize m.defaults m.source
  have hclear : ColumnsClear m.normalize n :=
    columnsClear hduplicates hconfiguration (List.mem_map_of_mem he)
  have hnames := names_recordMembers_perm m.normalize n
  rw [show (m.moduleFor e).record.members =
    recordMembers (Blueprint.ofNormal m.normalize).tenant (Record.ofEntity n) from rfl,
    hnames.nodup_iff, List.nodup_append, List.nodup_append, generatedMembers_nodup_iff]
  constructor
  · rintro ⟨htenant, ⟨-, hkeys, hapart⟩, hgenerated⟩
    refine ⟨htenant, hkeys, fun key hkey hmem ↦ ?_, fun key hkey hmem ↦ ?_⟩
    · exact hgenerated key hmem key (List.mem_append_right _ hkey) rfl
    · exact hapart key hmem key hkey rfl
  · intro h
    refine ⟨h.tenant, ⟨n.fields.nodup_keys, h.keys, ?_⟩, ?_⟩
    · rintro field hfield _ hkey rfl
      exact h.keys_fields field hkey hfield
    · rintro member hmember _ hother rfl
      rcases List.mem_append.mp hother with hfield | hkey
      · exact hclear.notMem_generatedMembers hfield hmember
      · exact h.keys_generated member hkey hmember

def authored (fields : List (String × Field)) (key : Option String) : Manifest where
  database := some (.sqlite "app.db")
  entities :=
    [{ name := "Post", fields := .ofList (("title", { kind := .text }) :: fields),
       relations := .ofList [("author", { kind := .hasOne, entity := "Author", field := key })] },
      { name := "Author", fields := .ofList [("name", { kind := .text })] }]

def sluggedPosts : Manifest := authored [("slug", { kind := .computed ["title"] "title" })] none

theorem Manifest.members_nodup_iff_sluggedPosts :
    sluggedPosts.validate.valid = true ∧
      ∃ e ∈ sluggedPosts.entities, e.name = "Post" ∧
        ((sluggedPosts.moduleFor e).record.members.map Member.name).Nodup := by
  have hvalid : sluggedPosts.validate.valid = true := by decide +kernel
  refine ⟨hvalid, _, List.mem_cons_self, rfl, ?_⟩
  refine (sluggedPosts.members_nodup_iff hvalid List.mem_cons_self).mpr ?_
  exact ⟨fun _ hfield ↦ (nomatch hfield), by decide +kernel, by decide +kernel, by decide +kernel⟩

/-- Whether the interface of some entity has two members of one name. -/
def Manifest.RepeatsMember (m : Manifest) : Prop :=
  ∃ e ∈ m.entities, ¬ ((m.moduleFor e).record.members.map Member.name).Nodup

instance (m : Manifest) : Decidable m.RepeatsMember :=
  inferInstanceAs (Decidable (∃ e ∈ m.entities, _))

/-- A computed field may be named like a key, a given key like a member that every record gets or,
in another style, like a field, and the tenant field like the identifier. -/
theorem valid_with_repeated_members :
    ((authored [("authorId", { kind := .computed ["title"] "title" })] none).validate.valid = true ∧
      (authored [("authorId", { kind := .computed ["title"] "title" })] none).RepeatsMember) ∧
    ((authored [] (some "createdAt")).validate.valid = true ∧
      (authored [] (some "createdAt")).RepeatsMember) ∧
    ((authored [] (some "Title")).validate.valid = true ∧
      (authored [] (some "Title")).RepeatsMember) ∧
    ({ authored [] none with tenancy := some ⟨some true, some "id"⟩ }.validate.valid = true ∧
      { authored [] none with tenancy := some ⟨some true, some "id"⟩ }.RepeatsMember) := by
  refine ⟨⟨?_, ?_⟩, ⟨?_, ?_⟩, ⟨?_, ?_⟩, ?_, ?_⟩ <;> decide +kernel

end Scaffold

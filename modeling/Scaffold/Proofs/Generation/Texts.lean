import Scaffold.Proofs.Schema.TextLiterals
import Scaffold.Proofs.TypeScript.Members
import Scaffold.Proofs.TypeScript.TextLiterals

/-!
# Texts of a manifest in its output

Texts that a manifest declares end up in literals, those of fields in the schema script and in the
modules of entities, the others in the modules alone.  Each literal is at its place, and whoever
reads it there has the text back exactly if it is safe to write in this way: for a database that
knows escapes if it has no backslash but in front of wildcards, and for a module if it is on one
line.  The lints have no objections to other texts.
-/

namespace Scaffold

open Sql Lint TypeScript

namespace Quoting

variable {q : Quoting} {text part cue s : String}

/-- Where a text is carried, its literal is found in front of some rest, and is read with that as it
is meant exactly if it is safe. -/
theorem Carries.exists_read_iff (h : q.Carries text part cue s) :
    ∃ front rest, text = front ++ q.write s ++ rest ∧
      (q.read (q.write s ++ rest) = some (s, rest) ↔ q.Safe s) := by
  obtain ⟨before, after, front, back, htext, -, heach⟩ := h
  obtain ⟨rest, hpart, hread⟩ := heach [] s [] rfl
  refine ⟨before ++ front ++ cue, rest ++ after, ?_, hread⟩
  rw [htext, hpart]
  simp [String.append_assoc]

end Quoting

/-- Whether a schema script carries the texts of all fields of a manifest: those of entities in the
tables of the entities, and those of pivots in the junction tables of their relations. -/
structure Manifest.SchemaCarries (m : Manifest) (dialect : DatabaseKind) (script : String) :
    Prop where
  entities : ∀ e ∈ m.entities, ∀ f ∈ e.fields.entries,
    CarriesField dialect script (m.tableFor dialect e) f.1 f.2
  pivots : ∀ r ∈ ownedRelations m, ∀ pivot ∈ r.relation.pivot, ∀ f ∈ pivot.fields.entries,
    ∃ t ∈ tables dialect (.ofManifest m), t.name = r.junction ∧
      CarriesField dialect script t f.1 f.2

/-- Whether a module carries the texts of an entity: the values of its fields in both interfaces,
and the address and the paths of its source, which may be that of the manifest. -/
structure Manifest.ModuleCarries (m : Manifest) (e : Entity) (text : String) : Prop where
  record : ∀ f ∈ e.fields.entries, ∀ values, f.2.kind = .enum values →
    TypeScript.quoting.CarriesAll text (unlines (m.moduleFor e).record.lines)
      ("\n  " ++ (attributeMember (.ofField f.1 f.2.normalize)).beforeType) " | " values
  input : ∀ f ∈ e.fields.entries, ∀ values, f.2.kind = .enum values →
    TypeScript.quoting.CarriesAll text (unlines (m.moduleFor e).input.lines)
      ("\n  " ++ (inputMember (.ofField f.1 f.2.normalize)).beforeType) " | " values
  source : ∀ s, (e.source <|> m.source) = some s → ∃ block,
    block = EntityModule.sourceLines (m.moduleFor e).stem (.ofSource (.ofEntity e.name) s) ∧
    TypeScript.quoting.Carries text (unlines block) ("\n  " ++ "baseUrl: ") s.baseUrl ∧
    ∀ op path, s.endpoints.ofOperation op = some path →
      TypeScript.quoting.Carries text (unlines block) ("\n  " ++ ("  " ++ op.name ++ ": ")) path

def Manifest.configBlock (m : Manifest) : List String :=
  (IndexModule.ofBlueprint (.ofManifest m)).configBlock

/-- Whether a module carries the texts among the settings of a manifest. -/
structure Manifest.IndexCarries (m : Manifest) (text : String) : Prop where
  providers : ∀ a ∈ m.auth, TypeScript.quoting.CarriesAll text (unlines m.configBlock)
    ("\n  " ++ s!"auth: \x7b enabled: {flag a.isEnabled}, providers: [") ", " a.providers
  defaultLocale : ∀ l ∈ m.i18n, ∀ s ∈ l.defaultLocale,
    TypeScript.quoting.Carries text (unlines m.configBlock) ("\n  " ++ "defaultLocale: ") s
  locales : ∀ l ∈ m.i18n, l.locales ≠ [] →
    TypeScript.quoting.CarriesAll text (unlines m.configBlock) ("\n  " ++ "locales: [") ", "
      l.locales
  tenantField : ∀ field, m.tenantField? = some field →
    TypeScript.quoting.Carries text (unlines m.configBlock) ("\n  " ++ "tenantField: ") field

namespace Manifest

variable {m : Manifest}

theorem schemaCarries [Pattern.Checker] (hvalid : m.validate.valid = true) (dialect : DatabaseKind)
    (heading : String) :
    m.SchemaCarries dialect (Sql.render dialect heading (tables dialect (.ofManifest m))) where
  entities _ he _ hf := carriesField_of_mem_fields hvalid dialect heading he hf
  pivots _ hr _ hpivot _ hf :=
    exists_carriesField_of_mem_pivot hvalid dialect heading hr hpivot hf

/-- The module of an entity carries the values of its fields and the texts of its source. -/
theorem moduleCarries (m : Manifest) (e : Entity) (heading : String) :
    m.ModuleCarries e ((m.moduleFor e).render heading) where
  record := by
    intro f hf values hvalues
    have hmember : attributeMember (.ofField f.1 f.2.normalize) ∈
        (m.moduleFor e).record.members := by
      refine List.mem_append_left _ (List.mem_append_left _ (List.mem_append_right _ ?_))
      exact List.mem_map_of_mem (List.mem_map.mpr ⟨_, List.mem_map_of_mem hf, rfl⟩)
    refine Interface.carriesAll_values (EntityModule.hasLines_record heading _) hmember ?_
    exact congrArg ValueType.ofKind hvalues
  input := by
    intro f hf values hvalues
    have hstored : f ∈ e.storedFields.entries :=
      List.mem_filter.mpr ⟨hf, by simp [Field.isComputed, hvalues, FieldKind.isComputed]⟩
    have hmember : inputMember (.ofField f.1 f.2.normalize) ∈ (m.moduleFor e).input.members := by
      refine List.mem_map_of_mem ?_
      rw [stored_ofEntity_normalize]
      exact List.mem_map_of_mem hstored
    refine Interface.carriesAll_values (EntityModule.hasLines_input heading _) hmember ?_
    exact congrArg ValueType.ofKind hvalues
  source := by
    intro s hs
    have hremote : (m.moduleFor e).remote = some (.ofSource (.ofEntity e.name) s) :=
      congrArg (Option.map _) hs
    have hlines := EntityModule.hasLines_source heading hremote
    refine ⟨_, rfl, EntityModule.carries_baseUrl hlines, fun op path hpath ↦ ?_⟩
    have hcarries := EntityModule.carries_endpoint hlines op
    have hroute : (Remote.ofSource (.ofEntity e.name) s).routes.ofOperation op = path := by
      cases op <;> simp_all [Remote.ofSource, PerOperation.zipWith, PerOperation.ofOperation]
    rwa [hroute] at hcarries

theorem tenantField_ofManifest (m : Manifest) :
    (IndexModule.ofBlueprint (.ofManifest m)).tenantField = m.tenantField? := by
  cases htenancy : m.tenancy <;>
    simp [IndexModule.ofBlueprint, Blueprint.ofManifest, Blueprint.ofNormal, normalize,
      Tenancy.normalize, tenantField?, htenancy]

/-- The index carries the locales of the manifest. -/
theorem indexCarries (m : Manifest) (heading : String) :
    m.IndexCarries ((IndexModule.ofBlueprint (.ofManifest m)).render heading) := by
  have hlines := IndexModule.hasLines_config heading (.ofBlueprint (.ofManifest m))
  refine ⟨fun a ha ↦ ?_, fun l hl s hs ↦ ?_, fun l hl hne ↦ ?_, fun field hfield ↦ ?_⟩
  · have hsignIn : (IndexModule.ofBlueprint (.ofManifest m)).signIn =
        ⟨a.isEnabled, a.providers⟩ := by
      simp [IndexModule.ofBlueprint, Blueprint.ofManifest, Blueprint.ofNormal, normalize,
        Auth.normalize, authEnabled, Option.mem_def.mp ha, Auth.isEnabled]
    have hcarries := IndexModule.carriesAll_providers hlines
    rwa [hsignIn] at hcarries
  · have hdefault : (IndexModule.ofBlueprint (.ofManifest m)).locales.default = s := by
      simp [IndexModule.ofBlueprint, Blueprint.ofManifest, Blueprint.ofNormal, normalize,
        Localization.normalize, Option.mem_def.mp hl, Option.mem_def.mp hs]
    have hcarries := IndexModule.carries_defaultLocale hlines
    rwa [hdefault] at hcarries
  · have hall : (IndexModule.ofBlueprint (.ofManifest m)).locales.all = l.locales := by
      simp [IndexModule.ofBlueprint, Blueprint.ofManifest, Blueprint.ofNormal, normalize,
        Localization.normalize, Option.mem_def.mp hl, hne]
    have hcarries := IndexModule.carriesAll_locales hlines
    rwa [hall] at hcarries
  · exact IndexModule.carries_tenantField hlines ((tenantField_ofManifest m).trans hfield)

theorem indexFile_mem_files (m : Manifest) :
    Standard.indexFile (.ofManifest m) ∈ Standard.files (.ofManifest m) := by
  simp [Standard.files]

/-- In the output of a valid manifest every text is written at its place, and is read there as it is
meant exactly if it is safe to write in this way. -/
theorem texts_restored_iff [Pattern.Checker] (m : Manifest) (hvalid : m.validate.valid = true) :
    (∀ d, m.database = some d → m.effectiveMode ≠ .apiOnly →
      ∃ script, .generated "schema.sql" script ∈ Standard.files (.ofManifest m) ∧
        m.SchemaCarries d.kind script) ∧
    (∀ e ∈ m.entities, ∃ text,
      .generated s!"api/{singularOf e.name}.ts" text ∈ Standard.files (.ofManifest m) ∧
        m.ModuleCarries e text) ∧
    ∃ text, .generated "api/index.ts" text ∈ Standard.files (.ofManifest m) ∧
      m.IndexCarries text := by
  refine ⟨fun d hdatabase hmode ↦ ?_, fun e he ↦ ?_, ?_⟩
  · exact ⟨_, schema_mem_files hdatabase hmode, schemaCarries hvalid d.kind _⟩
  · exact ⟨_, (mem_files_of_mem_entities he).2, moduleCarries m e _⟩
  · exact ⟨_, indexFile_mem_files m, indexCarries m _⟩

end Manifest

/-- Posts in one of two states in a database that knows escapes, with a share that they start from
and with a locale. -/
def sharedPosts (share locale : String) : Manifest where
  database := some (.mysql "mysql://localhost/app")
  i18n := some ⟨some locale, []⟩
  entities :=
    [{ name := "Post",
       fields := .ofList [("share", { kind := .text, default := some (.text share) }),
         ("state", { kind := .enum ["new", "author's own"] })] }]

theorem Manifest.texts_restored_iff_sharedPosts :
    (sharedPosts "50\\%" "it's").validate.valid = true ∧
    (∃ script, .generated "schema.sql" script ∈
        Standard.files (.ofManifest (sharedPosts "50\\%" "it's")) ∧
      ∃ front rest, script = front ++ "'50\\%'" ++ rest ∧
        (Sql.quoting .mysql).read ("'50\\%'" ++ rest) = some ("50\\%", rest)) ∧
    ∃ text, .generated "api/index.ts" text ∈
        Standard.files (.ofManifest (sharedPosts "50\\%" "it's")) ∧
      ∃ front rest, text = front ++ "'it\\'s'" ++ rest ∧
        TypeScript.quoting.read ("'it\\'s'" ++ rest) = some ("it's", rest) := by
  have hvalid : (sharedPosts "50\\%" "it's").validate.valid = true := by decide +kernel
  obtain ⟨hschema, -, text, htext, hindex⟩ := texts_restored_iff _ hvalid
  obtain ⟨script, hscript, hcarries⟩ := hschema _ rfl (by decide)
  refine ⟨hvalid, ⟨script, hscript, ?_⟩, text, htext, ?_⟩
  · obtain ⟨c, -, -, hdefault⟩ :=
      (hcarries.entities _ List.mem_cons_self _ List.mem_cons_self).default _ rfl
    obtain ⟨front, rest, hfound, hread⟩ := hdefault.exists_read_iff
    exact ⟨front, rest, hfound, hread.mpr fun _ ↦ by simp [SlashesKept]⟩
  · obtain ⟨front, rest, hfound, hread⟩ :=
      (hindex.defaultLocale _ rfl _ rfl).exists_read_iff
    exact ⟨front, rest, hfound, hread.mpr ⟨by decide, by decide⟩⟩

/-- A backslash at the end of a default escapes the closing quote, and the end of a line in a locale
is in the middle of a literal.  The lints object to neither. -/
theorem Manifest.valid_with_unreadable_texts :
    (sharedPosts "50\\" "en\nGB").validate.valid = true ∧
    (∃ script, .generated "schema.sql" script ∈
        Standard.files (.ofManifest (sharedPosts "50\\" "en\nGB")) ∧
      ∃ front rest, script = front ++ "'50\\'" ++ rest ∧
        (Sql.quoting .mysql).read ("'50\\'" ++ rest) ≠ some ("50\\", rest)) ∧
    ∃ text, .generated "api/index.ts" text ∈
        Standard.files (.ofManifest (sharedPosts "50\\" "en\nGB")) ∧
      ∃ front rest, text = front ++ "'en\nGB'" ++ rest ∧
        TypeScript.quoting.read ("'en\nGB'" ++ rest) ≠ some ("en\nGB", rest) := by
  have hvalid : (sharedPosts "50\\" "en\nGB").validate.valid = true := by decide +kernel
  refine ⟨hvalid, ⟨_, schema_mem_files rfl (by decide), ?_⟩, _, indexFile_mem_files _, ?_⟩
  · obtain ⟨c, -, -, hdefault⟩ := ((schemaCarries hvalid .mysql _).entities _ List.mem_cons_self _
      List.mem_cons_self).default _ rfl
    obtain ⟨front, rest, hfound, hread⟩ := hdefault.exists_read_iff
    exact ⟨front, rest, hfound, fun h ↦ by simpa [SlashesKept] using hread.mp h rfl⟩
  · obtain ⟨front, rest, hfound, hread⟩ :=
      ((indexCarries (sharedPosts "50\\" "en\nGB") _).defaultLocale _ rfl _ rfl).exists_read_iff
    exact ⟨front, rest, hfound, fun h ↦ absurd (hread.mp h).1 (by decide)⟩

end Scaffold

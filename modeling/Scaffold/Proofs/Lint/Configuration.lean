import Mathlib.Data.List.TakeWhile
import Scaffold.Proofs.Lint.Reports
import Scaffold.Proofs.Manifest.Normal
import Scaffold.Proofs.Schema.ColumnFindings

/-!
# Settings that pass

The lint for settings looks at a manifest in normal form, where every setting is either there or can
be left out for good.  It finds nothing exactly if the settings fit together, which can be said
without the lint.  The source of the manifest is looked at once: an entity in normal form that has
taken it over is passed by, and so is one that repeats it.
-/

namespace Scaffold

/-! ## Blank texts -/

namespace Text

/-- Nothing is left of a text exactly if all of it is white space. -/
theorem trimChars_eq_nil_iff (cs : List Char) :
    trimChars cs = [] ↔ ∀ c ∈ cs, isBlank c = true := by
  rw [trimChars, List.reverse_eq_nil_iff, List.dropWhile_eq_nil_iff]
  simp only [List.mem_reverse]
  constructor
  · intro h
    cases hdrop : cs.dropWhile isBlank with
    | nil => exact List.dropWhile_eq_nil_iff.mp hdrop
    | cons c rest =>
        have hhead := List.head?_dropWhile_not isBlank cs
        rw [hdrop, List.head?_cons] at hhead
        have hblank := h c (by simp [hdrop])
        simp [hblank] at hhead
  · intro h c hc
    exact h c ((List.dropWhile_sublist isBlank).subset hc)

theorem trim_eq_empty_iff (s : String) : trim s = "" ↔ ∀ c ∈ s.toList, isBlank c = true := by
  rw [← trimChars_eq_nil_iff, trim, ← String.toList_eq_nil_iff, String.toList_ofList]

end Text

/-! ## Sources -/

namespace Source

def HasWebAddress (s : Source) : Prop :=
  "http://".toList <+: (Text.trim s.baseUrl).toList ∨
    "https://".toList <+: (Text.trim s.baseUrl).toList

instance (s : Source) : Decidable s.HasWebAddress := inferInstanceAs (Decidable (_ ∨ _))

def HasRootedPath (s : Source) (op : Operation) : Prop :=
  ∀ endpoint ∈ s.endpoints.ofOperation op, endpoint.toList.head? = some '/'

instance (s : Source) (op : Operation) : Decidable (s.HasRootedPath op) :=
  inferInstanceAs (Decidable (∀ _ ∈ s.endpoints.ofOperation op, _))

structure Usable (s : Source) : Prop where
  address : s.HasWebAddress
  paths : ∀ op, s.HasRootedPath op

def defects (s : Source) : List String :=
  (if s.HasWebAddress then [] else ["baseUrl"]) ++
    (Operation.all.filter fun op ↦ ¬ s.HasRootedPath op).map fun op ↦ "endpoints." ++ op.name

theorem defects_eq_nil_iff (s : Source) : s.defects = [] ↔ s.Usable := by
  simp only [defects, List.append_eq_nil_iff, ite_eq_left_iff, List.cons_ne_nil, imp_false,
    not_not, List.map_eq_nil_iff, List.filter_eq_nil_iff, decide_eq_true_eq]
  constructor
  · rintro ⟨haddress, hpaths⟩
    exact ⟨haddress, fun op ↦ hpaths op (by cases op <;> simp [Operation.all])⟩
  · rintro ⟨haddress, hpaths⟩
    exact ⟨haddress, fun op _ ↦ hpaths op⟩

theorem nodup_defects (s : Source) : s.defects.Nodup := by
  have hall : ("baseUrl" :: Operation.all.map fun op ↦ "endpoints." ++ op.name).Nodup := by decide
  have haddress : (if s.HasWebAddress then [] else ["baseUrl"]).Sublist ["baseUrl"] := by
    split <;> simp
  exact hall.sublist (haddress.append (List.filter_sublist.map _))

end Source

namespace Lint

variable {n : Manifest}

theorem isPrefixOf_iff (pattern text : String) :
    pattern.isPrefixOf text = true ↔ pattern.toList <+: text.toList :=
  String.startsWith_string_iff

theorem slash_isPrefixOf_iff (text : String) :
    "/".isPrefixOf text = true ↔ text.toList.head? = some '/' := by
  rw [isPrefixOf_iff]
  cases text.toList with
  | nil => simp
  | cons c cs => simp [eq_comm]

/-- An address that is not on the web is reported at the source. -/
theorem paths_sourceUrl (owner : SourceOf) (s : Source) :
    (sourceUrl owner s).map Finding.path =
      if s.HasWebAddress then [] else [owner.path ++ ".baseUrl"] := by
  have hscheme : s.HasWebAddress ↔ ("http://".isPrefixOf (Text.trim s.baseUrl) ||
      "https://".isPrefixOf (Text.trim s.baseUrl)) = true := by
    rw [Bool.or_eq_true, isPrefixOf_iff, isPrefixOf_iff]
    rfl
  rw [sourceUrl]
  split
  · rename_i hempty
    have hnone : ¬ s.HasWebAddress := by
      rw [Source.HasWebAddress, String.isEmpty_iff.mp hempty]
      decide
    rw [if_neg hnone]
    rfl
  · by_cases haddress : s.HasWebAddress
    · rw [if_pos haddress, if_pos (hscheme.mp haddress)]
      rfl
    · rw [if_neg haddress, if_neg fun h ↦ haddress (hscheme.mpr h)]
      rfl

theorem hasRootedPath_iff {s : Source} {op : Operation} : s.HasRootedPath op ↔
    ∀ endpoint, s.endpoints.ofOperation op = some endpoint → "/".isPrefixOf endpoint = true := by
  simp only [slash_isPrefixOf_iff]
  rfl

/-- Paths that do not start at the root are reported at their operations. -/
theorem paths_sourceEndpoints (owner : SourceOf) (s : Source) :
    (sourceEndpoints owner s).map Finding.path =
      (Operation.all.filter fun op ↦ ¬ s.HasRootedPath op).map fun op ↦
        owner.path ++ ".endpoints." ++ op.name := by
  rw [sourceEndpoints]
  induction Operation.all with
  | nil => rfl
  | cons op ops ih =>
      cases hpath : s.endpoints.ofOperation op with
      | none =>
          have hrooted : s.HasRootedPath op := by simp [hasRootedPath_iff, hpath]
          rw [List.filterMap_cons_none (by simp [hpath]), ih,
            List.filter_cons_of_neg (by simpa using hrooted)]
      | some endpoint =>
          have hiff : s.HasRootedPath op ↔ "/".isPrefixOf endpoint = true := by
            simp [hasRootedPath_iff, hpath]
          by_cases hrooted : s.HasRootedPath op
          · rw [List.filterMap_cons_none (by simp [hpath, hiff.mp hrooted]), ih,
              List.filter_cons_of_neg (by simpa using hrooted)]
          · have hrelative : "/".isPrefixOf endpoint = false := by simpa [hiff] using hrooted
            rw [List.filterMap_cons_some (b := .endpointRelative owner op endpoint)
              (by simp [hpath, hrelative]), List.map_cons, ih,
              List.filter_cons_of_pos (by simpa using hrooted), List.map_cons]
            rfl

/-- The reports about a source are one for each defect, in order. -/
theorem paths_source (owner : SourceOf) (s : Source) :
    (source owner s).map Finding.path = s.defects.map (owner.path ++ "." ++ ·) := by
  have hbase : owner.path ++ "." ++ "baseUrl" = owner.path ++ ".baseUrl" := by
    rw [String.append_assoc]
    rfl
  have hendpoint (op : Operation) : owner.path ++ "." ++ ("endpoints." ++ op.name) =
      owner.path ++ ".endpoints." ++ op.name :=
    calc
      _ = owner.path ++ ("." ++ "endpoints.") ++ op.name := by simp only [String.append_assoc]
      _ = owner.path ++ ".endpoints." ++ op.name := rfl
  rw [source, List.map_append, paths_sourceUrl, paths_sourceEndpoints, Source.defects,
    List.map_append, List.map_map]
  refine congrArg₂ (· ++ ·) ?_ (List.map_congr_left fun op _ ↦ (hendpoint op).symm)
  split
  · rfl
  · rw [List.map_singleton, hbase]

theorem source_eq_nil_iff {owner : SourceOf} {s : Source} : source owner s = [] ↔ s.Usable := by
  rw [← s.defects_eq_nil_iff, ← List.map_eq_nil_iff (f := Finding.path), paths_source,
    List.map_eq_nil_iff]

theorem entitySource_eq_nil_iff {e : Entity} (hsource : ∀ s ∈ n.source, s.Usable) :
    entitySource n e = [] ↔
      (n.effectiveMode = .apiOnly → e.source.isSome = true) ∧ ∀ s ∈ e.source, s.Usable := by
  rw [entitySource]
  cases hown : e.source with
  | none => simp
  | some s =>
      by_cases hsame : n.source = some s
      · simp [hsame, hsource s hsame]
      · simp [hsame, source_eq_nil_iff]

theorem sources_eq_nil_iff : sources n = [] ↔
    (∀ s ∈ n.source, s.Usable) ∧
      ∀ e ∈ n.entities, (n.effectiveMode = .apiOnly → e.source.isSome = true) ∧
        ∀ s ∈ e.source, s.Usable := by
  have hown : (n.source.map (source .manifest)).getD [] = [] ↔ ∀ s ∈ n.source, s.Usable := by
    cases n.source with
    | none => simp
    | some s => simp [source_eq_nil_iff]
  rw [sources, List.append_eq_nil_iff, hown, List.flatMap_eq_nil_iff]
  exact and_congr_right fun hsource ↦ forall₂_congr fun e _ ↦ entitySource_eq_nil_iff hsource

/-! ## The other settings -/

theorem connection_isSome_iff (d : Database) : d.connection.isSome = true ↔
    ∃ value ∈ d.connectionSetting, ∃ c ∈ value.toList, Text.isBlank c = false := by
  have hblank (value : String) : (Text.trim value != "") = true ↔
      ∃ c ∈ value.toList, Text.isBlank c = false := by
    rw [bne_iff_ne, ne_eq, Text.trim_eq_empty_iff]
    simp
  rw [Database.connection]
  cases d.connectionSetting with
  | none => simp
  | some value => simp [Option.isSome_filter, hblank]

theorem database_eq_nil_iff : database n = [] ↔
    (n.effectiveMode = .full → n.database.isSome = true) ∧
      ∀ d ∈ n.database, d.connection.isSome = true := by
  rw [database]
  cases n.database with
  | none => simp
  | some d => cases hconnection : d.connection <;> simp [hconnection]

theorem isAny_iff (p : Protection) : Protection.isAny p = true ↔ ∃ op, p.ofOperation op = true := by
  rw [Protection.isAny, List.any_eq_true]
  refine exists_congr fun op ↦ and_iff_right ?_
  cases op <;> simp [Operation.all]

theorem unmetProtection_eq_nil_iff : unmetProtection n = [] ↔
    ∀ e ∈ n.entities, ∀ op, e.effectiveProtection.ofOperation op = true →
      n.authEnabled = true := by
  rw [unmetProtection]
  cases hauth : n.authEnabled with
  | true => simp
  | false => simp [List.filter_eq_nil_iff, isAny_iff]

theorem providers_eq_nil_iff : providers n = [] ↔
    ∀ a ∈ n.auth, ∀ provider ∈ a.providers, provider ∈ Auth.supportedProviders := by
  rw [providers, List.map_eq_nil_iff, List.filter_eq_nil_iff]
  cases n.auth with
  | none => simp
  | some a =>
      have hindexed : (∀ p ∈ a.providers.zipIdx, p.1 ∈ Auth.supportedProviders) ↔
          ∀ provider ∈ a.providers, provider ∈ Auth.supportedProviders := by
        rw [← List.forall_mem_map, List.zipIdx_map_fst]
      simpa using hindexed

theorem locale_eq_nil_iff {default : String} {locales : List String}
    (h : n.i18n = some ⟨some default, locales⟩) (hne : locales ≠ []) :
    locale n = [] ↔ default ∈ locales := by
  rw [locale, h]
  simp [hne]

theorem tenancy_eq_nil_iff : tenancy n = [] ↔
    ∀ field ∈ n.tenantField?, ∀ e ∈ n.entities, field ∉ Assoc.keys e.fields := by
  rw [tenancy_eq, List.flatMap_eq_nil_iff]
  simp only [tenantConflicts_eq_nil_iff]
  exact ⟨fun h field hfield e he ↦ h e he field hfield,
    fun h e he field hfield ↦ h field hfield e he⟩

end Lint

/-- Whether the settings of a manifest, and those of its entities, fit together. -/
structure SettingsFit (n : Manifest) : Prop where
  database : n.mode = some .full → n.database.isSome = true
  connection : ∀ d ∈ n.database,
    ∃ value ∈ (if d.kind = .sqlite then d.file else d.url),
      ∃ c ∈ value.toList, Text.isBlank c = false
  protection : ∀ e ∈ n.entities, ∀ p ∈ e.protection, ∀ op, p.ofOperation op = true →
    ∃ a ∈ n.auth, a.enabled = some true
  providers : ∀ a ∈ n.auth, ∀ provider ∈ a.providers, provider ∈ Auth.supportedProviders
  external : n.mode = some .apiOnly → ∀ e ∈ n.entities, e.source.isSome = true
  source : ∀ s ∈ n.source, s.Usable
  sources : ∀ e ∈ n.entities, ∀ s ∈ e.source, s.Usable
  locale : ∃ l ∈ n.i18n, ∃ default ∈ l.defaultLocale, default ∈ l.locales
  tenancy : ∀ t ∈ n.tenancy, t.enabled = some true → ∀ field ∈ t.field,
    ∀ e ∈ n.entities, field ∉ Assoc.keys e.fields

namespace Lint

/-! ## What is explicit in normal form -/

section

variable {n : Manifest} (h : n.IsNormal)

include h

theorem mode_eq_some_iff {mode : Mode} : n.mode = some mode ↔ n.effectiveMode = mode := by
  obtain ⟨mode', hmode⟩ := Option.isSome_iff_exists.mp h.mode
  simp [Manifest.effectiveMode, hmode]

theorem authEnabled_iff : n.authEnabled = true ↔ ∃ a ∈ n.auth, a.enabled = some true := by
  obtain ⟨a, ha, henabled⟩ := h.auth
  obtain ⟨enabled, henabled⟩ := Option.isSome_iff_exists.mp henabled
  simp [Manifest.authEnabled, ha, Auth.isEnabled, henabled]

theorem mem_protection_iff {e : Entity} (he : e ∈ n.entities) {p : Protection} :
    p ∈ e.protection ↔ e.effectiveProtection = p := by
  obtain ⟨p', hp⟩ := Option.isSome_iff_exists.mp (h.entities e he).protection
  simp [Entity.effectiveProtection, hp]

theorem locale_eq_nil_iff_of_isNormal :
    locale n = [] ↔ ∃ l ∈ n.i18n, ∃ default ∈ l.defaultLocale, default ∈ l.locales := by
  obtain ⟨⟨default?, locales⟩, hl, hdefault, hne⟩ := h.i18n
  obtain ⟨default, rfl⟩ := Option.isSome_iff_exists.mp hdefault
  rw [locale_eq_nil_iff hl hne]
  simp [hl]

theorem tenancy_eq_nil_iff_of_isNormal : tenancy n = [] ↔
    ∀ t ∈ n.tenancy, t.enabled = some true → ∀ field ∈ t.field,
      ∀ e ∈ n.entities, field ∉ Assoc.keys e.fields := by
  obtain ⟨⟨enabled?, field?⟩, ht, henabled, hfield⟩ := h.tenancy
  obtain ⟨enabled, rfl⟩ := Option.isSome_iff_exists.mp henabled
  obtain ⟨field, rfl⟩ := Option.isSome_iff_exists.mp hfield
  rw [tenancy_eq_nil_iff, Manifest.tenantField?, ht]
  cases enabled <;> simp

/-- The lint for settings finds nothing exactly if they fit together. -/
theorem configuration_eq_nil_iff : configuration n = [] ↔ SettingsFit n := by
  have hconnection (d : Database) : d.connectionSetting =
      if d.kind = .sqlite then d.file else d.url := by
    rw [Database.connectionSetting]
    cases d.kind <;> rfl
  simp only [configuration, List.append_eq_nil_iff, database_eq_nil_iff, connection_isSome_iff,
    hconnection, unmetProtection_eq_nil_iff, providers_eq_nil_iff, sources_eq_nil_iff,
    locale_eq_nil_iff_of_isNormal h, tenancy_eq_nil_iff_of_isNormal h, authEnabled_iff h,
    ← mode_eq_some_iff h]
  constructor
  · rintro ⟨⟨⟨⟨⟨⟨hstored, hconnected⟩, hprotection⟩, hproviders⟩, hsource, hsources⟩, hlocale⟩,
      htenancy⟩
    refine ⟨hstored, hconnected, fun e he p hp op hop ↦ ?_, hproviders,
      fun hmode e he ↦ (hsources e he).1 hmode, hsource, fun e he ↦ (hsources e he).2, hlocale,
      htenancy⟩
    exact hprotection e he op ((mem_protection_iff h he).mp hp ▸ hop)
  · intro hfit
    refine ⟨⟨⟨⟨⟨⟨hfit.database, hfit.connection⟩, fun e he op hop ↦ ?_⟩, hfit.providers⟩,
      hfit.source, fun e he ↦ ⟨fun hmode ↦ hfit.external hmode e he, hfit.sources e he⟩⟩,
      hfit.locale⟩, hfit.tenancy⟩
    exact hfit.protection e he _ ((mem_protection_iff h he).mpr rfl) op hop

end

/-! ## Reports about sources -/

/-- All findings about a source have one code. -/
theorem code_of_mem_source {owner : SourceOf} {s : Source} {f : Finding}
    (h : f ∈ source owner s) : f.code = .invalidSource := by
  rcases List.mem_append.mp h with hurl | hendpoint
  · simp only [sourceUrl] at hurl
    split at hurl
    · rw [List.mem_singleton.mp hurl]
      rfl
    · rw [(List.mem_ite_nil_left.mp hurl).2 |> List.mem_singleton.mp]
      rfl
  · obtain ⟨op, -, hop⟩ := List.mem_filterMap.mp hendpoint
    obtain ⟨endpoint, -, hpath⟩ := Option.bind_eq_some_iff.mp hop
    split at hpath
    · simp at hpath
    · cases hpath
      rfl

theorem filter_source (owner : SourceOf) (s : Source) :
    (source owner s).filter (·.code = .invalidSource) = source owner s := by
  rw [filter_code fun _ ↦ code_of_mem_source, if_pos rfl]

/-- Apart from the sources, nothing is wrong with a source. -/
theorem code_ne_of_mem_others {n : Manifest} {f : Finding}
    (h : f ∈ database n ++ unmetProtection n ++ providers n ∨ f ∈ locale n ++ tenancy n) :
    f.code ≠ .invalidSource := by
  simp only [List.mem_append, unmetProtection, providers, List.mem_ite_nil_left, List.mem_map] at h
  rcases h with ((hdatabase | ⟨-, e, -, rfl⟩) | ⟨p, -, rfl⟩) | hlocale | htenancy
  · unfold database at hdatabase
    split at hdatabase
    · rw [(List.mem_ite_nil_right.mp hdatabase).2 |> List.mem_singleton.mp]
      simp [Finding.code]
    · rw [(List.mem_ite_nil_right.mp hdatabase).2 |> List.mem_singleton.mp]
      simp [Finding.code]
  · simp [Finding.code]
  · simp [Finding.code]
  · unfold locale at hlocale
    split at hlocale
    · rw [(List.mem_ite_nil_left.mp hlocale).2 |> List.mem_singleton.mp]
      simp [Finding.code]
    · simp at hlocale
  · unfold tenancy at htenancy
    split at htenancy
    · simp at htenancy
    · obtain ⟨e, -, rfl⟩ := List.mem_map.mp htenancy
      simp [Finding.code]

theorem filter_configuration_invalidSource (n : Manifest) :
    (configuration n).filter (·.code = .invalidSource) =
      (sources n).filter (·.code = .invalidSource) := by
  have hnone (found : List Finding) (h : ∀ f ∈ found, f.code ≠ .invalidSource) :
      found.filter (·.code = .invalidSource) = [] :=
    List.filter_eq_nil_iff.mpr fun f hf ↦ by simpa using h f hf
  have hbefore := hnone _ fun _ hf ↦ code_ne_of_mem_others (n := n) (.inl hf)
  have hafter := hnone _ fun _ hf ↦ code_ne_of_mem_others (n := n) (.inr hf)
  rw [configuration, List.append_assoc _ (locale n), List.filter_append, List.filter_append,
    hbefore, hafter, List.nil_append, List.append_nil]

/-- An entity that takes over the source of the manifest, or repeats it, adds no report. -/
theorem filter_entitySource_normalize (m : Manifest) (e : Entity) :
    (entitySource m.normalize (e.normalize m.defaults m.source)).filter
        (·.code = .invalidSource) =
      (e.source.filter fun s ↦ m.source ≠ some s).toList.flatMap (source (.entity e.name)) := by
  have hkept : m.normalize.source = m.source := rfl
  have hsource : (e.normalize m.defaults m.source).source = (e.source <|> m.source) := rfl
  have hname : (e.normalize m.defaults m.source).name = e.name := rfl
  rw [entitySource, hsource, hkept, hname]
  cases hown : e.source with
  | none =>
      cases m.source with
      | none =>
          refine List.filter_eq_nil_iff.mpr fun f hf ↦ ?_
          rw [(List.mem_ite_nil_right.mp hf).2 |> List.mem_singleton.mp]
          simp [Finding.code]
      | some s => simp
  | some s =>
      by_cases hsame : m.source = some s
      · simp [hsame]
      · simp [hsame, filter_source, Option.filter]

theorem filter_configuration_normalize (m : Manifest) :
    (configuration m.normalize).filter (·.code = .invalidSource) =
      m.source.toList.flatMap (source .manifest) ++ m.entities.flatMap fun e ↦
        (e.source.filter fun s ↦ m.source ≠ some s).toList.flatMap (source (.entity e.name)) := by
  have hkept : m.normalize.source = m.source := rfl
  have hentities : m.normalize.entities = m.entities.map (Entity.normalize m.defaults m.source) :=
    rfl
  rw [filter_configuration_invalidSource, sources, List.filter_append, hkept, hentities,
    List.flatMap_map, List.filter_flatMap]
  refine congrArg₂ (· ++ ·) ?_ (List.flatMap_congr fun e _ ↦ filter_entitySource_normalize m e)
  cases m.source with
  | none => rfl
  | some s => simpa using filter_source .manifest s

end Lint

open Lint

/-- The lint for settings reports nothing about a manifest in normal form exactly if its settings
fit together.  A source that is not usable is reported where it is declared, once for each of its
defects; an entity that takes over the source of the manifest adds nothing to that. -/
theorem Manifest.configuration_exact (m : Manifest) :
    (configurationLint.check m.normalize = [] ↔ SettingsFit m.normalize) ∧
      placesOf .invalidSource (configurationLint.check m.normalize) =
        (m.source.toList.flatMap fun s ↦ s.defects.map ("source." ++ ·)) ++
          (m.entities.flatMap fun e ↦
            (e.source.filter fun s ↦ m.source ≠ some s).toList.flatMap fun s ↦
              s.defects.map (e.name ++ ".source." ++ ·)) ∧
      ∀ s : Source, s.defects.Nodup := by
  refine ⟨?_, ?_, Source.nodup_defects⟩
  · rw [← configuration_eq_nil_iff m.isNormal_normalize]
    exact List.map_eq_nil_iff
  · have hentity (e : Entity) : SourceOf.path (.entity e.name) ++ "." = e.name ++ ".source." := by
      rw [SourceOf.path, String.append_assoc]
      rfl
    change placesOf .invalidSource ((configuration m.normalize).map Finding.diagnostic) = _
    rw [placesOf_findings, filter_configuration_normalize, List.map_append, List.map_flatMap,
      List.map_flatMap]
    simp only [List.map_flatMap, paths_source, hentity]
    rfl

end Scaffold

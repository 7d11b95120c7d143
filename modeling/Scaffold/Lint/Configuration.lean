import Scaffold.Diagnosis.Finding
import Scaffold.Manifest.Normal

/-!
# Configuration

The settings of a manifest have to fit together: storage needs a database, protection needs
sign-in, and sources, locales and tenancy have rules of their own.  Some of what is allowed is
probably not meant.
-/

namespace Scaffold.Lint

def database (m : Manifest) : List Finding :=
  match m.database with
  | none => if m.effectiveMode = .full then [.databaseMissing] else []
  | some d => if d.connection.isNone then [.connectionMissing d.kind] else []

/-- Entities that protect operations while nobody can sign in. -/
def unmetProtection (m : Manifest) : List Finding :=
  if m.authEnabled then []
  else
    (m.entities.filter fun e ↦ Protection.isAny e.effectiveProtection).map fun e ↦
      .authMissing e.name

def providers (m : Manifest) : List Finding :=
  (((m.auth.map Auth.providers).getD []).zipIdx.filter fun p ↦
    !Auth.supportedProviders.contains p.1).map fun p ↦ .providerUnknown p.2 p.1

def sourceUrl (owner : SourceOf) (s : Source) : List Finding :=
  let url := Text.trim s.baseUrl
  if url.isEmpty then [.sourceEmpty owner]
  else if "http://".isPrefixOf url || "https://".isPrefixOf url then []
  else [.sourceScheme owner url]

/-- Paths that do not start at the root. -/
def sourceEndpoints (owner : SourceOf) (s : Source) : List Finding :=
  Operation.all.filterMap fun op ↦
    (s.endpoints.ofOperation op).bind fun endpoint ↦
      if "/".isPrefixOf endpoint then none else some (.endpointRelative owner op endpoint)

def source (owner : SourceOf) (s : Source) : List Finding :=
  sourceUrl owner s ++ sourceEndpoints owner s

/-- The source of an entity.  One that the manifest gives is looked at only there. -/
def entitySource (m : Manifest) (e : Entity) : List Finding :=
  match e.source with
  | none => if m.effectiveMode = .apiOnly then [.sourceMissing e.name] else []
  | some s => if m.source = some s then [] else source (.entity e.name) s

def sources (m : Manifest) : List Finding :=
  (m.source.map (source .manifest)).getD [] ++ m.entities.flatMap (entitySource m)

def locale (m : Manifest) : List Finding :=
  match m.i18n with
  | some ⟨some default, locales⟩ =>
      if locales.isEmpty || locales.contains default then [] else [.localeUndeclared default]
  | _ => []

def tenancy (m : Manifest) : List Finding :=
  match m.tenantField? with
  | none => []
  | some field =>
      (m.entities.filter fun e ↦ Assoc.contains e.fields field).map fun e ↦
        .tenantFieldDeclared e.name field

def configuration (m : Manifest) : List Finding :=
  database m ++ unmetProtection m ++ providers m ++ sources m ++ locale m ++ tenancy m

/-- What is allowed and yet probably not meant. -/
def advice (m : Manifest) : List Finding :=
  (if m.entities.isEmpty then [.noEntities] else []) ++
    ((m.entities.filter (·.fields.entries.isEmpty)).map fun e ↦ .entityEmpty e.name) ++
    (if m.auth.any fun a ↦ a.isEnabled && a.providers.isEmpty then [.providersMissing] else []) ++
    if m.effectiveMode = .apiOnly && m.database.isSome then [.databaseUnused] else []

end Scaffold.Lint

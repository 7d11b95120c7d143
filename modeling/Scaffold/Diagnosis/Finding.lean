import Scaffold.Diagnosis.Diagnostic
import Scaffold.Manifest.Entity
import Scaffold.Naming.Style
import Scaffold.Pattern.Problem

/-!
# Findings

A finding is one breach of one rule, with what has to be known to tell about it.  Its code, place,
message and suggestion follow from it.
-/

namespace Scaffold

inductive FieldsOf where
  | entity (name : String)
  | pivot (entity relation : String)
deriving DecidableEq, Repr

def relationPath (entity relation : String) : String := s!"{entity}.relations.{relation}"

def FieldsOf.path : FieldsOf → String
  | .entity name => s!"{name}.fields"
  | .pivot owner relation => relationPath owner relation ++ ".pivot.fields"

structure FieldPlace where
  owner : FieldsOf
  field : String
deriving DecidableEq, Repr

def FieldPlace.path (p : FieldPlace) : String := p.owner.path ++ "." ++ p.field

inductive ColumnOrigin where
  | primaryKey
  | tenancy
  | timestamps
  | softDelete
  | field (name : String)
  /-- A relation of the entity that the table belongs to. -/
  | relation (name : String)
  /-- A relation of an entity that has many of the table's. -/
  | relationOf (owner name : String)
deriving DecidableEq, Repr

namespace ColumnOrigin

def text : ColumnOrigin → String
  | .primaryKey => "the primary key"
  | .tenancy => "tenancy"
  | .timestamps => "the timestamps behavior"
  | .softDelete => "the softDelete behavior"
  | .field name => s!"field '{name}'"
  | .relation name => s!"relation '{name}'"
  | .relationOf owner name => s!"relation '{owner}.{name}'"

def path (entity : String) : ColumnOrigin → String
  | .field name => FieldPlace.path ⟨.entity entity, name⟩
  | .relation name => relationPath entity name
  | .relationOf owner name => relationPath owner name
  | _ => entity

end ColumnOrigin

inductive SourceOf where
  | manifest
  | entity (name : String)
deriving DecidableEq, Repr

def SourceOf.path : SourceOf → String
  | .manifest => "source"
  | .entity name => name ++ ".source"

inductive Finding where
  -- names
  | entityName (index : Nat) (name : String)
  | fieldName (place : FieldPlace)
  | relationName (entity name : String)
  -- repetitions
  | entityRepeated (index : Nat) (name : String)
  | relationNamedAsField (entity name : String)
  | fieldReserved (entity field : String) (owner : ColumnOrigin)
  | columnTwice (entity column : String) (first second : ColumnOrigin)
  | singularTwice (index : Nat) (name singular first : String)
  | tableTwice (entity table first : String)
  | junctionOnTable (entity relation junction owner : String)
  -- relations
  | targetMissing (entity relation target : String) (similar : Option String)
  | pivotMisplaced (entity relation : String) (kind : RelationKind)
  | pivotConflict (place first : FieldPlace) (junction : String)
  -- configuration
  | databaseMissing
  | connectionMissing (kind : DatabaseKind)
  | authMissing (entity : String)
  | providerUnknown (index : Nat) (provider : String)
  | sourceMissing (entity : String)
  | sourceEmpty (owner : SourceOf)
  | sourceScheme (owner : SourceOf) (url : String)
  | endpointRelative (owner : SourceOf) (operation : Operation) (endpoint : String)
  | localeUndeclared (locale : String)
  | tenantFieldDeclared (entity field : String)
  -- fields
  | ruleMisplaced (place : FieldPlace) (index : Nat) (rule : Rule) (kind : FieldKind)
  | patternInvalid (place : FieldPlace) (index : Nat) (pattern : String)
      (problem : Pattern.Problem)
  | boundInvalid (place : FieldPlace) (index : Nat) (rule : Rule) (bound : Double)
      (kind : FieldKind)
  | boundsCrossed (place : FieldPlace) (least most : Double)
  | enumEmpty (place : FieldPlace)
  | enumRepeated (place : FieldPlace) (index : Nat) (value : String)
  | defaultOnComputed (place : FieldPlace)
  | defaultNoValue (place : FieldPlace) (value : String)
  | defaultMistyped (place : FieldPlace) (value : Literal) (kind : FieldKind)
  | sourceFieldMissing (place : FieldPlace) (index : Nat) (source : String)
  | sourceFieldComputed (place : FieldPlace) (index : Nat) (source : String)
  -- advice
  | noEntities
  | entityEmpty (entity : String)
  | providersMissing
  | databaseUnused
deriving DecidableEq, Repr

namespace Finding

def code : Finding → DiagnosticCode
  | .entityName .. => .invalidEntityName
  | .fieldName _ => .invalidFieldName
  | .relationName .. => .invalidRelationName
  | .entityRepeated .. | .singularTwice .. => .duplicateEntity
  | .relationNamedAsField .. | .columnTwice .. => .duplicateField
  | .fieldReserved .. => .reservedFieldName
  | .tableTwice .. | .junctionOnTable .. => .duplicateTable
  | .targetMissing .. => .relationTargetNotFound
  | .pivotMisplaced .. => .invalidPivot
  | .pivotConflict .. => .pivotFieldConflict
  | .databaseMissing => .databaseRequired
  | .connectionMissing _ => .databaseConnectionMissing
  | .authMissing _ => .authRequired
  | .providerUnknown .. => .unsupportedAuthProvider
  | .sourceMissing _ => .sourceRequired
  | .sourceEmpty _ | .sourceScheme .. | .endpointRelative .. => .invalidSource
  | .localeUndeclared _ => .invalidLocale
  | .tenantFieldDeclared .. => .tenantFieldConflict
  | .ruleMisplaced .. => .validationTypeMismatch
  | .patternInvalid .. => .invalidRegex
  | .boundInvalid .. | .boundsCrossed .. => .invalidValidationRange
  | .enumEmpty _ | .enumRepeated .. => .invalidEnum
  | .defaultOnComputed _ | .defaultNoValue .. | .defaultMistyped .. => .invalidDefault
  | .sourceFieldMissing .. | .sourceFieldComputed .. => .computedSourceNotFound
  | .noEntities => .noEntities
  | .entityEmpty _ => .emptyEntity
  | .providersMissing => .authWithoutProviders
  | .databaseUnused => .databaseUnused

def path : Finding → String
  | .entityName index _ => s!"entities[{index}].name"
  | .fieldName place => place.path
  | .relationName entity name => relationPath entity name
  | .entityRepeated index _ | .singularTwice index .. => s!"entities[{index}]"
  | .relationNamedAsField entity name => relationPath entity name
  | .fieldReserved entity field _ => FieldPlace.path ⟨.entity entity, field⟩
  | .columnTwice entity _ _ second => second.path entity
  | .tableTwice entity .. => s!"{entity}.table"
  | .junctionOnTable entity relation .. => relationPath entity relation
  | .targetMissing entity relation .. => relationPath entity relation ++ ".entity"
  | .pivotMisplaced entity relation _ => relationPath entity relation ++ ".pivot"
  | .pivotConflict place .. => place.path
  | .databaseMissing | .databaseUnused => "database"
  | .connectionMissing kind => s!"database.{kind.connectionKey}"
  | .authMissing entity => s!"{entity}.protected"
  | .providerUnknown index _ => s!"auth.providers[{index}]"
  | .sourceMissing entity => SourceOf.path (.entity entity)
  | .sourceEmpty owner | .sourceScheme owner _ => owner.path ++ ".baseUrl"
  | .endpointRelative owner operation _ => owner.path ++ ".endpoints." ++ operation.name
  | .localeUndeclared _ => "i18n.defaultLocale"
  | .tenantFieldDeclared entity field => FieldPlace.path ⟨.entity entity, field⟩
  | .ruleMisplaced place index .. | .patternInvalid place index ..
  | .boundInvalid place index .. => s!"{place.path}.validations[{index}]"
  | .boundsCrossed place .. => place.path ++ ".validations"
  | .enumEmpty place => place.path ++ ".values"
  | .enumRepeated place index _ => s!"{place.path}.values[{index}]"
  | .defaultOnComputed place | .defaultNoValue place _ | .defaultMistyped place .. =>
      place.path ++ ".default"
  | .sourceFieldMissing place index _ | .sourceFieldComputed place index _ =>
      s!"{place.path}.sourceFields[{index}]"
  | .noEntities => "entities"
  | .entityEmpty entity => s!"{entity}.fields"
  | .providersMissing => "auth.providers"

def applicableKinds (rule : Rule) : String :=
  if rule.isTextOnly then "text" else if rule.isNumberOnly then "number" else "text or number"

def message : Finding → String
  | .entityName _ name => s!"entity name '{name}' must be PascalCase"
  | .fieldName place => s!"field name '{place.field}' must be camelCase"
  | .relationName _ name => s!"relation name '{name}' must be camelCase"
  | .entityRepeated _ name => s!"entity '{name}' is declared more than once"
  | .relationNamedAsField entity name =>
      s!"relation '{name}' on '{entity}' has the same name as a field"
  | .fieldReserved entity field owner =>
      s!"field '{field}' on '{entity}' is reserved for {owner.text}"
  | .columnTwice entity column first second =>
      s!"column '{column}' on '{entity}' is defined by both {first.text} and {second.text}"
  | .singularTwice _ name singular first =>
      s!"entity '{name}' has the same snake_case name '{singular}' as '{first}'"
  | .tableTwice entity table first =>
      s!"entity '{entity}' uses table '{table}', already used by '{first}'"
  | .junctionOnTable entity relation junction owner =>
      s!"junction table '{junction}' for '{entity}.{relation}' collides with the table of '{owner}'"
  | .targetMissing entity relation target _ =>
      s!"relation '{relation}' on '{entity}' targets unknown entity '{target}'"
  | .pivotMisplaced entity relation kind =>
      s!"relation '{relation}' on '{entity}' is {kind.name} and cannot declare a pivot"
  | .pivotConflict place first junction =>
      s!"pivot field '{place.field}' on junction table '{junction}' " ++
        s!"differs from the definition at '{first.path}'"
  | .databaseMissing => "mode 'full' requires a database"
  | .connectionMissing kind => s!"database type '{kind.name}' requires '{kind.connectionKey}'"
  | .authMissing entity => s!"entity '{entity}' protects operations but auth is not enabled"
  | .providerUnknown _ provider => s!"auth provider '{provider}' is not supported"
  | .sourceMissing entity =>
      s!"entity '{entity}' has no source and mode 'api-only' has no storage"
  | .sourceEmpty _ => "source base URL is empty"
  | .sourceScheme _ url => s!"source base URL '{url}' must use http or https"
  | .endpointRelative _ _ endpoint => s!"endpoint '{endpoint}' must start with '/'"
  | .localeUndeclared locale => s!"default locale '{locale}' is not among the declared locales"
  | .tenantFieldDeclared entity field =>
      s!"entity '{entity}' declares '{field}', which tenancy manages"
  | .ruleMisplaced _ _ rule kind =>
      s!"'{rule.name}' validation applies to {applicableKinds rule} fields, not {kind.typeName}"
  | .patternInvalid _ _ pattern problem =>
      s!"regex '{pattern}' does not compile: {problem.summary}"
  | .boundInvalid _ _ rule bound kind =>
      let what := if kind = .text then "length" else "value"
      s!"'{rule.name}' of {Layout.plain.write bound} is not a valid {what}"
  | .boundsCrossed _ least most =>
      s!"min {Layout.plain.write least} is greater than max {Layout.plain.write most}"
  | .enumEmpty _ => "enum field declares no values"
  | .enumRepeated _ _ value => s!"enum value '{value}' is declared more than once"
  | .defaultOnComputed _ => "computed fields cannot have a default"
  | .defaultNoValue _ value => s!"default '{value}' is not one of the enum values"
  | .defaultMistyped _ value kind =>
      s!"default {value.code} does not match field type {kind.typeName}"
  | .sourceFieldMissing _ _ source => s!"computed field source '{source}' does not exist"
  | .sourceFieldComputed _ _ source => s!"computed field source '{source}' is itself computed"
  | .noEntities => "manifest declares no entities"
  | .entityEmpty entity => s!"entity '{entity}' declares no fields"
  | .providersMissing => "auth is enabled but declares no providers"
  | .databaseUnused => "mode 'api-only' has no storage, the database is ignored"

/-- The suggestion to take another name, where that one would do. -/
def renaming? (isGood : String → Bool) (name : String) : Option String :=
  if isGood name then some s!"rename to '{name}'" else none

def suggestion? : Finding → Option String
  | .entityName _ name => renaming? Naming.isPascal (Naming.pascal name)
  | .fieldName place => renaming? Naming.isCamel (Naming.camel place.field)
  | .relationName _ name => renaming? Naming.isCamel (Naming.camel name)
  | .relationNamedAsField .. => some "rename the relation or the field"
  | .columnTwice .. =>
      some "set an explicit foreign key with 'field' or rename the field"
  | .singularTwice .. => some "rename one of the entities"
  | .tableTwice .. => some "set a distinct 'table' name"
  | .junctionOnTable .. => some "set a distinct 'pivot.table' name"
  | .targetMissing _ _ _ (some similar) => some s!"did you mean '{similar}'?"
  | .targetMissing _ _ target none =>
      some s!"declare entity '{target}' or mark the relation external"
  | .pivotMisplaced .. => some "remove the pivot or use belongsToMany"
  | .databaseMissing =>
      some "add \"database\": \x7b\"type\": \"sqlite\", \"file\": \"./data.db\"\x7d"
  | .authMissing _ => some "enable auth or set 'protected' to false"
  | .providerUnknown .. => some ("use one of: " ++ ", ".intercalate Auth.supportedProviders)
  | .sourceMissing _ => some "add a 'source' to the entity or the manifest"
  | .localeUndeclared locale => some s!"add '{locale}' to 'i18n.locales'"
  | .tenantFieldDeclared .. => some "remove the field; tenancy adds it to every entity"
  | .ruleMisplaced _ _ rule _ => some s!"remove '{rule.name}' or change the field type"
  | .providersMissing => some "add a provider such as 'credentials'"
  | _ => none

def diagnostic (f : Finding) : Diagnostic := ⟨f.code, f.path, f.message, f.suggestion?⟩

end Finding

end Scaffold

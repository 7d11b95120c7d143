import Scaffold.Json.Value

/-!
# Diagnostics

What is said about a manifest carries a code from a closed list, so that a reader can branch on it
without reading the message.  The code alone decides whether generation is blocked.
-/

namespace Scaffold

open Json

inductive Severity where
  /-- Blocks generation. -/
  | error
  /-- Is reported and blocks nothing. -/
  | warning
deriving DecidableEq, Repr

def Severity.name : Severity → String
  | .error => "error"
  | .warning => "warning"

inductive DiagnosticCode where
  | invalidEntityName
  | duplicateEntity
  | invalidFieldName
  | invalidRelationName
  | duplicateField
  | reservedFieldName
  | duplicateTable
  | relationTargetNotFound
  | invalidPivot
  | pivotFieldConflict
  | databaseRequired
  | databaseConnectionMissing
  | authRequired
  | unsupportedAuthProvider
  | sourceRequired
  | invalidSource
  | invalidLocale
  | tenantFieldConflict
  | validationTypeMismatch
  | invalidValidationRange
  | invalidRegex
  | invalidEnum
  | invalidDefault
  | computedSourceNotFound
  | entityNotFound
  | noEntities
  | emptyEntity
  | authWithoutProviders
  | databaseUnused
deriving DecidableEq, Repr

namespace DiagnosticCode

def all : List DiagnosticCode :=
  [.invalidEntityName, .duplicateEntity, .invalidFieldName, .invalidRelationName, .duplicateField,
    .reservedFieldName, .duplicateTable, .relationTargetNotFound, .invalidPivot,
    .pivotFieldConflict, .databaseRequired, .databaseConnectionMissing, .authRequired,
    .unsupportedAuthProvider, .sourceRequired, .invalidSource, .invalidLocale,
    .tenantFieldConflict, .validationTypeMismatch, .invalidValidationRange, .invalidRegex,
    .invalidEnum, .invalidDefault, .computedSourceNotFound, .entityNotFound, .noEntities,
    .emptyEntity, .authWithoutProviders, .databaseUnused]

def name : DiagnosticCode → String
  | .invalidEntityName => "INVALID_ENTITY_NAME"
  | .duplicateEntity => "DUPLICATE_ENTITY"
  | .invalidFieldName => "INVALID_FIELD_NAME"
  | .invalidRelationName => "INVALID_RELATION_NAME"
  | .duplicateField => "DUPLICATE_FIELD"
  | .reservedFieldName => "RESERVED_FIELD_NAME"
  | .duplicateTable => "DUPLICATE_TABLE"
  | .relationTargetNotFound => "RELATION_TARGET_NOT_FOUND"
  | .invalidPivot => "INVALID_PIVOT"
  | .pivotFieldConflict => "PIVOT_FIELD_CONFLICT"
  | .databaseRequired => "DATABASE_REQUIRED"
  | .databaseConnectionMissing => "DATABASE_CONNECTION_MISSING"
  | .authRequired => "AUTH_REQUIRED"
  | .unsupportedAuthProvider => "UNSUPPORTED_AUTH_PROVIDER"
  | .sourceRequired => "SOURCE_REQUIRED"
  | .invalidSource => "INVALID_SOURCE"
  | .invalidLocale => "INVALID_LOCALE"
  | .tenantFieldConflict => "TENANT_FIELD_CONFLICT"
  | .validationTypeMismatch => "VALIDATION_TYPE_MISMATCH"
  | .invalidValidationRange => "INVALID_VALIDATION_RANGE"
  | .invalidRegex => "INVALID_REGEX"
  | .invalidEnum => "INVALID_ENUM"
  | .invalidDefault => "INVALID_DEFAULT"
  | .computedSourceNotFound => "COMPUTED_SOURCE_NOT_FOUND"
  | .entityNotFound => "ENTITY_NOT_FOUND"
  | .noEntities => "NO_ENTITIES"
  | .emptyEntity => "EMPTY_ENTITY"
  | .authWithoutProviders => "AUTH_WITHOUT_PROVIDERS"
  | .databaseUnused => "DATABASE_UNUSED"

def severity : DiagnosticCode → Severity
  | .noEntities | .emptyEntity | .authWithoutProviders | .databaseUnused => .warning
  | _ => .error

def ofName? (s : String) : Option DiagnosticCode := all.find? (·.name == s)

end DiagnosticCode

structure Diagnostic where
  code : DiagnosticCode
  /-- The place in the manifest, as in `User.relations.posts.entity`. -/
  path : String := ""
  message : String
  suggestion : Option String := none
deriving DecidableEq, Repr

namespace Diagnostic

def severity (d : Diagnostic) : Severity := d.code.severity

def isError (d : Diagnostic) : Bool := d.severity == .error

def display (d : Diagnostic) : String :=
  s!"{d.severity.name}[{d.code.name}]: {d.message}" ++
    if d.path.isEmpty then "" else s!" (at {d.path})"

def toJson (d : Diagnostic) : Value :=
  .object <| [("code", .string d.code.name), ("path", .string d.path),
    ("message", .string d.message)] ++
    match d.suggestion with
    | some s => [("suggestion", .string s)]
    | none => []

end Diagnostic

/-- Diagnostics by severity.  A manifest that could not be looked at is not valid either. -/
structure Validation where
  valid : Bool := false
  errors : List Diagnostic := []
  warnings : List Diagnostic := []
deriving DecidableEq, Repr

namespace Validation

/-- Divides diagnostics by severity and keeps their order.  Without errors, all is valid. -/
def ofDiagnostics (ds : List Diagnostic) : Validation :=
  ⟨!ds.any (·.isError), ds.filter (·.isError), ds.filter (!·.isError)⟩

def hasError (v : Validation) (code : DiagnosticCode) : Bool := v.errors.any (·.code == code)

def toJson (v : Validation) : Value :=
  .object [("valid", .bool v.valid), ("errors", .array (v.errors.map Diagnostic.toJson)),
    ("warnings", .array (v.warnings.map Diagnostic.toJson))]

end Validation

end Scaffold

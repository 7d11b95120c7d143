import Scaffold.Data.Decode
import Scaffold.Manifest.Entity
import Scaffold.Manifest.FieldDraft
import Scaffold.Number.Double

/-!
# Manifests from document trees

The decoders of a manifest and its parts.  One definition serves every reader of documents.
-/

namespace Scaffold

open Data

variable (o : Origin)

/-! ## Rules and literals -/

/-- What a rule needs besides its name. -/
inductive RuleForm where
  | plain (rule : Rule)
  | pattern
  | bound (rule : Double → Rule)

/-- The rules by name, in the order in which messages list them. -/
def ruleForms : List (String × RuleForm) :=
  [("email", .plain .email), ("url", .plain .url), ("regex", .pattern), ("min", .bound .min),
    ("max", .bound .max), ("integer", .plain .integer), ("positive", .plain .positive)]

def ruleLabel : Rule → String
  | .email => "Email"
  | .url => "Url"
  | .regex _ => "Regex"
  | .min _ => "Min"
  | .max _ => "Max"
  | .integer => "Integer"
  | .positive => "Positive"

def ruleForm (t : Tree) : Decoded RuleForm := do
  let name ← variant o (ruleForms.map Prod.fst) t
  return (ruleForms.lookup name).getD .pattern

def ruleValue (form : RuleForm) (t : Tree) : Decoded Rule :=
  match form with
  | .plain rule =>
      match t with
      | .null .. => .ok rule
      | t => mismatchEntered o s!"unit variant Validation::{ruleLabel rule}" t
  | .pattern => .regex <$> text o t
  | .bound rule => rule <$> double o t

/-- How far a rule has been read; its name and its value come in either order. -/
inductive RuleProgress where
  | nothing
  | named (form : RuleForm)
  | valued (value : Tree)
  | complete (rule : Rule)

/-- Looks at a key of a rule; keys other than its two are ignored. -/
def ruleStep (p : RuleProgress) (key : String) : Except ShapeError (Tree → Decoded RuleProgress) :=
  match key, p with
  | "rule", .nothing => .ok fun t ↦ .named <$> ruleForm o t
  | "rule", .valued value => .ok fun t ↦ do
      let form ← ruleForm o t
      match ruleValue o form value with
      | .ok rule => return .complete rule
      | .error failure => .error failure.unplaced
  | "rule", _ => .error (.duplicateField "rule")
  | "value", .nothing => .ok fun t ↦ do
      buffered o t
      return .valued t
  | "value", .named form => .ok fun t ↦ .complete <$> ruleValue o form t
  | "value", _ => .error (.duplicateField "value")
  | _, _ => .ok fun t ↦ do
      ignored t
      return p

/-- A rule all of whose keys have been read. -/
def ruleFinish : RuleProgress → Except ShapeError Rule
  | .complete rule => .ok rule
  | .named (.plain rule) => .ok rule
  | .named _ => .error (.missingField "value")
  | .nothing | .valued _ => .error (.missingField "rule")

def ruleExpected : String := "adjacently tagged enum Validation"

/-- A rule: an object with its name and value, or the list of the two. -/
def decodeRule : Tree → Decoded Rule
  | .object start nesting members => do
      noFault (depthFault? start nesting)
      let p ← walkMembers (ruleStep o) .nothing members
      match ruleFinish p with
      | .ok rule => return rule
      | .error error => failAt members.close error
  | .list start nesting items => do
      noFault (depthFault? start nesting)
      match items with
      | .done ending => do
          noFault ending.strictFault?
          failAt ending.stop (.invalidLength 0 ruleExpected)
      | .more _ _ name rest => do
          let form ← (ruleForm o name).placed rest.stop
          match rest with
          | .done ending => do
              noFault ending.strictFault?
              failAt ending.stop (.invalidLength 1 ruleExpected)
          | .more _ _ value rest => do
              let rule ← (ruleValue o form value).placed rest.stop
              leaveItems o items.length rest
              return rule
  | t => mismatch o ruleExpected t

/-- A literal: a text, a whole number of 64 bits, a number or a flag. -/
def decodeLiteral (t : Tree) : Decoded Literal := do
  buffered o t
  match t with
  | .string _ _ (.ok s) => return .text s
  | .number _ _ (.ok (.integer i)) =>
      if i < twoTo 63 ∧ -(twoTo 63 : Int) ≤ i then return .integer i
      else return .float (Double.ofInt i)
  | .number _ _ (.ok (.float x)) => return .float x
  | .bool _ _ b => return .flag b
  | _ => fail (.noVariant "DefaultValue")

/-! ## Fields and relations -/

def fieldSlots : List (Slot FieldDraft) :=
  [.required "type" (text o) fun d v ↦ { d with type := v },
    .optional "required" (flag o) fun d v ↦ { d with required := v },
    .optional "optional" (flag o) fun d v ↦ { d with optional := v },
    .optional "unique" (flag o) fun d v ↦ { d with unique := v },
    .optional "default" (decodeLiteral o) fun d v ↦ { d with default := v },
    .optional "values" (list o (text o)) fun d v ↦ { d with values := v },
    .optional "sourceFields" (list o (text o)) fun d v ↦ { d with sourceFields := v },
    .optional "expression" (text o) fun d v ↦ { d with expression := v },
    .defaulted "validations" (list o (decodeRule o)) fun d v ↦ { d with rules := v },
    .optional "email" (flag o) fun d v ↦ { d with email := v },
    .optional "url" (flag o) fun d v ↦ { d with url := v },
    .optional "regex" (text o) fun d v ↦ { d with regex := v },
    .optional "min" (double o) fun d v ↦ { d with min := v },
    .optional "max" (double o) fun d v ↦ { d with max := v },
    .optional "integer" (flag o) fun d v ↦ { d with integer := v },
    .optional "positive" (flag o) fun d v ↦ { d with positive := v }]

/-- A field: its draft is read completely before it is settled. -/
def decodeField (t : Tree) : Decoded Field := do
  let draft ← record o "RawField" (fieldSlots o) {} t
  match draft.settle with
  | .ok field => return field
  | .error error => fail (.refused error.message)

def relationKinds : List (String × RelationKind) :=
  [("hasOne", .hasOne), ("hasMany", .hasMany), ("belongsToMany", .belongsToMany)]

def named {α : Type} (table : List (String × α)) (fallback : α) (t : Tree) : Decoded α := do
  let name ← variant o (table.map Prod.fst) t
  return (table.lookup name).getD fallback

def pivotSlots : List (Slot Pivot) :=
  [.optional "table" (text o) fun p v ↦ { p with table := v },
    .defaulted "fields" (uniqueMap o (decodeField o)) fun p v ↦ { p with fields := v }]

def relationSlots : List (Slot Relation) :=
  [.required "type" (named o relationKinds .hasOne) fun r v ↦ { r with kind := v },
    .required "entity" (text o) fun r v ↦ { r with entity := v },
    .optional "field" (text o) fun r v ↦ { r with field := v },
    .optional "pivot" (record o "RawPivot" (pivotSlots o) {}) fun r v ↦ { r with pivot := v },
    .defaulted "external" (flag o) fun r v ↦ { r with external := v }]

def decodeRelation : Tree → Decoded Relation :=
  record o "RawRelation" (relationSlots o) { kind := .hasOne, entity := "" }

/-! ## Settings -/

def databaseKinds : List (String × DatabaseKind) :=
  [("sqlite", .sqlite), ("postgres", .postgres), ("mysql", .mysql)]

def databaseSlots : List (Slot Database) :=
  [.required "type" (named o databaseKinds .sqlite) fun d v ↦ { d with kind := v },
    .omissible "file" (text o) fun d v ↦ { d with file := v },
    .omissible "url" (text o) fun d v ↦ { d with url := v }]

def decodeDatabase : Tree → Decoded Database :=
  record o "DatabaseConfig" (databaseSlots o) { kind := .sqlite }

def authSlots : List (Slot Auth) :=
  [.omissible "enabled" (flag o) fun a v ↦ { a with enabled := v },
    .defaulted "providers" (list o (text o)) fun a v ↦ { a with providers := v }]

def decodeAuth : Tree → Decoded Auth := record o "AuthConfig" (authSlots o) {}

def modes : List (String × Mode) :=
  [("full", .full), ("headless", .headless), ("api-only", .apiOnly)]

def decodeMode : Tree → Decoded Mode := named o modes .full

def localizationSlots : List (Slot Localization) :=
  [.omissible "defaultLocale" (text o) fun l v ↦ { l with defaultLocale := v },
    .defaulted "locales" (list o (text o)) fun l v ↦ { l with locales := v }]

def tenancySlots : List (Slot Tenancy) :=
  [.omissible "enabled" (flag o) fun s v ↦ { s with enabled := v },
    .omissible "field" (text o) fun s v ↦ { s with field := v }]

def observabilitySlots : List (Slot Observability) :=
  [.omissible "logging" (flag o) fun s v ↦ { s with logging := v },
    .omissible "metrics" (flag o) fun s v ↦ { s with metrics := v },
    .omissible "tracing" (flag o) fun s v ↦ { s with tracing := v }]

def endpointSlots : List (Slot Endpoints) :=
  [.omissible "list" (text o) fun e v ↦ { e with list := v },
    .omissible "get" (text o) fun e v ↦ { e with get := v },
    .omissible "create" (text o) fun e v ↦ { e with create := v },
    .omissible "update" (text o) fun e v ↦ { e with update := v },
    .omissible "remove" (text o) fun e v ↦ { e with remove := v }]

def sourceSlots : List (Slot Source) :=
  [.required "baseUrl" (text o) fun s v ↦ { s with baseUrl := v },
    .defaulted "endpoints" (record o "Endpoints" (endpointSlots o) Endpoints.none)
      fun s v ↦ { s with endpoints := v }]

def decodeSource : Tree → Decoded Source :=
  record o "SourceConfig" (sourceSlots o) { baseUrl := "" }

/-! ## Entities -/

def behaviorSlots : List (Slot Behaviors) :=
  [.optional "timestamps" (flag o) fun b v ↦ { b with timestamps := v },
    .optional "softDelete" (flag o) fun b v ↦ { b with softDelete := v },
    .optional "audit" (flag o) fun b v ↦ { b with audit := v }]

def decodeBehaviors : Tree → Decoded Behaviors := record o "RawBehaviors" (behaviorSlots o) {}

def operationSlots : List (Slot Protection) :=
  [.defaulted "list" (flag o) fun p v ↦ { p with list := v },
    .defaulted "get" (flag o) fun p v ↦ { p with get := v },
    .defaulted "create" (flag o) fun p v ↦ { p with create := v },
    .defaulted "update" (flag o) fun p v ↦ { p with update := v },
    .defaulted "remove" (flag o) fun p v ↦ { p with remove := v }]

def protectionExpected : String := "a boolean, \"all\", \"write\", or a map of operation flags"

/-- Protection: a flag for all operations, one of two words, or flags by operation. -/
def decodeProtection (t : Tree) : Decoded Protection :=
  match t with
  | .bool _ _ b => .ok (if b then Protection.all else Protection.none)
  | .string _ stop value => do
      match ← token value with
      | "all" => return Protection.all
      | "write" => return Protection.write
      | _ => failAt stop (.invalidValue (describe o t) protectionExpected)
  | .object start nesting members => do
      noFault (depthFault? start nesting)
      recordMembers (operationSlots o) Protection.none members
  | t => mismatchEntered o protectionExpected t

/-- An entity whose name may still come from elsewhere. -/
structure EntityDraft where
  name : Option String := none
  entity : Entity := { name := "" }

def EntityDraft.modify (d : EntityDraft) (f : Entity → Entity) : EntityDraft :=
  { d with entity := f d.entity }

def entitySlots : List (Slot EntityDraft) :=
  [.optional "name" (text o) fun d v ↦ { d with name := v },
    .optional "table" (text o) fun d v ↦ d.modify fun e ↦ { e with table := v },
    .defaulted "fields" (uniqueMap o (decodeField o))
      fun d v ↦ d.modify fun e ↦ { e with fields := v },
    .defaulted "relations" (uniqueMap o (decodeRelation o))
      fun d v ↦ d.modify fun e ↦ { e with relations := v },
    .optional "behaviors" (decodeBehaviors o)
      fun d v ↦ d.modify fun e ↦ { e with behaviors := v.getD {} },
    .optional "protected" (decodeProtection o)
      fun d v ↦ d.modify fun e ↦ { e with protection := v },
    .optional "source" (decodeSource o) fun d v ↦ d.modify fun e ↦ { e with source := v }]

def decodeEntityDraft : Tree → Decoded EntityDraft := record o "RawEntity" (entitySlots o) {}

def EntityDraft.named (d : EntityDraft) : Except ShapeError Entity :=
  match d.name with
  | some name => .ok { d.entity with name }
  | none => .error (.missingField "name")

def EntityDraft.under (d : EntityDraft) (name : String) : Except ShapeError Entity :=
  match d.name with
  | some declared =>
      if declared = name then .ok { d.entity with name }
      else .error (.refused s!"entity keyed '{name}' declares name '{declared}'")
  | none => .ok { d.entity with name }

/-- A failure without a place in place of a shape error. -/
def settled {α : Type} : Except ShapeError α → Decoded α
  | .ok a => .ok a
  | .error error => fail error

def decodeEntity (t : Tree) : Decoded Entity := do
  settled (← decodeEntityDraft o t).named

/-- Looks at the name of an entity in a map of entities; those read so far come in reverse. -/
def entityStep (read : List Entity) (name : String) :
    Except ShapeError (Tree → Decoded (List Entity)) :=
  if read.any (·.name == name) then .error (.refused s!"duplicate entity '{name}'")
  else .ok fun t ↦ do
    let entity ← settled ((← decodeEntityDraft o t).under name)
    return entity :: read

/-- The entities: a list of entities that name themselves, or a map from names to entities. -/
def decodeEntities : Tree → Decoded (List Entity)
  | .list start nesting items => do
      noFault (depthFault? start nesting)
      let read ← walkItems (fun read t ↦ (· :: read) <$> decodeEntity o t) [] items
      return read.reverse
  | .object start nesting members => do
      noFault (depthFault? start nesting)
      let read ← walkMembers (entityStep o) [] members
      return read.reverse
  | t => mismatchEntered o "an array of entities or a map of entities keyed by name" t

/-! ## The manifest -/

def defaultsSlots : List (Slot Defaults) :=
  [.optional "behaviors" (decodeBehaviors o) fun d v ↦ { d with behaviors := v.getD {} },
    .optional "protected" (decodeProtection o) fun d v ↦ { d with protection := v }]

def manifestSlots : List (Slot Manifest) :=
  [.optional "$schema" ignored fun m _ ↦ m,
    .required "entities" (decodeEntities o) fun m v ↦ { m with entities := v },
    .optional "database" (decodeDatabase o) fun m v ↦ { m with database := v },
    .optional "auth" (decodeAuth o) fun m v ↦ { m with auth := v },
    .optional "mode" (decodeMode o) fun m v ↦ { m with mode := v },
    .optional "i18n" (record o "I18nConfig" (localizationSlots o) {})
      fun m v ↦ { m with i18n := v },
    .optional "tenancy" (record o "TenancyConfig" (tenancySlots o) {})
      fun m v ↦ { m with tenancy := v },
    .optional "observability" (record o "ObservabilityConfig" (observabilitySlots o) {})
      fun m v ↦ { m with observability := v },
    .optional "defaults" (record o "RawDefaults" (defaultsSlots o) {})
      fun m v ↦ { m with defaults := v },
    .optional "source" (decodeSource o) fun m v ↦ { m with source := v },
    .optional "template" (text o) fun m v ↦ { m with template := v }]

def decodeManifest : Tree → Decoded Manifest := record o "RawManifest" (manifestSlots o) {}

end Scaffold

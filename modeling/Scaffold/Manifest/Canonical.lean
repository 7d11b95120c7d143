import Scaffold.Json.Value
import Scaffold.Manifest.Entity

/-!
# The canonical document

Every manifest has one canonical document.  Shorthands are written out, unset slots and empty lists
are left out, and members come in a fixed order.
-/

namespace Scaffold

open Json

def member? {α : Type} (key : String) (value : Option α) (encode : α → Value) :
    List (String × Value) :=
  match value with
  | some a => [(key, encode a)]
  | none => []

def listMember? {α : Type} (key : String) (values : List α) (encode : α → Value) :
    List (String × Value) :=
  if values.isEmpty then [] else [(key, .array (values.map encode))]

def encodeTexts (values : List String) : Value := .array (values.map .string)

def encodeMap {α : Type} (encode : α → Value) (m : Assoc α) : Value :=
  .object (m.map fun e ↦ (e.1, encode e.2))

def mapMember? {α : Type} (key : String) (encode : α → Value) (m : Assoc α) :
    List (String × Value) :=
  if m.entries.isEmpty then [] else [(key, encodeMap encode m)]

/-! ## Fields and relations -/

def FieldKind.members (k : FieldKind) : List (String × Value) :=
  ("type", .string k.typeName) ::
    match k with
    | .enum values => [("values", encodeTexts values)]
    | .computed sources expression =>
        [("sourceFields", encodeTexts sources), ("expression", .string expression)]
    | _ => []

def Rule.toJson (r : Rule) : Value :=
  .object <| ("rule", .string r.name) ::
    match r with
    | .regex pattern => [("value", .string pattern)]
    | .min bound | .max bound => [("value", .float bound)]
    | _ => []

def Literal.toJson : Literal → Value
  | .text s => .string s
  | .integer i => .integer i
  | .float x => .float x
  | .flag b => .bool b

def Field.toJson (f : Field) : Value :=
  .object <| f.kind.members ++ member? "required" f.required .bool ++
    member? "unique" f.unique .bool ++ member? "default" f.default Literal.toJson ++
    listMember? "validations" f.rules Rule.toJson

def Pivot.toJson (p : Pivot) : Value :=
  .object <| member? "table" p.table .string ++ mapMember? "fields" Field.toJson p.fields

def Relation.toJson (r : Relation) : Value :=
  .object <| [("type", .string r.kind.name), ("entity", .string r.entity)] ++
    member? "field" r.field .string ++ member? "pivot" r.pivot Pivot.toJson ++
    if r.external then [("external", .bool true)] else []

/-! ## Settings -/

def Database.toJson (d : Database) : Value :=
  .object <| ("type", .string d.kind.name) :: member? "file" d.file .string ++
    member? "url" d.url .string

def Auth.toJson (a : Auth) : Value :=
  .object <| member? "enabled" a.enabled .bool ++ listMember? "providers" a.providers .string

def Localization.toJson (l : Localization) : Value :=
  .object <| member? "defaultLocale" l.defaultLocale .string ++
    listMember? "locales" l.locales .string

def Tenancy.toJson (t : Tenancy) : Value :=
  .object <| member? "enabled" t.enabled .bool ++ member? "field" t.field .string

def Observability.toJson (o : Observability) : Value :=
  .object <| member? "logging" o.logging .bool ++ member? "metrics" o.metrics .bool ++
    member? "tracing" o.tracing .bool

def Endpoints.toJson (e : Endpoints) : Value :=
  .object <| member? "list" e.list .string ++ member? "get" e.get .string ++
    member? "create" e.create .string ++ member? "update" e.update .string ++
    member? "remove" e.remove .string

def Source.toJson (s : Source) : Value :=
  .object <| ("baseUrl", .string s.baseUrl) ::
    if Endpoints.isEmpty s.endpoints then [] else [("endpoints", Endpoints.toJson s.endpoints)]

/-! ## Entities and the manifest -/

def Behaviors.toJson (b : Behaviors) : Value :=
  .object <| member? "timestamps" b.timestamps .bool ++ member? "softDelete" b.softDelete .bool ++
    member? "audit" b.audit .bool

/-- The switches, left out where none is set. -/
def Behaviors.member? (b : Behaviors) : List (String × Value) :=
  if b.isUnset then [] else [("behaviors", b.toJson)]

def Protection.toJson (p : Protection) : Value :=
  .object [("list", .bool p.list), ("get", .bool p.get), ("create", .bool p.create),
    ("update", .bool p.update), ("remove", .bool p.remove)]

def Entity.toJson (e : Entity) : Value :=
  .object <| ("name", .string e.name) :: member? "table" e.table .string ++
    ("fields", encodeMap Field.toJson e.fields) ::
    mapMember? "relations" Relation.toJson e.relations ++ e.behaviors.member? ++
    member? "protected" e.protection Protection.toJson ++ member? "source" e.source Source.toJson

def Defaults.toJson (d : Defaults) : Value :=
  .object <| d.behaviors.member? ++ member? "protected" d.protection Protection.toJson

def Manifest.toJson (m : Manifest) : Value :=
  .object <| ("entities", .array (m.entities.map Entity.toJson)) ::
    member? "database" m.database Database.toJson ++ member? "auth" m.auth Auth.toJson ++
    member? "mode" m.mode (fun mode ↦ .string mode.name) ++
    member? "i18n" m.i18n Localization.toJson ++ member? "tenancy" m.tenancy Tenancy.toJson ++
    member? "observability" m.observability Observability.toJson ++
    member? "defaults" m.defaults Defaults.toJson ++ member? "source" m.source Source.toJson ++
    member? "template" m.template .string

def Manifest.canonical (m : Manifest) : String := m.toJson.pretty

end Scaffold

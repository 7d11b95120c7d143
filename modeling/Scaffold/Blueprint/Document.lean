import Scaffold.Blueprint.Basic
import Scaffold.Manifest.Canonical

/-!
# The document of a blueprint

Every member is written, with null for what is not there.
-/

namespace Scaffold

open Json

def orNull {α : Type} (encode : α → Value) : Option α → Value
  | some a => encode a
  | none => .null

def Attribute.toJson (a : Attribute) : Value :=
  .object <| [("name", .string a.name), ("column", .string a.column)] ++ a.kind.members ++
    [("required", .bool a.required), ("unique", .bool a.unique),
      ("default", orNull Literal.toJson a.default),
      ("validations", .array (a.rules.map Rule.toJson))]

def Link.toJson (l : Link) : Value :=
  .object [("name", .string l.name), ("kind", .string l.kind.name), ("target", .string l.target),
    ("foreignKey", .string l.foreignKey), ("localKey", orNull .string l.localKey),
    ("junction", orNull .string l.junction), ("external", .bool l.external)]

def Junction.toJson (j : Junction) : Value :=
  .object [("name", .string j.name), ("leftEntity", .string j.leftEntity),
    ("leftColumn", .string j.leftColumn), ("rightEntity", .string j.rightEntity),
    ("rightColumn", .string j.rightColumn),
    ("fields", .array (j.attributes.map Attribute.toJson))]

def Routes.toJson (r : Routes) : Value :=
  .object [("list", .string r.list), ("get", .string r.get), ("create", .string r.create),
    ("update", .string r.update), ("remove", .string r.remove)]

def Remote.toJson (r : Remote) : Value :=
  .object [("baseUrl", .string r.baseUrl), ("endpoints", Routes.toJson r.routes)]

def Traits.toJson (t : Traits) : Value :=
  .object [("timestamps", .bool t.timestamps), ("softDelete", .bool t.softDelete),
    ("audit", .bool t.audit)]

def Record.toJson (r : Record) : Value :=
  .object [("name", .string r.name), ("singular", .string r.singular),
    ("plural", .string r.plural), ("table", .string r.table),
    ("fields", .array (r.attributes.map Attribute.toJson)),
    ("relations", .array (r.links.map Link.toJson)), ("behaviors", r.traits.toJson),
    ("protection", Protection.toJson r.protection), ("endpoints", Routes.toJson r.routes),
    ("source", orNull Remote.toJson r.remote)]

def Blueprint.toJson (b : Blueprint) : Value :=
  .object [("entities", .array (b.records.map Record.toJson)),
    ("junctions", .array (b.junctions.map Junction.toJson)),
    ("database", orNull Database.toJson b.database),
    ("auth", .object [("enabled", .bool b.signIn.enabled),
      ("providers", encodeTexts b.signIn.providers)]),
    ("mode", .string b.mode.name),
    ("i18n", .object [("defaultLocale", .string b.locales.default),
      ("locales", encodeTexts b.locales.all)]),
    ("tenancy", .object [("enabled", .bool b.tenant.enabled), ("field", .string b.tenant.field),
      ("column", .string b.tenant.column)]),
    ("observability", .object [("logging", .bool b.telemetry.logging),
      ("metrics", .bool b.telemetry.metrics), ("tracing", .bool b.telemetry.tracing)]),
    ("template", orNull .string b.template)]

end Scaffold

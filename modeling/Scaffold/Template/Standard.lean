import Scaffold.Blueprint.Document
import Scaffold.Sql.Schema
import Scaffold.Template.Registry
import Scaffold.TypeScript.Client
import Scaffold.TypeScript.Entity
import Scaffold.TypeScript.Hook
import Scaffold.TypeScript.Index

/-!
# The standard template

It makes a schema script where there is storage, the rules and the interface of every entity, a
client where there is one, and hooks that belong to the user.
-/

namespace Scaffold

section

open Json

def Attribute.inputRules (a : Attribute) : Value :=
  .object <| [("type", .string a.kind.typeName), ("required", .bool a.required)] ++
    (if a.unique then [("unique", .bool true)] else []) ++
    (match a.kind with
      | .enum values => [("values", encodeTexts values)]
      | _ => []) ++
    member? "default" a.default Literal.toJson ++ listMember? "rules" a.rules Rule.toJson

def Record.inputRules (r : Record) : Value :=
  .object [("entity", .string r.name),
    ("fields", .object (r.stored.map fun a ↦ (a.name, a.inputRules)))]

end

namespace Standard

def generatedHeading : String := "Generated by loam. Do not edit."

def hookHeading : String := "Scaffolded by loam. This file is yours to edit."

/-- The schema script, where the output has storage and there is a database. -/
def schemaFiles (b : Blueprint) : List GeneratedFile :=
  match b.database with
  | some d =>
      if b.hasStorage then
        [.generated "schema.sql" (Sql.render d.kind generatedHeading (Sql.tables d.kind b))]
      else []
  | none => []

def rulesFile (r : Record) : GeneratedFile :=
  .generated s!"validation/{r.singular}.json" (r.inputRules.pretty ++ "\n")

def entityFile (b : Blueprint) (r : Record) : GeneratedFile :=
  .generated s!"api/{r.singular}.ts"
    ((TypeScript.EntityModule.ofRecord b.tenant r).render generatedHeading)

def indexFile (b : Blueprint) : GeneratedFile :=
  .generated "api/index.ts" ((TypeScript.IndexModule.ofBlueprint b).render generatedHeading)

def clientFiles (b : Blueprint) : List GeneratedFile :=
  if b.hasClient then
    [.generated "client/index.ts" ((TypeScript.ClientModule.ofBlueprint b).render generatedHeading)]
  else []

def hookFile (r : Record) : GeneratedFile :=
  .hook s!"hooks/{r.singular}.ts" ((TypeScript.HookModule.ofRecord r).render hookHeading)

def files (b : Blueprint) : List GeneratedFile :=
  schemaFiles b ++ (b.records.flatMap fun r ↦ [rulesFile r, entityFile b r]) ++
    [indexFile b] ++ clientFiles b ++ b.records.map hookFile

def template : Template := ⟨"basic", .of 0 1 0, fun b ↦ .ok (files b)⟩

def registry : Registry := ⟨[template]⟩

end Standard

end Scaffold

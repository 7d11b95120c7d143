import Scaffold.Json.Value

/-!
# Tools

The calls that a session understands, and their descriptions for a caller that is to choose among
them.
-/

namespace Scaffold

open Json

inductive Tool where
  | addEntity
  | updateEntity
  | removeEntity
  | setDatabase
  | setAuth
  | setMode
  | listEntities
  | getEntity
  | validate
  | generate
deriving DecidableEq, Repr

namespace Tool

def all : List Tool :=
  [.addEntity, .updateEntity, .removeEntity, .setDatabase, .setAuth, .setMode, .listEntities,
    .getEntity, .validate, .generate]

def name : Tool → String
  | .addEntity => "add_entity"
  | .updateEntity => "update_entity"
  | .removeEntity => "remove_entity"
  | .setDatabase => "set_database"
  | .setAuth => "set_auth"
  | .setMode => "set_mode"
  | .listEntities => "list_entities"
  | .getEntity => "get_entity"
  | .validate => "validate"
  | .generate => "generate"

def ofName? (name : String) : Option Tool := all.find? (·.name == name)

/-! ## Descriptions -/

def description : Tool → String
  | .addEntity => "Add a new entity. Fails with DUPLICATE_ENTITY if the name is taken."
  | .updateEntity =>
      "Merge changes into an existing entity. Fields and relations not mentioned are kept."
  | .removeEntity => "Remove an entity by name."
  | .setDatabase => "Replace the database configuration."
  | .setAuth => "Replace the authentication configuration."
  | .setMode => "Choose what the generated application contains."
  | .listEntities => "List entity names in declaration order."
  | .getEntity => "Show an entity as currently declared."
  | .validate => "Validate the manifest and report every error."
  | .generate =>
      "Validate, then generate files into a directory. Nothing is written if validation fails."

def typed (type : String) (more : List (String × Value)) : Value :=
  .object (("type", .string type) :: more)

def described (type description : String) : Value :=
  typed type [("description", .string description)]

def oneOfTexts (values : List String) : Value :=
  typed "string" [("enum", .array (values.map .string))]

def nameSchema : Value := described "string" "Entity name in PascalCase"

def properties : Tool → List (String × Value)
  | .addEntity =>
      [("entity", described "object" ("Entity definition: name, fields, and optional relations, " ++
        "behaviors, protected, source, table"))]
  | .updateEntity =>
      [("name", nameSchema),
        ("patch", described "object" ("fields, removeFields, relations, removeRelations, " ++
          "behaviors, protected, source, table"))]
  | .removeEntity | .getEntity => [("name", nameSchema)]
  | .setDatabase =>
      [("database", typed "object"
        [("properties", .object [("type", oneOfTexts ["sqlite", "postgres", "mysql"]),
            ("file", typed "string" []), ("url", typed "string" [])]),
          ("required", .array [.string "type"])])]
  | .setAuth =>
      [("auth", typed "object"
        [("properties", .object [("enabled", typed "boolean" []),
          ("providers", typed "array" [("items", typed "string" [])])])])]
  | .setMode => [("mode", oneOfTexts ["full", "headless", "api-only"])]
  | .listEntities | .validate => []
  | .generate =>
      [("outputDir", typed "string" []),
        ("dryRun", typed "boolean" [("default", .bool false)])]

/-- The arguments that may not be left out. -/
def required : Tool → List String
  | .addEntity => ["entity"]
  | .updateEntity => ["name", "patch"]
  | .removeEntity | .getEntity => ["name"]
  | .setDatabase => ["database"]
  | .setAuth => ["auth"]
  | .setMode => ["mode"]
  | .listEntities | .validate => []
  | .generate => ["outputDir"]

def definition (t : Tool) : Value :=
  .object [("name", .string t.name), ("description", .string t.description),
    ("parameters", typed "object"
      [("properties", .object t.properties), ("required", .array (t.required.map .string)),
        ("additionalProperties", .bool false)])]

def definitions : Value := .array (all.map definition)

end Tool

end Scaffold

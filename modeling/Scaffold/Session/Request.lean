import Scaffold.Generation.Report
import Scaffold.Manifest.Document
import Scaffold.Session.Tool

/-!
# Requests

A call names a tool and brings arguments.  A request is a call that has been understood.
-/

namespace Scaffold

open Data Json

inductive Request where
  | addEntity (entity : Entity)
  | updateEntity (name : String) (patch : EntityPatch)
  | removeEntity (name : String)
  | setDatabase (database : Database)
  | setAuth (auth : Auth)
  | setMode (mode : Mode)
  | listEntities
  | getEntity (name : String)
  | validate
  | generate (options : GenerateOptions)

/-- Why a call is not understood. -/
inductive RequestError where
  | unknownTool (name : String)
  | badArguments (tool : Tool) (cause : Cause)
  | badEntity (error : DocumentError)
  | badPatch (error : DocumentError)

def RequestError.message : RequestError → String
  | .unknownTool name =>
      s!"unknown tool '{name}', available: " ++ ", ".intercalate (Tool.all.map Tool.name)
  | .badArguments tool cause => s!"invalid arguments for '{tool.name}': {cause.message}"
  | .badEntity error => "entity not added: " ++ error.reasons.chain
  | .badPatch error => "entity not updated: " ++ error.reasons.chain

/-! ## Arguments -/

def anyValue (t : Tree) : Decoded Value := token (Value.ofTree t)

/-- The only argument of a call, which takes the place of the initial value. -/
def single {α : Type} (type key : String) (init : α) (decode : Tree → Decoded α) :
    Tree → Decoded α :=
  record .jsonValue type [.required key decode fun _ v ↦ v] init

def nameArgument : Tree → Decoded String := single "NameArgs" "name" "" (text .jsonValue)

def entityArgument : Tree → Decoded Value := single "AddEntityArgs" "entity" .null anyValue

def databaseArgument : Tree → Decoded Database :=
  single "DatabaseArgs" "database" { kind := .sqlite } (decodeDatabase .jsonValue)

def authArgument : Tree → Decoded Auth := single "AuthArgs" "auth" {} (decodeAuth .jsonValue)

def modeArgument : Tree → Decoded Mode := single "ModeArgs" "mode" .full (decodeMode .jsonValue)

def noArguments : Tree → Decoded Unit := record .jsonValue "NoArgs" [] ()

def updateArguments : Tree → Decoded (String × Value) :=
  record .jsonValue "UpdateEntityArgs"
    [.required "name" (text .jsonValue) fun s v ↦ (v, s.2),
      .required "patch" anyValue fun s v ↦ (s.1, v)] ("", .null)

def generateArguments : Tree → Decoded GenerateOptions :=
  record .jsonValue "GenerateArgs"
    [.required "outputDir" (textAs .jsonValue "path string") fun o v ↦ { o with output := v },
      .defaulted "dryRun" (flag .jsonValue) fun o v ↦ { o with dryRun := v }] { output := "" }

namespace Request

/-- Decodes the arguments of a call; no arguments are as good as none. -/
def arguments {α : Type} (tool : Tool) (decode : Tree → Decoded α) (args : Value) :
    Except RequestError α :=
  let object := match args with
    | .null => Value.object []
    | args => args
  (decode object.toTree).mapError fun failure ↦ .badArguments tool failure.cause

def ofTool (tool : Tool) (args : Value) : Except RequestError Request :=
  match tool with
  | .addEntity => do
      let value ← arguments tool entityArgument args
      return .addEntity (← (Entity.ofValue value).mapError .badEntity)
  | .updateEntity => do
      let (name, value) ← arguments tool updateArguments args
      return .updateEntity name (← (EntityPatch.ofValue value).mapError .badPatch)
  | .removeEntity => .removeEntity <$> arguments tool nameArgument args
  | .setDatabase => .setDatabase <$> arguments tool databaseArgument args
  | .setAuth => .setAuth <$> arguments tool authArgument args
  | .setMode => .setMode <$> arguments tool modeArgument args
  | .listEntities => do
      arguments tool noArguments args
      return .listEntities
  | .getEntity => .getEntity <$> arguments tool nameArgument args
  | .validate => do
      arguments tool noArguments args
      return .validate
  | .generate => .generate <$> arguments tool generateArguments args

def ofCall (name : String) (args : Value) : Except RequestError Request :=
  match Tool.ofName? name with
  | some tool => ofTool tool args
  | none => .error (.unknownTool name)

end Request

end Scaffold

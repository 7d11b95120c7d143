import Scaffold.Text.Basic

/-!
# Settings

The parts of a manifest that hold for the application as a whole, and the external sources that
the manifest or an entity may be read from.
-/

namespace Scaffold

inductive DatabaseKind where
  | sqlite
  | postgres
  | mysql
deriving DecidableEq, Repr

namespace DatabaseKind

def name : DatabaseKind → String
  | .sqlite => "sqlite"
  | .postgres => "postgres"
  | .mysql => "mysql"

def connectionKey : DatabaseKind → String
  | .sqlite => "file"
  | .postgres | .mysql => "url"

end DatabaseKind

structure Database where
  kind : DatabaseKind
  file : Option String := none
  url : Option String := none
deriving DecidableEq, Repr

namespace Database

def sqlite (file : String) : Database := { kind := .sqlite, file := some file }

def postgres (url : String) : Database := { kind := .postgres, url := some url }

def mysql (url : String) : Database := { kind := .mysql, url := some url }

def connectionSetting (d : Database) : Option String :=
  match d.kind with
  | .sqlite => d.file
  | .postgres | .mysql => d.url

/-- The connection setting, unless it is missing or blank. -/
def connection (d : Database) : Option String :=
  d.connectionSetting.filter fun value ↦ Text.trim value != ""

end Database

structure Auth where
  enabled : Option Bool := none
  providers : List String := []
deriving DecidableEq, Repr

namespace Auth

def isEnabled (a : Auth) : Bool := a.enabled.getD false

def withProviders (providers : List String) : Auth := ⟨some true, providers⟩

def supportedProviders : List String :=
  ["credentials", "email", "github", "google", "discord", "apple", "microsoft"]

end Auth

/-- What the generated application contains. -/
inductive Mode where
  /-- Storage, interface and client. -/
  | full
  /-- Storage and interface. -/
  | headless
  /-- The interface alone, over external sources. -/
  | apiOnly
deriving DecidableEq, Repr

def Mode.name : Mode → String
  | .full => "full"
  | .headless => "headless"
  | .apiOnly => "api-only"

structure Localization where
  defaultLocale : Option String := none
  locales : List String := []
deriving DecidableEq, Repr

structure Tenancy where
  enabled : Option Bool := none
  field : Option String := none
deriving DecidableEq, Repr

structure Observability where
  logging : Option Bool := none
  metrics : Option Bool := none
  tracing : Option Bool := none
deriving DecidableEq, Repr

inductive Operation where
  | list
  | get
  | create
  | update
  | remove
deriving DecidableEq, Repr

namespace Operation

def all : List Operation := [.list, .get, .create, .update, .remove]

def name : Operation → String
  | .list => "list"
  | .get => "get"
  | .create => "create"
  | .update => "update"
  | .remove => "remove"

end Operation

structure PerOperation (α : Type) where
  list : α
  get : α
  create : α
  update : α
  remove : α
deriving DecidableEq, Repr

namespace PerOperation

variable {α β : Type}

def const (a : α) : PerOperation α := ⟨a, a, a, a, a⟩

def ofOperation (p : PerOperation α) : Operation → α
  | .list => p.list
  | .get => p.get
  | .create => p.create
  | .update => p.update
  | .remove => p.remove

def map (f : α → β) (p : PerOperation α) : PerOperation β :=
  ⟨f p.list, f p.get, f p.create, f p.update, f p.remove⟩

def zipWith {γ : Type} (f : α → β → γ) (p : PerOperation α) (q : PerOperation β) :
    PerOperation γ :=
  ⟨f p.list q.list, f p.get q.get, f p.create q.create, f p.update q.update, f p.remove q.remove⟩

def toList (p : PerOperation α) : List α := [p.list, p.get, p.create, p.update, p.remove]

end PerOperation

/-- Paths that replace the derived ones. -/
abbrev Endpoints := PerOperation (Option String)

def Endpoints.none : Endpoints := PerOperation.const Option.none

def Endpoints.isEmpty (e : Endpoints) : Bool := e.toList.all (·.isNone)

/-- An external interface that an entity is read from. -/
structure Source where
  baseUrl : String
  endpoints : Endpoints := Endpoints.none
deriving DecidableEq, Repr

end Scaffold

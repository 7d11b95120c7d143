import Scaffold.TypeScript.Type

/-!
# The module of an entity

It exports the record and input types of an entity, its routes, and the paths of its external
source where it has one.
-/

namespace Scaffold.TypeScript

def method : Operation → String
  | .list | .get => "GET"
  | .create => "POST"
  | .update => "PATCH"
  | .remove => "DELETE"

structure Route where
  operation : Operation
  method : String
  path : String
  needsAuth : Bool
deriving DecidableEq, Repr

def Route.render (r : Route) : String :=
  s!"{r.operation.name}: \x7b method: '{r.method}', path: {quoteText r.path}, " ++
    s!"auth: {flag r.needsAuth} \x7d,"

def routes (r : Record) : List Route :=
  Operation.all.map fun op ↦ ⟨op, method op, r.routes.ofOperation op, r.protection.ofOperation op⟩

/-! ## Members -/

/-- The member of a record for an attribute.  Nobody writes a computed one. -/
def attributeMember (a : Attribute) : Member where
  name := a.name
  type := .ofKind a.kind
  isReadonly := !a.isStored
  isNullable := a.isStored && !a.required

/-- The member of an input for an attribute; it may be left out where there is something else to
take. -/
def inputMember (a : Attribute) : Member where
  name := a.name
  type := .ofKind a.kind
  isOptional := !a.required || a.default.isSome
  isNullable := !a.required

def tenantMembers (t : Tenant) : List Member :=
  if t.enabled then [{ name := t.field, type := .string }] else []

def keyMember (l : Link) : Member :=
  { name := Naming.camel l.foreignKey, type := .string, isNullable := true }

def traitMembers (t : Traits) : List Member :=
  (if t.timestamps then
    [{ name := "createdAt", type := .string }, { name := "updatedAt", type := .string }] else []) ++
    if t.softDelete then [{ name := "deletedAt", type := .string, isNullable := true }] else []

def recordMembers (tenant : Tenant) (r : Record) : List Member :=
  [{ name := "id", type := .string }] ++ tenantMembers tenant ++
    r.attributes.map attributeMember ++ r.ownedLinks.map keyMember ++ traitMembers r.traits

/-! ## The module -/

structure EntityModule where
  /-- The interface of a record. -/
  record : Interface
  /-- The interface of the input that makes one. -/
  input : Interface
  /-- The name that the constants of the module start with. -/
  stem : String
  entity : String
  routes : List Route
  remote : Option Remote
deriving DecidableEq, Repr

namespace EntityModule

def ofRecord (tenant : Tenant) (r : Record) : EntityModule where
  record := ⟨r.name, recordMembers tenant r⟩
  input := ⟨createInput r.name, r.stored.map inputMember⟩
  stem := Naming.camel r.singular
  entity := r.name
  routes := TypeScript.routes r
  remote := r.remote

def exportedTypes (m : EntityModule) : List String :=
  [m.record.name, m.input.name, updateInput m.entity]

def writeRemote (code : Code) (stem : String) (r : Remote) : Code :=
  code.blank.block s!"export const {stem}Source = \x7b" "\x7d as const;" fun code ↦
    (code.line s!"baseUrl: {quoteText r.baseUrl},").block "endpoints: \x7b" "\x7d," fun code ↦
      code.each Operation.all fun code op ↦
        code.line s!"{op.name}: {quoteText (r.routes.ofOperation op)},"

def render (heading : String) (m : EntityModule) : String :=
  let code := (({} : Code).comment "//" heading).blank
  let code := (m.input.write (m.record.write code).blank).blank
  let code := code.line s!"export type {updateInput m.entity} = Partial<{m.input.name}>;"
  let code := code.blank.block s!"export const {m.stem}Routes = \x7b" "\x7d as const;" fun code ↦
    code.each (m.routes.map Route.render) Code.line
  match m.remote with
  | some r => (writeRemote code m.stem r).text
  | none => code.text

end EntityModule

end Scaffold.TypeScript

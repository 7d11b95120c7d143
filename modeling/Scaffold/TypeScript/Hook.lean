import Scaffold.TypeScript.Type

/-!
# The module of an entity's hooks

It is a place for the user's own code around writing, and is made only once.
-/

namespace Scaffold.TypeScript

structure HookModule where
  entity : String
  /-- The name that the constant of the module starts with. -/
  stem : String
  types : TypeImport
deriving DecidableEq, Repr

namespace HookModule

def ofRecord (r : Record) : HookModule where
  entity := r.name
  stem := Naming.camel r.singular
  types := entityImport r

def writeIdentity (code : Code) (header : String) : Code :=
  code.block header "\x7d," fun code ↦ code.line "return input;"

def render (heading : String) (m : HookModule) : String :=
  let create := createInput m.entity
  let update := updateInput m.entity
  let code := ((({} : Code).comment "//" heading).blank.line m.types.render).blank
  (code.block s!"export const {m.stem}Hooks = \x7b" "\x7d;" fun code ↦
    let code := writeIdentity code
      s!"async beforeCreate(input: {create}): Promise<{create}> \x7b"
    let code := writeIdentity code
      s!"async beforeUpdate(id: string, input: {update}): Promise<{update}> \x7b"
    code.line s!"async afterWrite(record: {m.entity}): Promise<void> \x7b\x7d,").text

end HookModule

end Scaffold.TypeScript

import Scaffold.TypeScript.Entity

/-!
# The module of the client

It offers a typed call for every route of every entity, over a function that the caller supplies.
-/

namespace Scaffold.TypeScript

structure Call where
  operation : Operation
  entity : String
  method : String
  path : String
deriving DecidableEq, Repr

def insertVariable : List Char → List Char
  | ':' :: 'i' :: 'd' :: rest => '$' :: '\x7b' :: 'i' :: 'd' :: '\x7d' :: insertVariable rest
  | c :: rest => c :: insertVariable rest
  | [] => []

/-- Whether the path names a single instance. -/
def hasVariable : List Char → Bool
  | [] => false
  | c :: rest => [':', 'i', 'd'].isPrefixOf (c :: rest) || hasVariable rest

/-- The path as an expression of `id`. -/
def pathExpression (path : String) : String :=
  if hasVariable path.toList then "`" ++ String.ofList (insertVariable path.toList) ++ "`"
  else "'" ++ path ++ "'"

def Call.render (c : Call) : String :=
  let request := s!"('{c.method}', {pathExpression c.path}"
  match c.operation with
  | .list => s!"list: () => fetcher<{c.entity}[]>" ++ request ++ "),"
  | .get => s!"get: (id: string) => fetcher<{c.entity}>" ++ request ++ "),"
  | .create =>
      s!"create: (input: {createInput c.entity}) => fetcher<{c.entity}>" ++ request ++ ", input),"
  | .update =>
      s!"update: (id: string, input: {updateInput c.entity}) => fetcher<{c.entity}>" ++
        request ++ ", input),"
  | .remove => "remove: (id: string) => fetcher<void>" ++ request ++ "),"

structure CallGroup where
  key : String
  calls : List Call
deriving DecidableEq, Repr

def CallGroup.ofRecord (r : Record) : CallGroup where
  key := Naming.camel r.plural
  calls := Operation.all.map fun op ↦ ⟨op, r.name, method op, r.routes.ofOperation op⟩

def CallGroup.write (code : Code) (g : CallGroup) : Code :=
  code.block s!"{g.key}: \x7b" "\x7d," fun code ↦ code.each (g.calls.map Call.render) Code.line

structure ClientModule where
  imports : List TypeImport
  groups : List CallGroup
deriving DecidableEq, Repr

namespace ClientModule

def ofBlueprint (b : Blueprint) : ClientModule where
  imports := b.records.map entityImport
  groups := b.records.map CallGroup.ofRecord

def render (heading : String) (m : ClientModule) : String :=
  let code := (({} : Code).comment "//" heading).blank
  let code := code.each (m.imports.map TypeImport.render) Code.line
  let code := code.when (!m.imports.isEmpty) Code.blank
  let code := code.line
    "export type Fetcher = <T>(method: string, path: string, body?: unknown) => Promise<T>;"
  (code.blank.block "export function createClient(fetcher: Fetcher) \x7b" "\x7d" fun code ↦
    code.block "return \x7b" "\x7d;" fun code ↦ code.each m.groups CallGroup.write).text

end ClientModule

end Scaffold.TypeScript

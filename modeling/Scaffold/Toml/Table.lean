import Scaffold.Data.Tree

/-!
# Tables of a TOML document

The document is built table by table.  What may still be added to a table depends on how it came to
be, so every table remembers that: by a header, by a longer header, by a dotted key or inline.
-/

namespace Scaffold.Toml

open Data

/-- How a table came to be. -/
inductive TableKind where
  /-- Named by a header of its own, or the root. -/
  | explicit
  /-- Named only as a part of a longer header. -/
  | implied
  /-- Named only as a part of a dotted key. -/
  | dotted
  /-- Written between braces. -/
  | inline
deriving DecidableEq, Repr

/-- A value of a TOML document.  `tables` is a list of tables built by headers. -/
inductive Value where
  | text (value : String)
  | integer (value : Int)
  | float (value : Double)
  | flag (value : Bool)
  | moment (written : String)
  | array (items : List Value)
  | table (kind : TableKind) (entries : List (String × Value))
  | tables (items : List (List (String × Value)))

abbrev Entries := List (String × Value)

structure Table where
  kind : TableKind
  entries : Entries

def Table.empty (kind : TableKind) : Table := ⟨kind, []⟩

def replaceEntry (entries : Entries) (key : String) (value : Value) : Entries :=
  entries.map fun e ↦ if e.1 = key then (e.1, value) else e

/-- Changes the table at the end of a path.  Tables on the way that do not exist are made, by a
header or by a dotted key.  The way may lead through the last table of a list of tables, but not
through any other value, and a dotted key may not lead through a table that has a header. -/
def descend (dotted : Bool) (change : Table → Option Table) : List String → Table → Option Table
  | [], t => change t
  | key :: path, t =>
      match t.entries.lookup key with
      | none => do
          let child ← descend dotted change path (.empty (if dotted then .dotted else .implied))
          return { t with entries := t.entries ++ [(key, .table child.kind child.entries)] }
      | some (.table kind entries) =>
          if kind = .inline ∨ (dotted ∧ kind = .explicit) then none
          else do
            let child ← descend dotted change path ⟨kind, entries⟩
            let entries := replaceEntry t.entries key (.table child.kind child.entries)
            return { t with entries }
      | some (.tables items) =>
          if dotted then none
          else match items.getLast? with
            | none => none
            | some last => do
                let child ← descend dotted change path ⟨.explicit, last⟩
                let items := items.dropLast ++ [child.entries]
                return { t with entries := replaceEntry t.entries key (.tables items) }
      | some _ => none

def addEntry (key : String) (value : Value) (t : Table) : Option Table :=
  match t.entries.lookup key with
  | some _ => none
  | none => some { t with entries := t.entries ++ [(key, value)] }

def Table.assign (t : Table) (path : List String) (key : String) (value : Value) : Option Table :=
  let isDotted := !path.isEmpty
  let add (parent : Table) : Option Table :=
    if (parent.kind == .dotted) == isDotted then addEntry key value parent else none
  descend isDotted add path t

/-! ## Trees -/

/-- The key under which a date or time is kept where a map is expected. -/
def momentKey : String := "$__toml_private_datetime"

mutual

def Value.toTree : Value → Tree
  | .text s => .string default default (.ok s)
  | .integer i => .number default default (.ok (.integer i))
  | .float x => .number default default (.ok (.float x))
  | .flag b => .bool default default b
  | .moment written =>
      .object default 0
        (.more default ⟨.ok momentKey, default, default⟩ (.string default default (.ok written))
          (.done (.closed default)))
  | .array items => .list default 0 (itemsTree items)
  | .table _ entries => .object default 0 (entriesTree entries)
  | .tables items => .list default 0 (tablesTree items)

def itemsTree : List Value → Items
  | [] => .done (.closed default)
  | v :: vs => .more default ⟨.trailingCharacters, default⟩ v.toTree (itemsTree vs)

def entriesTree : List (String × Value) → Members
  | [] => .done (.closed default)
  | (k, v) :: rest => .more default ⟨.ok k, default, default⟩ v.toTree (entriesTree rest)

def tablesTree : List (List (String × Value)) → Items
  | [] => .done (.closed default)
  | entries :: rest =>
      .more default ⟨.trailingCharacters, default⟩ (.object default 0 (entriesTree entries))
        (tablesTree rest)

end

end Scaffold.Toml

import Scaffold.Artifact.Code
import Scaffold.Blueprint.Basic

/-!
# Tables

A schema script is a list of tables, and a table is a list of columns.  How types and values are
written depends on the kind of database.
-/

namespace Scaffold.Sql

/-! ## Types and values -/

/-- The type of `id` and of every column that refers to one. -/
def idType : DatabaseKind → String
  | .sqlite | .postgres => "TEXT"
  | .mysql => "CHAR(36)"

def timestampType : DatabaseKind → String
  | .sqlite => "TEXT"
  | .postgres => "TIMESTAMPTZ"
  | .mysql => "DATETIME"

/-- The length that the first upper bound asks for. -/
def lengthBound (rules : List Rule) : Nat :=
  (rules.findSome? fun
    | .max bound => some bound.toWord32
    | _ => none).getD 255

/-- The type of the column of an attribute.  A computed one has none. -/
def columnType (dialect : DatabaseKind) (a : Attribute) : String :=
  match a.kind with
  | .text | .enum _ =>
      if dialect = .mysql then s!"VARCHAR({lengthBound a.rules})" else "TEXT"
  | .number =>
      if a.rules.contains .integer then
        if dialect = .mysql then "INT" else "INTEGER"
      else
        match dialect with
        | .sqlite => "REAL"
        | .postgres => "DOUBLE PRECISION"
        | .mysql => "DOUBLE"
  | .boolean => if dialect = .sqlite then "INTEGER" else "BOOLEAN"
  | .date => timestampType dialect
  | .computed .. => ""

/-- A quote inside a text is written twice. -/
def escapeText : List Char → List Char
  | [] => []
  | c :: cs => if c = '\x27' then '\x27' :: '\x27' :: escapeText cs else c :: escapeText cs

def quoteText (s : String) : String := String.ofList ('\x27' :: escapeText s.toList ++ ['\x27'])

def literal (dialect : DatabaseKind) : Literal → String
  | .text s => quoteText s
  | .integer i => toString i
  | .float x => Layout.plain.write x
  | .flag b =>
      if dialect = .sqlite then (if b then "1" else "0") else if b then "TRUE" else "FALSE"

/-! ## Columns -/

/-- The value that a column takes where none is given. -/
inductive DefaultClause where
  | literal (value : Literal)
  | currentTimestamp
deriving DecidableEq, Repr

structure Column where
  name : String
  type : String
  isPrimaryKey : Bool := false
  isNotNull : Bool := false
  isUnique : Bool := false
  default : Option DefaultClause := none
  /-- The only values that the column may hold. -/
  values : Option (List String) := none
  /-- The table whose `id` the column refers to. -/
  references : Option String := none
deriving DecidableEq, Repr

namespace Column

def clauses (dialect : DatabaseKind) (c : Column) : List String :=
  (if c.isPrimaryKey then [" PRIMARY KEY"] else []) ++
    (if c.isNotNull then [" NOT NULL"] else []) ++
    (if c.isUnique then [" UNIQUE"] else []) ++
    (match c.default with
      | some (.literal value) => [" DEFAULT " ++ literal dialect value]
      | some .currentTimestamp => [" DEFAULT CURRENT_TIMESTAMP"]
      | none => []) ++
    (match c.values with
      | some values =>
          [s!" CHECK ({c.name} IN (" ++ ", ".intercalate (values.map quoteText) ++ "))"]
      | none => []) ++
    match c.references with
      | some table => [s!" REFERENCES {table} (id)"]
      | none => []

def render (dialect : DatabaseKind) (c : Column) : String :=
  c.name ++ " " ++ c.type ++ String.join (c.clauses dialect)

end Column

/-! ## Tables and scripts -/

structure Table where
  name : String
  columns : List Column
  /-- The columns of a primary key that is declared after the columns. -/
  primaryKey : List String := []
deriving DecidableEq, Repr

namespace Table

def lines (dialect : DatabaseKind) (t : Table) : List String :=
  t.columns.map (Column.render dialect) ++
    if t.primaryKey.isEmpty then []
    else ["PRIMARY KEY (" ++ ", ".intercalate t.primaryKey ++ ")"]

/-- Puts a comma behind every line but the last. -/
def commaSeparated : List String → List String
  | [] => []
  | [line] => [line]
  | line :: rest => (line ++ ",") :: commaSeparated rest

def write (dialect : DatabaseKind) (code : Code) (t : Table) : Code :=
  code.block s!"CREATE TABLE {t.name} (" ");" fun code ↦
    code.each (commaSeparated (t.lines dialect)) Code.line

end Table

/-- The text of a script: a heading, and the tables with a blank line before each. -/
def render (dialect : DatabaseKind) (heading : String) (tables : List Table) : String :=
  ((({} : Code).comment "--" heading).each tables fun code t ↦ t.write dialect code.blank).text

end Scaffold.Sql

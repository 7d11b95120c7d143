import Scaffold.Artifact.Code
import Scaffold.Blueprint.Basic

/-!
# TypeScript types and literals
-/

namespace Scaffold.TypeScript

def escapeText : List Char → List Char
  | [] => []
  | c :: cs =>
      if c = '\\' || c = '\x27' then '\\' :: c :: escapeText cs else c :: escapeText cs

def quoteText (s : String) : String := String.ofList ('\x27' :: escapeText s.toList ++ ['\x27'])

def quoteTexts (texts : List String) : String := ", ".intercalate (texts.map quoteText)

def flag (b : Bool) : String := if b then "true" else "false"

inductive ValueType where
  | string
  | number
  | boolean
  | unknown
  /-- One of some texts. -/
  | oneOf (values : List String)
deriving DecidableEq, Repr

namespace ValueType

def ofKind : FieldKind → ValueType
  | .text | .date => .string
  | .number => .number
  | .boolean => .boolean
  | .enum values => .oneOf values
  | .computed .. => .unknown

def render : ValueType → String
  | .string => "string"
  | .number => "number"
  | .boolean => "boolean"
  | .unknown => "unknown"
  | .oneOf values => " | ".intercalate (values.map quoteText)

end ValueType

structure Member where
  name : String
  type : ValueType
  isReadonly : Bool := false
  isOptional : Bool := false
  isNullable : Bool := false
deriving DecidableEq, Repr

def Member.render (m : Member) : String :=
  (if m.isReadonly then "readonly " else "") ++ m.name ++ (if m.isOptional then "?" else "") ++
    ": " ++ m.type.render ++ (if m.isNullable then " | null" else "") ++ ";"

structure Interface where
  name : String
  members : List Member
deriving DecidableEq, Repr

def Interface.write (code : Code) (i : Interface) : Code :=
  code.block s!"export interface {i.name} \x7b" "\x7d" fun code ↦
    code.each (i.members.map Member.render) Code.line

structure TypeImport where
  names : List String
  module : String
deriving DecidableEq, Repr

def TypeImport.render (i : TypeImport) : String :=
  "import type \x7b " ++ ", ".intercalate i.names ++ " \x7d from '" ++ i.module ++ "';"

/-- The names of the types that belong to an entity. -/
def createInput (entity : String) : String := s!"Create{entity}Input"

def updateInput (entity : String) : String := s!"Update{entity}Input"

/-- The import of an entity's types by a module in a sister directory. -/
def entityImport (r : Record) : TypeImport :=
  ⟨[r.name, createInput r.name, updateInput r.name], "../api/" ++ r.singular⟩

end Scaffold.TypeScript

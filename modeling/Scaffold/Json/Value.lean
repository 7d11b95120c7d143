import Scaffold.Data.Tree
import Scaffold.Number.Layout

/-!
# JSON values

A value without places.  Objects keep the order of their members.
-/

namespace Scaffold.Json

open Data

inductive Value where
  | null
  | bool (value : Bool)
  | integer (value : Int)
  | float (value : Double)
  | string (value : String)
  | array (items : List Value)
  | object (members : List (String × Value))

instance : Inhabited Value := ⟨.null⟩

namespace Value

def get? (v : Value) (key : String) : Option Value :=
  match v with
  | .object members => members.lookup key
  | _ => none

/-- Puts a member into an object: a new one at the end, a repeated one in the place of the first. -/
def insert (members : List (String × Value)) (key : String) (value : Value) :
    List (String × Value) :=
  match members with
  | [] => [(key, value)]
  | (k, v) :: rest => if k = key then (k, value) :: rest else (k, v) :: insert rest key value

/-! ## Values and trees -/

mutual

/-- The value of a tree: the first fault of the text in document order, if there is one. -/
def ofTree : Tree → Except Fault Value
  | .null .. => .ok .null
  | .bool _ _ b => .ok (.bool b)
  | .number _ _ value => do
      match ← value with
      | .integer i => .ok (.integer i)
      | .float x => .ok (.float x)
  | .string _ _ value => return .string (← value)
  | .list start nesting items =>
      match depthFault? start nesting with
      | some fault => .error fault
      | none => return .array (← ofItems items)
  | .object start nesting members =>
      match depthFault? start nesting with
      | some fault => .error fault
      | none => return .object (← ofMembers [] members)
  | .broken _ _ strict _ => .error strict

def ofItems : Items → Except Fault (List Value)
  | .done ending =>
      match ending.strictFault? with
      | some fault => .error fault
      | none => .ok []
  | .more _ _ value rest => do
      let v ← ofTree value
      let vs ← ofItems rest
      return v :: vs

def ofMembers : List (String × Value) → Members → Except Fault (List (String × Value))
  | read, .done ending =>
      match ending.strictFault? with
      | some fault => .error fault
      | none => .ok read
  | read, .more _ key value rest => do
      let k ← key.text
      let v ← ofTree value
      ofMembers (insert read k v) rest

end

mutual

/-- A value as a tree, all of whose places are the same. -/
def toTree : Value → Tree
  | .null => .null default default
  | .bool b => .bool default default b
  | .integer i => .number default default (.ok (.integer i))
  | .float x => .number default default (.ok (.float x))
  | .string s => .string default default (.ok s)
  | .array items => .list default 0 (toItems items)
  | .object members => .object default 0 (toMembers members)

def toItems : List Value → Items
  | [] => .done (.closed default)
  | v :: vs => .more default ⟨.trailingCharacters, default⟩ (toTree v) (toItems vs)

def toMembers : List (String × Value) → Members
  | [] => .done (.closed default)
  | (k, v) :: rest => .more default ⟨.ok k, default, default⟩ (toTree v) (toMembers rest)

end

/-! ## Written values -/

def hexDigit (n : Nat) : Char := "0123456789abcdef".toList.getD n '0'

def escape (c : Char) : List Char :=
  if c = '"' then ['\\', '"']
  else if c = '\\' then ['\\', '\\']
  else if c = '\x08' then ['\\', 'b']
  else if c = '\x0c' then ['\\', 'f']
  else if c = '\n' then ['\\', 'n']
  else if c = '\r' then ['\\', 'r']
  else if c = '\t' then ['\\', 't']
  else if c.toNat < 0x20 then
    ['\\', 'u', '0', '0', hexDigit (c.toNat / 16), hexDigit (c.toNat % 16)]
  else [c]

def writeString (s : String) : String :=
  String.ofList ('"' :: s.toList.flatMap escape ++ ['"'])

def writeInt (i : Int) : String :=
  let digits := Decimal.digitsOf i.natAbs
  String.ofList (if i < 0 then '-' :: digits else digits)

mutual

/-- The text of a value without any white space. -/
def compact : Value → String
  | .null => "null"
  | .bool b => if b then "true" else "false"
  | .integer i => writeInt i
  | .float x => Layout.document.write x
  | .string s => writeString s
  | .array items => "[" ++ String.intercalate "," (compactItems items) ++ "]"
  | .object members => "\x7b" ++ String.intercalate "," (compactMembers members) ++ "\x7d"

def compactItems : List Value → List String
  | [] => []
  | v :: vs => compact v :: compactItems vs

def compactMembers : List (String × Value) → List String
  | [] => []
  | (k, v) :: rest => (writeString k ++ ":" ++ compact v) :: compactMembers rest

end

def newline (depth : Nat) : String := "\n" ++ String.ofList (List.replicate (2 * depth) ' ')

/-- Lines between two brackets; nothing between them if there are none. -/
def bracketed (opening closing : String) (depth : Nat) : List String → String
  | [] => opening ++ closing
  | lines =>
      opening ++ newline (depth + 1) ++ String.intercalate ("," ++ newline (depth + 1)) lines ++
        newline depth ++ closing

mutual

/-- The text of a value with one item or member to a line, indented by two for each level. -/
def prettyAt : Nat → Value → String
  | depth, .array items => bracketed "[" "]" depth (prettyItems (depth + 1) items)
  | depth, .object members => bracketed "\x7b" "\x7d" depth (prettyMembers (depth + 1) members)
  | _, .null => "null"
  | _, .bool b => if b then "true" else "false"
  | _, .integer i => writeInt i
  | _, .float x => Layout.document.write x
  | _, .string s => writeString s

def prettyItems : Nat → List Value → List String
  | _, [] => []
  | depth, v :: vs => prettyAt depth v :: prettyItems depth vs

def prettyMembers : Nat → List (String × Value) → List String
  | _, [] => []
  | depth, (k, v) :: rest =>
      (writeString k ++ ": " ++ prettyAt depth v) :: prettyMembers depth rest

end

def pretty (v : Value) : String := prettyAt 0 v

end Value

end Scaffold.Json

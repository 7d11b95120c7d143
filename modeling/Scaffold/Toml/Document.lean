import Scaffold.Toml.Scalar

/-!
# TOML documents

A document is a sequence of lines that assign to keys or open tables.  `parse` gives its root
table, or nothing if the text is malformed or defines something twice.  A reader gives what it
found and what is left of the text.
-/

namespace Scaffold.Toml

/-! ## White space and comments -/

def isGap (c : Char) : Bool := c = ' ' || c = '\t'

def skipGap (cs : List Char) : List Char := cs.dropWhile isGap

/-- Characters that may not stand in a comment or string. -/
def isForbidden (c : Char) : Bool := (c.toNat < 0x20 && c ≠ '\t') || c.toNat = 0x7F

def lineBreak? : List Char → Option (List Char)
  | '\n' :: cs => some cs
  | '\r' :: '\n' :: cs => some cs
  | _ => none

/-- The text behind blanks, line breaks and comments; `comment` says that one is being skipped. -/
def skipLines : (comment : Bool) → List Char → Option (List Char)
  | _, [] => some []
  | true, '\r' :: '\n' :: cs => skipLines false cs
  | true, c :: cs =>
      if c = '\n' then skipLines false cs
      else if isForbidden c then none
      else skipLines true cs
  | false, '\r' :: '\n' :: cs => skipLines false cs
  | false, c :: cs =>
      if isGap c || c = '\n' then skipLines false cs
      else if c = '#' then skipLines true cs
      else some (c :: cs)

/-- The text behind a comment, from the line break on. -/
def skipComment : List Char → Option (List Char)
  | [] => some []
  | '\r' :: '\n' :: cs => some ('\r' :: '\n' :: cs)
  | c :: cs =>
      if c = '\n' then some (c :: cs) else if isForbidden c then none else skipComment cs

/-- The text after the end of a line, which may hold a comment. -/
def endLine (cs : List Char) : Option (List Char) :=
  match skipGap cs with
  | [] => some []
  | '#' :: cs => do
      match ← skipComment cs with
      | [] => some []
      | cs => lineBreak? cs
  | cs => lineBreak? cs

/-! ## Strings -/

/-- The character with the given number of hexadecimal digits in front of the text. -/
def readHexChar (n : Nat) (cs : List Char) : Option (Char × List Char) := do
  let digits ← (cs.take n).mapM (digitIn 16)
  let value := ofDigits 16 digits
  if digits.length = n ∧ value.isValidChar then some (Char.ofNat value, cs.drop n) else none

def readEscape : List Char → Option (Char × List Char)
  | 'b' :: cs => some ('\x08', cs)
  | 't' :: cs => some ('\t', cs)
  | 'n' :: cs => some ('\n', cs)
  | 'f' :: cs => some ('\x0c', cs)
  | 'r' :: cs => some ('\r', cs)
  | 'e' :: cs => some ('\x1b', cs)
  | '"' :: cs => some ('"', cs)
  | '\\' :: cs => some ('\\', cs)
  | 'x' :: cs => readHexChar 2 cs
  | 'u' :: cs => readHexChar 4 cs
  | 'U' :: cs => readHexChar 8 cs
  | _ => none

/-- The rest of a string on one line, from behind its opening quote. -/
def readBasic : Nat → List Char → List Char → Option (String × List Char)
  | 0, _, _ => none
  | fuel + 1, cs, out =>
      match cs with
      | [] => none
      | '"' :: cs => some (String.ofList out.reverse, cs)
      | '\\' :: cs => do
          let (c, cs) ← readEscape cs
          readBasic fuel cs (c :: out)
      | c :: cs => if isForbidden c then none else readBasic fuel cs (c :: out)

def readLiteral : List Char → List Char → Option (String × List Char)
  | [], _ => none
  | c :: cs, out =>
      if c = '\x27' then some (String.ofList out.reverse, cs)
      else if isForbidden c then none
      else readLiteral cs (c :: out)

def quoteRun (quote : Char) (cs : List Char) : Nat := (cs.takeWhile (· = quote)).length

/-- The text behind white space and line breaks. -/
def skipBlank (cs : List Char) : List Char :=
  cs.dropWhile fun c ↦ isGap c || c = '\n' || c = '\r'

/-- What follows a backslash at the end of a line, where the line and the white space after it are
skipped. -/
def continueLine? (cs : List Char) : Option (List Char) :=
  (lineBreak? (skipGap cs)).map skipBlank

/-- The rest of a string over several lines.  Up to two quotes may stand in it, also right before
the three that close it. -/
def readLong (literal : Bool) : Nat → List Char → List Char → Option (String × List Char)
  | 0, _, _ => none
  | fuel + 1, cs, out =>
      let quote := if literal then '\x27' else '"'
      match cs with
      | [] => none
      | c :: rest =>
          if c = quote then
            let run := quoteRun quote cs
            if run < 3 then readLong literal fuel (cs.drop run) (List.replicate run quote ++ out)
            else if run ≤ 5 then
              some (String.ofList (List.replicate (run - 3) quote ++ out).reverse, cs.drop run)
            else none
          else if c = '\\' ∧ ¬ literal then
            match continueLine? rest with
            | some rest => readLong literal fuel rest out
            | none => do
                let (d, rest) ← readEscape rest
                readLong literal fuel rest (d :: out)
          else if c = '\n' then readLong literal fuel rest (c :: out)
          else if c = '\r' then
            match rest with
            | '\n' :: rest => readLong literal fuel rest ('\n' :: '\r' :: out)
            | _ => none
          else if isForbidden c then none
          else readLong literal fuel rest (c :: out)

/-- A long string from behind its three quotes; a line break right there is dropped. -/
def readLongString (literal : Bool) (cs : List Char) : Option (String × List Char) :=
  let cs := (lineBreak? cs).getD cs
  readLong literal (cs.length + 1) cs []

/-! ## Keys -/

def isBareKey (c : Char) : Bool :=
  ('a' ≤ c && c ≤ 'z') || ('A' ≤ c && c ≤ 'Z') || isDecimalDigit c || c = '_' || c = '-'

def readKeyPart (cs : List Char) : Option (String × List Char) :=
  match cs with
  | '"' :: rest => readBasic (rest.length + 1) rest []
  | '\x27' :: rest => readLiteral rest []
  | _ =>
      match cs.takeWhile isBareKey with
      | [] => none
      | word => some (String.ofList word, cs.dropWhile isBareKey)

/-- A key, whose parts are divided by dots, and the text behind it and the white space after it. -/
def readKey : Nat → List Char → Option (List String × List Char)
  | 0, _ => none
  | fuel + 1, cs => do
      let (part, cs) ← readKeyPart (skipGap cs)
      match skipGap cs with
      | '.' :: cs => do
          let (parts, cs) ← readKey fuel cs
          return (part :: parts, cs)
      | cs => return ([part], cs)

/-! ## Values -/

/-- The deepest nesting of lists and inline tables. -/
def nestingLimit : Nat := 80

def isWordChar (c : Char) : Bool := isBareKey c || c = '+' || c = '.' || c = ':'

/-- A word, in which a blank may stand between a date and a time. -/
def readScalar (cs : List Char) : Option (Value × List Char) := do
  let word := cs.takeWhile isWordChar
  let rest := cs.dropWhile isWordChar
  match rest with
  | ' ' :: more =>
      if readDate word = some [] && more.head?.any isDecimalDigit then
        let time := more.takeWhile isWordChar
        let value ← readWord (word ++ 'T' :: time)
        return (value, more.dropWhile isWordChar)
      else return (← readWord word, rest)
  | _ => return (← readWord word, rest)

def splitKey (parts : List String) : Option (List String × String) :=
  parts.getLast?.map fun key ↦ (parts.dropLast, key)

mutual

def readValue : Nat → Nat → List Char → Option (Value × List Char)
  | 0, _, _ => none
  | fuel + 1, depth, cs =>
      match cs with
      | '"' :: '"' :: '"' :: cs => (readLongString false cs).map fun r ↦ (.text r.1, r.2)
      | '\x27' :: '\x27' :: '\x27' :: cs => (readLongString true cs).map fun r ↦ (.text r.1, r.2)
      | '"' :: cs => (readBasic (cs.length + 1) cs []).map fun r ↦ (.text r.1, r.2)
      | '\x27' :: cs => (readLiteral cs []).map fun r ↦ (.text r.1, r.2)
      | '[' :: cs =>
          if nestingLimit ≤ depth then none
          else (readItems fuel (depth + 1) cs []).map fun r ↦ (.array r.1, r.2)
      | '\x7b' :: cs =>
          if nestingLimit ≤ depth then none
          else (readInline fuel (depth + 1) cs (.empty .inline)).map fun r ↦
            (.table .inline r.1.entries, r.2)
      | cs => readScalar cs

/-- The items of a list from behind a bracket or a comma; those read come in reverse. -/
def readItems : Nat → Nat → List Char → List Value → Option (List Value × List Char)
  | 0, _, _, _ => none
  | fuel + 1, depth, cs, out => do
      match ← skipLines false cs with
      | ']' :: cs => return (out.reverse, cs)
      | cs =>
          let (value, cs) ← readValue fuel depth cs
          match ← skipLines false cs with
          | ',' :: cs => readItems fuel depth cs (value :: out)
          | ']' :: cs => return ((value :: out).reverse, cs)
          | _ => none

/-- The entries of an inline table from behind a brace or a comma. -/
def readInline : Nat → Nat → List Char → Table → Option (Table × List Char)
  | 0, _, _, _ => none
  | fuel + 1, depth, cs, table => do
      match ← skipLines false cs with
      | '\x7d' :: cs => return (table, cs)
      | cs =>
          let (parts, cs) ← readKey (cs.length + 1) cs
          let cs ← expectChar '=' cs
          let (value, cs) ← readValue fuel depth (skipGap cs)
          let (path, key) ← splitKey parts
          let table ← table.assign path key value
          match ← skipLines false cs with
          | ',' :: cs => readInline fuel depth cs table
          | '\x7d' :: cs => return (table, cs)
          | _ => none

end

/-! ## Documents -/

/-- A header that opens a table, or another table of a list. -/
structure Header where
  path : List String
  key : String
  isList : Bool

/-- The tables that are finished, and the one being read with its header. -/
structure Progress where
  root : Table
  current : Table
  header : Option Header

def Progress.start : Progress := ⟨.empty .explicit, .empty .explicit, none⟩

def pushTable (key : String) (entries : Entries) (parent : Table) : Option Table :=
  match parent.entries.lookup key with
  | none => some { parent with entries := parent.entries ++ [(key, .tables [entries])] }
  | some (.tables items) =>
      some { parent with entries := replaceEntry parent.entries key (.tables (items ++ [entries])) }
  | some _ => none

/-- Puts the table being read into its place. -/
def Progress.finish (p : Progress) : Option Table :=
  match p.header with
  | none => some p.current
  | some header =>
      if header.isList then
        descend false (pushTable header.key p.current.entries) header.path p.root
      else
        descend false (addEntry header.key (.table .explicit p.current.entries)) header.path p.root

/-- The table of that name is taken out, which is allowed if only longer headers named it. -/
def takeImplied (key : String) (parent : Table) : Option (Entries × Table) :=
  match parent.entries.lookup key with
  | none => some ([], parent)
  | some (.table .implied entries) =>
      some (entries, { parent with entries := parent.entries.filter (·.1 ≠ key) })
  | some _ => none

/-- The entries of the table at the end of a path that a header is about to open. -/
def entriesAt (key : String) (path : List String) (root : Table) : Option Entries :=
  match path with
  | [] => (takeImplied key root).map (·.1)
  | part :: path =>
      match root.entries.lookup part with
      | some (.table kind entries) => entriesAt key path ⟨kind, entries⟩
      | some (.tables items) =>
          match items.getLast? with
          | some last => entriesAt key path ⟨.explicit, last⟩
          | none => none
      | _ => some []

def Progress.openTable (p : Progress) (header : Header) : Option Progress := do
  let root ← p.finish
  if header.isList then
    let root ← descend false some header.path root
    return ⟨root, .empty .explicit, some header⟩
  else
    let entries ← entriesAt header.key header.path root
    let root ← descend false (fun t ↦ (takeImplied header.key t).map (·.2)) header.path root
    return ⟨root, ⟨.explicit, entries⟩, some header⟩

def readHeader (isList : Bool) (cs : List Char) : Option (Header × List Char) := do
  let (parts, cs) ← readKey (cs.length + 1) cs
  let cs ← expectChar ']' cs
  let cs ← if isList then expectChar ']' cs else some cs
  let (path, key) ← splitKey parts
  return (⟨path, key, isList⟩, cs)

def readLines : Nat → List Char → Progress → Option Table
  | 0, _, _ => none
  | fuel + 1, cs, p => do
      match ← skipLines false cs with
      | [] => p.finish
      | '[' :: '[' :: cs => do
          let (header, cs) ← readHeader true cs
          readLines fuel (← endLine cs) (← p.openTable header)
      | '[' :: cs => do
          let (header, cs) ← readHeader false cs
          readLines fuel (← endLine cs) (← p.openTable header)
      | cs => do
          let (parts, cs) ← readKey (cs.length + 1) cs
          let cs ← expectChar '=' cs
          let (value, cs) ← readValue (2 * cs.length + 2) 0 (skipGap cs)
          let (path, key) ← splitKey parts
          let current ← p.current.assign path key value
          readLines fuel (← endLine cs) { p with current }

/-- The root table of a document.  A byte order mark in front of it is skipped. -/
def parse (source : String) : Option Table :=
  let cs := match source.toList with
    | '\ufeff' :: cs => cs
    | cs => cs
  readLines (cs.length + 1) cs .start

def read? (source : String) : Option Data.Tree :=
  (parse source).map fun t ↦ (Value.table t.kind t.entries).toTree

end Scaffold.Toml

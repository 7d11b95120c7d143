import Scaffold.Pattern.Escape
import Scaffold.Text.Alphabetic

/-!
# Reading a pattern

A pattern is read from left to right and the first problem is reported, whatever follows it.
-/

namespace Scaffold.Pattern

/-! ## Classes in brackets -/

def asciiClasses : List String :=
  ["alnum", "alpha", "ascii", "blank", "cntrl", "digit", "graph", "lower", "print", "punct",
    "space", "upper", "word", "xdigit"]

/-- Reads a class such as `[:alpha:]`, after its bracket.  Anything else is no such class. -/
def asciiClass? (cs : List Char) : Option (ClassExpr × List Char) :=
  match cs with
  | ':' :: rest =>
      let (negated, rest) := match rest with
        | '^' :: rest => (true, rest)
        | rest => (false, rest)
      let name := rest.takeWhile (· ≠ ':')
      match rest.dropWhile (· ≠ ':') with
      | ':' :: ']' :: rest =>
          if asciiClasses.contains (String.ofList name) then some (.ascii negated, rest) else none
      | _ => none
  | _ => none

def readClassAtom (spaced : Bool) : List Char → Except Problem (Atom × List Char)
  | [] => .error .classUnclosed
  | '\\' :: cs => readEscape spaced cs
  | c :: cs => .ok (.symbol ⟨c, false⟩, cs)

def Atom.classItem : Atom → Except Problem ClassExpr
  | .symbol s => .ok (.symbol s)
  | .property p => .ok (.property p)
  | .shorthand kind negated => .ok (.shorthand kind negated)
  | .dot | .look => .error .classEscape

def Atom.boundary : Atom → Except Problem Symbol
  | .symbol s => .ok s
  | _ => .error .classRangeBoundary

def readClassItem (spaced : Bool) (cs : List Char) : Except Problem (ClassExpr × List Char) := do
  let (first, rest) ← readClassAtom spaced cs
  match skip spaced rest with
  | [] => throw .classUnclosed
  | c :: rest =>
      let behind := peek spaced rest
      if c ≠ '-' || behind = some ']' || behind = some '-' then
        return (← first.classItem, c :: rest)
      match skip spaced rest with
      | [] => throw .classUnclosed
      | rest =>
          let (last, rest) ← readClassAtom spaced rest
          let first ← first.boundary
          let last ← last.boundary
          if last.char < first.char then throw .classRangeOrder
          return (.range first last, rest)

/-- Reads hyphens at the start of a class, which stand for themselves. -/
def readHyphens (spaced : Bool) (items : List ClassExpr) :
    (fuel : Nat) → List Char → Except Problem (List ClassExpr × List Char)
  | _, [] => .error .classUnclosed
  | 0, cs => .ok (items, cs)
  | fuel + 1, '-' :: cs =>
      readHyphens spaced (items ++ [.symbol ⟨'-', false⟩]) fuel (skip spaced cs)
  | _ + 1, cs => .ok (items, cs)

/-- Reads the start of a class, after its bracket: whether it is negated, and the items that stand
for themselves only there. -/
def readClassStart (spaced : Bool) (cs : List Char) :
    Except Problem ((Bool × List ClassExpr) × List Char) := do
  let cs := skip spaced cs
  let (negated, cs) := match cs with
    | '^' :: rest => (true, skip spaced rest)
    | cs => (false, cs)
  let (items, cs) ← readHyphens spaced [] cs.length cs
  match items, cs with
  | [], ']' :: rest =>
      match skip spaced rest with
      | [] => throw .classUnclosed
      | rest => return ((negated, [.symbol ⟨']', false⟩]), rest)
  | _, _ => return ((negated, items), cs)

/-- The class so far, where an operator or the closing bracket ends the last operand. -/
def combine (left : Option ClassExpr) (items : List ClassExpr) : ClassExpr :=
  match left with
  | none => .ofItems items
  | some left => .combined left (.ofItems items)

def readClassBody (spaced negated : Bool) (left : Option ClassExpr) (items : List ClassExpr) :
    (fuel : Nat) → List Char → Except Problem (ClassExpr × List Char)
  | 0, _ => .error .classUnclosed
  | fuel + 1, cs =>
      match skip spaced cs with
      | [] => .error .classUnclosed
      | '[' :: rest =>
          match asciiClass? rest with
          | some (item, rest) => readClassBody spaced negated left (items ++ [item]) fuel rest
          | none => do
              let ((inner, start), rest) ← readClassStart spaced rest
              let (item, rest) ← readClassBody spaced inner none start fuel rest
              readClassBody spaced negated left (items ++ [item]) fuel rest
      | ']' :: rest => .ok (.bracketed negated (combine left items), rest)
      | '&' :: '&' :: rest | '-' :: '-' :: rest | '~' :: '~' :: rest =>
          readClassBody spaced negated (some (combine left items)) [] fuel rest
      | cs => do
          let (item, rest) ← readClassItem spaced cs
          readClassBody spaced negated left (items ++ [item]) fuel rest

def readClass (spaced : Bool) (cs : List Char) : Except Problem (ClassExpr × List Char) := do
  let ((negated, items), rest) ← readClassStart spaced cs
  readClassBody spaced negated none items (rest.length + 1) rest

/-! ## Groups -/

inductive Opening where
  | switch (s : Switching)
  | capture (name : Option (List Char))
  | group (s : Switching)
deriving Repr

def isNameStart (c : Char) : Bool := c == '_' || Text.isAlphabetic c

def isNamePart (c : Char) : Bool :=
  c == '_' || c == '.' || c == '[' || c == ']' || Text.isAlphabetic c || Text.isNumeric c

def isGroupName : List Char → Bool
  | [] => true
  | c :: cs => isNameStart c && cs.all isNamePart

def readGroupName (names : List (List Char)) (cs : List Char) :
    Except Problem (List Char × List Char) :=
  let name := cs.takeWhile (· ≠ '>')
  if !isGroupName name then .error .groupNameInvalid
  else match cs.dropWhile (· ≠ '>') with
    | [] => .error .groupNameUnclosed
    | _ :: rest =>
        if name.isEmpty then .error .groupNameEmpty
        else if names.contains name then .error .groupNameDuplicate
        else .ok (name, rest)

/-- Reads what stands between an opening parenthesis and the body of its group. -/
def readOpening (spaced : Bool) (names : List (List Char)) (cs : List Char) :
    Except Problem (Opening × List Char) :=
  match skip spaced cs with
  | '?' :: '=' :: _ | '?' :: '!' :: _ | '?' :: '<' :: '=' :: _ | '?' :: '<' :: '!' :: _ =>
      .error .lookAround
  | '?' :: 'P' :: '<' :: rest | '?' :: '<' :: rest => do
      let (name, rest) ← readGroupName names rest
      return (.capture (some name), rest)
  | ['?'] => .error .groupUnclosed
  | '?' :: rest => do
      let ((switching, mark), rest) ← readFlags false false [] rest
      if mark = ':' then return (.group switching, rest)
      if switching.isEmpty then throw .repetitionMissing
      return (.switch switching, rest)
  | rest => .ok (.capture none, rest)

/-! ## Repetition -/

def repeatable (parts : List Expr) : Except Problem (List Expr × Expr) :=
  match parts.getLast? with
  | none | some .empty | some (.flags _) => .error .repetitionMissing
  | some part => .ok (parts.dropLast, part)

/-- Skips the mark of a repetition that prefers fewer rounds. -/
def skipLazy : List Char → List Char
  | '?' :: rest => rest
  | rest => rest

/-- Reads the bounds of a repetition, after the opening brace. -/
def readBounds (spaced : Bool) (cs : List Char) :
    Except Problem ((Nat × Option Nat) × List Char) :=
  match skip spaced cs with
  | [] => .error .countUnclosed
  | cs => do
      let (least, rest) := readBound spaced cs
      let (bounds, rest) ← match rest with
        | [] => throw .countUnclosed
        | ',' :: rest =>
            match skip spaced rest with
            | [] => throw .countUnclosed
            | '\x7d' :: rest => do pure ((← least, none), '\x7d' :: rest)
            | rest => do
                let least ← least
                let (most, rest) := readBound spaced rest
                pure ((least, some (← most)), rest)
        | rest => do
            let least ← least
            pure ((least, some least), rest)
      match rest with
      | '\x7d' :: rest =>
          if bounds.2.any (· < bounds.1) then throw .countOrder
          return (bounds, skipLazy (skip spaced rest))
      | _ => throw .countUnclosed

/-! ## The pattern -/

/-- What is left to be read, whether it is spaced, and the group names so far. -/
structure Scan where
  rest : List Char
  spaced : Bool := false
  names : List (List Char) := []
deriving Repr

def Atom.expr : Atom → Expr
  | .symbol s => .symbol s
  | .dot => .dot
  | .look => .look
  | .property p => .property p
  | .shorthand kind negated => .shorthand kind negated

def readAtom (spaced : Bool) : List Char → Except Problem (Atom × List Char)
  | [] => .error .escapeAtEnd
  | '\\' :: cs => readEscape spaced cs
  | '.' :: cs => .ok (.dot, cs)
  | '^' :: cs | '$' :: cs => .ok (.look, cs)
  | c :: cs => .ok (.symbol ⟨c, false⟩, cs)

/-- Reads branches up to a closing parenthesis or the end.  `branches` and `parts` are what has been
read of the choice and of its last branch. -/
def readBranches (branches parts : List Expr) :
    (fuel : Nat) → Scan → Except Problem (Expr × Scan)
  | 0, s => .ok (.ofBranches (branches ++ [.ofParts parts]), s)
  | fuel + 1, s =>
      match skip s.spaced s.rest with
      | [] => .ok (.ofBranches (branches ++ [.ofParts parts]), { s with rest := [] })
      | ')' :: rest =>
          .ok (.ofBranches (branches ++ [.ofParts parts]), { s with rest := ')' :: rest })
      | '|' :: rest => readBranches (branches ++ [.ofParts parts]) [] fuel { s with rest }
      | '(' :: rest => do
          let (opening, rest) ← readOpening s.spaced s.names rest
          match opening with
          | .switch switching =>
              readBranches branches (parts ++ [.flags switching]) fuel
                { s with rest, spaced := (switching.setting? .spaced).getD s.spaced }
          | .capture name => do
              let (body, inner) ← readBranches [] [] fuel
                { s with rest, names := name.toList ++ s.names }
              readBranches branches (parts ++ [.capture body]) fuel
                (← closed inner s.spaced)
          | .group switching => do
              let (body, inner) ← readBranches [] [] fuel
                { s with rest, spaced := (switching.setting? .spaced).getD s.spaced }
              readBranches branches (parts ++ [.group switching body]) fuel
                (← closed inner s.spaced)
      | '[' :: rest => do
          let (item, rest) ← readClass s.spaced rest
          let part := match item with
            | .bracketed negated body => .bracketed negated body
            | other => .bracketed false other
          readBranches branches (parts ++ [part]) fuel { s with rest }
      | '?' :: rest => do
          let (before, part) ← repeatable parts
          readBranches branches (before ++ [.repeated 0 (some 1) part]) fuel
            { s with rest := skipLazy rest }
      | '*' :: rest => do
          let (before, part) ← repeatable parts
          readBranches branches (before ++ [.repeated 0 none part]) fuel
            { s with rest := skipLazy rest }
      | '+' :: rest => do
          let (before, part) ← repeatable parts
          readBranches branches (before ++ [.repeated 1 none part]) fuel
            { s with rest := skipLazy rest }
      | '\x7b' :: rest => do
          let (before, part) ← repeatable parts
          let ((least, most), rest) ← readBounds s.spaced rest
          readBranches branches (before ++ [.repeated least most part]) fuel { s with rest }
      | cs => do
          let (atom, rest) ← readAtom s.spaced cs
          readBranches branches (parts ++ [atom.expr]) fuel { s with rest }
where
  /-- Leaves a group by its closing parenthesis. -/
  closed (inner : Scan) (spaced : Bool) : Except Problem Scan :=
    match inner.rest with
    | ')' :: rest => .ok { inner with rest, spaced }
    | _ => .error .groupUnclosed

def depthLimit : Nat := 250

def parse (pattern : String) : Except Problem Expr := do
  let cs := pattern.toList
  let (expr, s) ← readBranches [] [] (cs.length + 1) { rest := cs }
  if !s.rest.isEmpty then throw .groupUnopened
  if depthLimit < expr.depth then throw (.nesting depthLimit)
  return expr

end Scaffold.Pattern

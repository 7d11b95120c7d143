import Scaffold.Json.Token

/-!
# The tree of a JSON text

`Document.read` gives every text a tree.  Reading goes on as long as the text can at least be
skipped; where it cannot, the tree ends in the fault.
-/

namespace Scaffold.Json

open Data

/-- A tree, and what follows it unless it is broken. -/
abbrev Scanned (α : Type) := α × Option Cursor

/-- Where a reader comes to stand that leaves a list here, white space skipped, and its
complaint. -/
def leaveList (c : Cursor) : Position × Fault :=
  match c.rest with
  | [] => (c.position, ⟨.endInList, c.position⟩)
  | ',' :: cs =>
      let d := skipSpace cs c.position.next
      match d.rest with
      | ']' :: _ => (d.position, ⟨.trailingComma, d.peek⟩)
      | _ => (d.position, ⟨.trailingCharacters, d.peek⟩)
  | _ => (c.position, ⟨.trailingCharacters, c.peek⟩)

def brokenList (c : Cursor) (strict loose : Fault) : Scanned Items :=
  let (stop, early) := leaveList c
  (.done (.broken stop early strict loose), none)

def brokenObject (c : Cursor) (strict loose : Fault) : Scanned Members :=
  (.done (.broken c.position ⟨.trailingCharacters, c.peek⟩ strict loose), none)

/-- Where a reader comes to stand that leaves an object after a key. -/
def leaveKey (c : Cursor) : Position :=
  match c.rest with
  | '\x7d' :: _ => c.position.next
  | _ => c.position

def scanWord (start : Position) (word cs : List Char) (value : Position → Tree) : Scanned Tree :=
  match readWord word cs start with
  | .ok cursor => (value cursor.position, some cursor)
  | .error fault => (.broken start .bare fault fault, none)

def scanNumberTree (cs : List Char) (start : Position) : Scanned Tree :=
  match scanNumber cs start with
  | .read text cursor =>
      (.number start cursor.position (text.numeral cursor.position), some cursor)
  | .broken strict loose => (.broken start .bare strict loose, none)

/-- What the strict reader makes of a string that can be skipped. -/
def stringValue (cs : List Char) (p : Position) : Except Fault String :=
  (readString .plain cs p []).map fun r ↦ String.ofList r.1

def scanStringTree (cs : List Char) (start : Position) : Scanned Tree :=
  match skipString false cs start.next with
  | .ok cursor => (.string start cursor.position (stringValue cs start.next), some cursor)
  | .error loose =>
      match readString .plain cs start.next [] with
      | .error strict => (.broken start .quoted strict loose, none)
      | .ok _ => (.broken start .quoted loose loose, none)

mutual

/-- The value in front of the cursor, white space skipped.  Every call uses up fuel, and twice the
length of the text is enough. -/
def scanValue : Nat → Nat → Cursor → Scanned Tree
  | 0, _, c =>
      (.broken c.position .absent ⟨.endInValue, c.position⟩ ⟨.endInValue, c.position⟩, none)
  | fuel + 1, nesting, c =>
      let start := c.position
      match c.rest with
      | [] => (.broken start .absent ⟨.endInValue, start⟩ ⟨.endInValue, start⟩, none)
      | '"' :: cs => scanStringTree cs start
      | '[' :: cs =>
          let (items, after) := scanItems fuel (nesting + 1) true (skipSpace cs start.next)
          (.list start (nesting + 1) items, after)
      | '\x7b' :: cs =>
          let (members, after) := scanMembers fuel (nesting + 1) true (skipSpace cs start.next)
          (.object start (nesting + 1) members, after)
      | 'n' :: _ => scanWord start "null".toList c.rest (.null start ·)
      | 't' :: _ => scanWord start "true".toList c.rest (.bool start · true)
      | 'f' :: _ => scanWord start "false".toList c.rest (.bool start · false)
      | ch :: _ =>
          if ch = '-' ∨ isDigit ch then scanNumberTree c.rest start
          else (.broken start .absent ⟨.expectedValue, c.peek⟩ ⟨.expectedValue, c.peek⟩, none)

/-- The items of a list from the cursor on, which stands behind white space. -/
def scanItems : Nat → Nat → Bool → Cursor → Scanned Items
  | 0, _, _, c => brokenList c ⟨.endInList, c.position⟩ ⟨.endInList, c.position⟩
  | fuel + 1, nesting, first, c =>
      match c.rest with
      | [] => brokenList c ⟨.endInList, c.position⟩ ⟨.endInList, c.position⟩
      | ']' :: cs => (.done (.closed c.position.next), some ⟨cs, c.position.next⟩)
      | ch :: cs =>
          if first then scanItem fuel nesting c c
          else if ch = ',' then
            let d := skipSpace cs c.position.next
            match d.rest with
            | [] => brokenList c ⟨.endInValue, d.position⟩ ⟨.endInValue, d.position⟩
            | ']' :: _ => brokenList c ⟨.trailingComma, d.peek⟩ ⟨.expectedValue, d.peek⟩
            | _ => scanItem fuel nesting c d
          else brokenList c ⟨.expectedListSeparator, c.peek⟩ ⟨.expectedListSeparator, c.peek⟩

/-- The item in front of the second cursor and those after it; the first cursor stands before the
separator. -/
def scanItem : Nat → Nat → Cursor → Cursor → Scanned Items
  | 0, _, _, c => brokenList c ⟨.endInList, c.position⟩ ⟨.endInList, c.position⟩
  | fuel + 1, nesting, before, c =>
      let (stop, early) := leaveList before
      match scanValue fuel nesting c with
      | (value, none) => (.more stop early value (.done .cut), none)
      | (value, some after) =>
          let (rest, final) :=
            scanItems fuel nesting false (skipSpace after.rest after.position)
          (.more stop early value rest, final)

/-- The members of an object from the cursor on, which stands behind white space. -/
def scanMembers : Nat → Nat → Bool → Cursor → Scanned Members
  | 0, _, _, c => brokenObject c ⟨.endInObject, c.position⟩ ⟨.endInObject, c.position⟩
  | fuel + 1, nesting, first, c =>
      match c.rest with
      | [] => brokenObject c ⟨.endInObject, c.position⟩ ⟨.endInObject, c.position⟩
      | '\x7d' :: cs => (.done (.closed c.position.next), some ⟨cs, c.position.next⟩)
      | ch :: cs =>
          if first then
            if ch = '"' then scanMember fuel nesting c c
            else brokenObject c ⟨.keyNotString, c.peek⟩ ⟨.keyNotString, c.peek⟩
          else if ch = ',' then
            let d := skipSpace cs c.position.next
            match d.rest with
            | [] => brokenObject c ⟨.endInValue, d.position⟩ ⟨.endInObject, d.position⟩
            | '"' :: _ => scanMember fuel nesting c d
            | '\x7d' :: _ => brokenObject c ⟨.trailingComma, d.peek⟩ ⟨.keyNotString, d.peek⟩
            | _ => brokenObject c ⟨.keyNotString, d.peek⟩ ⟨.keyNotString, d.peek⟩
          else brokenObject c ⟨.expectedObjectSeparator, c.peek⟩ ⟨.expectedObjectSeparator, c.peek⟩

/-- The member whose key starts at the second cursor and those after it; the first cursor stands
before the separator. -/
def scanMember : Nat → Nat → Cursor → Cursor → Scanned Members
  | 0, _, _, c => brokenObject c ⟨.endInObject, c.position⟩ ⟨.endInObject, c.position⟩
  | fuel + 1, nesting, before, c =>
      let start := c.position.next
      let cs := c.rest.drop 1
      match skipString false cs start with
      | .error loose =>
          match readString .plain cs start [] with
          | .error strict => brokenObject before strict loose
          | .ok _ => brokenObject before loose loose
      | .ok after =>
          let colon := skipSpace after.rest after.position
          let key : Key := ⟨stringValue cs start, after.position, leaveKey colon⟩
          let noValue (fault : Fault) : Scanned Members :=
            (.more before.position key (.broken colon.position .absent fault fault)
              (.done .cut), none)
          match colon.rest with
          | [] => noValue ⟨.endInObject, colon.position⟩
          | ch :: cs =>
              if ch = ':' then
                match scanValue fuel nesting (skipSpace cs colon.position.next) with
                | (value, none) => (.more before.position key value (.done .cut), none)
                | (value, some after) =>
                    let (rest, final) :=
                      scanMembers fuel nesting false (skipSpace after.rest after.position)
                    (.more before.position key value rest, final)
              else noValue ⟨.expectedColon, colon.peek⟩

end

/-- A JSON text as a tree, and the complaint about what follows it. -/
structure Document where
  root : Tree
  trailing : Option Fault

/-- The complaint about anything but white space. -/
def trailingFault? (c : Cursor) : Option Fault :=
  let d := skipSpace c.rest c.position
  match d.rest with
  | [] => none
  | _ => some ⟨.trailingCharacters, d.peek⟩

def Document.read (text : String) : Document :=
  let cs := text.toList
  let (root, after) := scanValue (3 * cs.length + 3) 0 (skipSpace cs .origin)
  ⟨root, after.bind trailingFault?⟩

end Scaffold.Json

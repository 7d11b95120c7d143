import Scaffold.Text.Basic

/-!
# Paths as texts

The parts of a path are divided by slashes.  Empty parts and single dots name nothing, except for a
dot in front of a relative path.
-/

namespace Scaffold.Path

def segments (path : String) : List String :=
  (Text.splitOn '/' path.toList).map String.ofList

/-- Whether a part between slashes names nothing. -/
def isIdle (segment : String) : Bool := segment == "" || segment == "."

def parts (path : String) : List String := (segments path).filter (!isIdle ·)

def isAbsolute (path : String) : Bool := path.toList.head? = some '/'

/-- The same path with nothing in it that names nothing. -/
def normalize (path : String) : String := "/".intercalate (parts path)

/-! ## Output paths -/

/-- Why a path may not be used for output. -/
inductive Problem where
  | empty
  | directory
  | parent
  | absolute
deriving DecidableEq, Repr

def Problem.reason : Problem → String
  | .empty => "path is empty"
  | .directory => "path names a directory"
  | .parent => "path contains '..'"
  | .absolute => "path must be relative"

def Problem.message (p : Problem) (path : String) : String :=
  s!"invalid output path '{path}': {p.reason}"

/-- Whether a path stays inside the directory it is relative to. -/
def checkRelative (path : String) : Except Problem Unit :=
  if path.isEmpty then .error .empty
  else if path.toList.getLast? = some '/' then .error .directory
  else if isAbsolute path then .error .absolute
  else if (parts path).contains ".." then .error .parent
  else .ok ()

/-! ## Moving along a path -/

def join (directory path : String) : String :=
  if isAbsolute path || directory.isEmpty then path
  else if directory.toList.getLast? = some '/' then directory ++ path
  else directory ++ "/" ++ path

/-- A leading slash or dot, which stays in front of every parent, and what is behind it. -/
def splitRoot (path : String) : String × String :=
  match path.toList with
  | '/' :: rest => ("/", String.ofList rest)
  | ['.'] => (".", "")
  | '.' :: '/' :: rest => (".", String.ofList ('/' :: rest))
  | cs => ("", String.ofList cs)

/-- Drops the last parts as long as they name nothing. -/
def dropIdle (segments : List String) : List String :=
  (segments.reverse.dropWhile isIdle).reverse

/-- The path without its last part; the root and the empty path have no parent. -/
def parent? (path : String) : Option String :=
  let (root, body) := splitRoot path
  match dropIdle (segments body) with
  | [] => if root = "." then some "" else none
  | parts => some (root ++ "/".intercalate (dropIdle parts.dropLast))

def ancestorsFrom : (fuel : Nat) → String → List String
  | 0, _ => []
  | fuel + 1, path =>
      path :: match parent? path with
        | some up => ancestorsFrom fuel up
        | none => []

/-- The path, its parent, and so on; every parent is shorter. -/
def ancestors (path : String) : List String := ancestorsFrom (path.length + 1) path

/-- The last part of a path, where it names something other than the directory above. -/
def fileName? (path : String) : Option String :=
  ((parts (splitRoot path).2).getLast?).filter (· != "..")

/-- What follows the last dot of a name that has something in front of it. -/
def extension? (path : String) : Option String :=
  (fileName? path).bind fun name ↦
    let reversed := name.toList.reverse
    match reversed.dropWhile (· ≠ '.') with
    | _ :: _ :: _ => some (String.ofList (reversed.takeWhile (· ≠ '.')).reverse)
    | _ => none

end Scaffold.Path

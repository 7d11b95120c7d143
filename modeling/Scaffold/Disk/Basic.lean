import Scaffold.Artifact.Path

/-!
# A disk

A disk holds files and directories under locations, and has a working directory for relative paths.
Operations take paths as texts and fail the way an operating system does, for what is on the disk.
Links are left out, and so are failures of input and output: there are no permissions, a disk is
never full, and nothing else changes it while an operation goes on.
-/

namespace Scaffold

/-- The names from the root down to a file or directory. -/
abbrev Location := List String

inductive Node where
  | file (content : ByteArray)
  | directory

/-- Why an operation fails. -/
inductive DiskError where
  | notFound
  | busy
  | exists
  | notDirectory
  | isDirectory
  | nameTooLong
  | notEmpty
  | badName
deriving DecidableEq, Repr

def DiskError.message : DiskError → String
  | .notFound => "No such file or directory (os error 2)"
  | .busy => "Device or resource busy (os error 16)"
  | .exists => "File exists (os error 17)"
  | .notDirectory => "Not a directory (os error 20)"
  | .isDirectory => "Is a directory (os error 21)"
  | .nameTooLong => "File name too long (os error 36)"
  | .notEmpty => "Directory not empty (os error 39)"
  | .badName => "file name contained an unexpected NUL byte"

structure Disk where
  /-- What there is below the root. -/
  entries : List (Location × Node) := []
  /-- The working directory. -/
  home : Location := []

namespace Disk

/-! ## Locations -/

/-- What is at a location.  The root is always there. -/
def node? (d : Disk) (l : Location) : Option Node :=
  if l.isEmpty then some .directory else d.entries.lookup l

def put (d : Disk) (l : Location) (n : Node) : Disk :=
  { d with entries := d.entries.filter (·.1 != l) ++ [(l, n)] }

def erase (d : Disk) (l : Location) : Disk :=
  { d with entries := d.entries.filter (·.1 != l) }

def isEmptyAt (d : Disk) (l : Location) : Bool :=
  d.entries.all fun e ↦ !(l.isPrefixOf e.1 && l.length < e.1.length)

/-! ## Paths -/

/-- The longest name and the longest path, in bytes. -/
def maxName : Nat := 255

def maxPath : Nat := 4096

/-- Follows names from a directory.  Every name but the last has to lead to a directory. -/
def walk (d : Disk) (l : Location) : List String → Except DiskError Location
  | [] => .ok l
  | name :: rest =>
      if Path.isIdle name then walk d l rest
      else if name = ".." then walk d l.dropLast rest
      else if maxName < name.utf8ByteSize then .error .nameTooLong
      else if rest.isEmpty then .ok (l ++ [name])
      else
        match d.node? (l ++ [name]) with
        | some .directory => walk d (l ++ [name]) rest
        | some (.file _) => .error .notDirectory
        | none => .error .notFound

/-- Whether a path ends in a slash, and so can only mean a directory. -/
def endsInSlash (path : String) : Bool := path.toList.getLast? = some '/'

def dropSlashes (path : String) : String :=
  String.ofList (path.toList.reverse.dropWhile (· = '/')).reverse

/-- The location that a path leads to, whether or not there is anything. -/
def locate (d : Disk) (path : String) : Except DiskError Location :=
  if path.toList.contains '\x00' then .error .badName
  else if path.isEmpty then .error .notFound
  else if maxPath ≤ path.utf8ByteSize then .error .nameTooLong
  else d.walk (if Path.isAbsolute path then [] else d.home) (Path.segments (dropSlashes path))

def find (d : Disk) (path : String) : Except DiskError Node := do
  match d.node? (← d.locate path) with
  | some (.file content) => if endsInSlash path then throw .notDirectory else return .file content
  | some .directory => return .directory
  | none => throw .notFound

def existsAt (d : Disk) (path : String) : Bool :=
  match d.find path with
  | .ok _ => true
  | .error _ => false

def isDirectoryAt (d : Disk) (path : String) : Bool :=
  match d.find path with
  | .ok .directory => true
  | _ => false

/-- Whether a path leads nowhere, because it or something above it is not there. -/
def isMissing (d : Disk) (path : String) : Bool :=
  match d.find path with
  | .error .notFound => true
  | _ => false

/-- Whether the last part of a path is a name, and not a dot or two. -/
def endsInName (path : String) : Bool :=
  match (Path.segments path).getLast? with
  | some name => name != "." && name != ".."
  | none => false

/-! ## Operations -/

def read (d : Disk) (path : String) : Except DiskError ByteArray := do
  match ← d.find path with
  | .file content => return content
  | .directory => throw .isDirectory

/-- Writes a file, in place of the one that is there. -/
def write (d : Disk) (path : String) (content : ByteArray) : Except DiskError Disk := do
  let l ← d.locate path
  match d.node? l with
  | some .directory => throw .isDirectory
  | _ => if endsInSlash path then throw .isDirectory else return d.put l (.file content)

def createDirectory (d : Disk) (path : String) : Except DiskError Disk := do
  let l ← d.locate path
  match d.node? l with
  | some _ => throw .exists
  | none => return d.put l .directory

def removeFile (d : Disk) (path : String) : Except DiskError Disk := do
  let l ← d.locate path
  match d.node? l with
  | some (.file _) => return d.erase l
  | some .directory => throw .isDirectory
  | none => throw .notFound

def removeDirectory (d : Disk) (path : String) : Except DiskError Disk := do
  let l ← d.locate path
  match d.node? l with
  | some .directory => if d.isEmptyAt l then return d.erase l else throw .notEmpty
  | some (.file _) => throw .notDirectory
  | none => throw .notFound

/-- Moves the file at a location onto a path, in place of the file that is there. -/
def moveFile (d : Disk) (source : Location) (path : String) : Except DiskError Disk := do
  let l ← d.locate path
  if !endsInName path then throw .busy
  match d.node? l, d.node? source with
  | some .directory, _ => throw .isDirectory
  | _, some n => return (d.erase source).put l n
  | _, none => throw .notFound

/-! ## Several steps -/

/-- Makes directories, the first ones first, up to the first that cannot be made.  A directory that
is there already is as good as made. -/
def createAll (d : Disk) : List String → Disk × Except DiskError Unit
  | [] => (d, .ok ())
  | path :: paths =>
      match d.createDirectory path with
      | .ok d => d.createAll paths
      | .error e => if d.isDirectoryAt path then d.createAll paths else (d, .error e)

/-- Makes a directory and what is missing above it. -/
def createTree (d : Disk) (path : String) : Disk × Except DiskError Unit :=
  let missing := (Path.ancestors path).takeWhile fun p ↦ !p.isEmpty && d.isMissing p
  match d.find path with
  | .ok .directory => (d, .ok ())
  | .ok (.file _) => (d, .error .exists)
  | .error .notFound => d.createAll missing.reverse
  | .error e => (d, .error e)

/-- Removes whatever is at a path and inside. -/
def removeTree (d : Disk) (path : String) : Except DiskError Disk := do
  let l ← d.locate path
  match d.node? l with
  | none => throw .notFound
  | some _ => return { d with entries := d.entries.filter fun e ↦ !l.isPrefixOf e.1 }

/-- A name made of slashes, to which no path leads. -/
def temporaryName (n : Nat) : String := String.ofList (List.replicate (n + 1) '/')

/-- A name in a directory that nothing has and no path leads to. -/
def freshName (d : Disk) (directory : Location) : String :=
  let taken := d.entries.map Prod.fst
  let candidates := (List.range (taken.length + 1)).map temporaryName
  (candidates.find? fun name ↦ !taken.contains (directory ++ [name])).getD ""

/-- Makes a file under a new name in a directory, and returns its location. -/
def createTemporary (d : Disk) (directory : String) (content : ByteArray) :
    Except DiskError (Location × Disk) := do
  let l ← d.locate directory
  match d.node? l with
  | some .directory =>
      let temporary := l ++ [d.freshName l]
      return (temporary, d.put temporary (.file content))
  | some (.file _) => throw .notDirectory
  | none => throw .notFound

end Disk

end Scaffold

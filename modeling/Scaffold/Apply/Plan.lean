import Scaffold.Artifact.File
import Scaffold.Disk.Basic
import Scaffold.Text.Utf8

/-!
# Plans

A plan compares generated files with what is on the disk and decides what becomes of each.  Planning
changes nothing.
-/

namespace Scaffold

/-- A file with its target and what was there when the plan was made. -/
structure PlannedFile where
  file : GeneratedFile
  target : String
  previous : Option ByteArray
  disposition : Disposition

/-- What a plan does, by path, in the order of generation. -/
structure ApplyReport where
  written : List String := []
  unchanged : List String := []
  skipped : List String := []
deriving DecidableEq, Repr

namespace ApplyReport

def total (r : ApplyReport) : Nat := r.written.length + r.unchanged.length + r.skipped.length

end ApplyReport

/-- Files that have been checked against a disk. -/
structure Plan where
  files : List PlannedFile

namespace Plan

/-- Checks the paths in order: each has to be usable, and new. -/
def checkPaths (earlier : List String) : List GeneratedFile → Except Reasons Unit
  | [] => .ok ()
  | f :: rest =>
      match Path.checkRelative f.path with
      | .error p => .error [p.message f.path]
      | .ok () =>
          if earlier.contains (Path.normalize f.path) then
            .error [s!"duplicate output path '{f.path}'"]
          else checkPaths (earlier ++ [Path.normalize f.path]) rest

def readExisting (d : Disk) (path : String) : Except DiskError (Option ByteArray) :=
  match d.read path with
  | .ok content => .ok (some content)
  | .error .notFound => .ok none
  | .error e => .error e

def planFile (d : Disk) (output : String) (f : GeneratedFile) : Except Reasons PlannedFile :=
  let target := Path.join output f.path
  match readExisting d target with
  | .ok previous => .ok ⟨f, target, previous, f.disposition (previous.map Text.decodeLossy)⟩
  | .error e => .error [s!"failed to read {target}", e.message]

def make (d : Disk) (output : String) (files : List GeneratedFile) : Except Reasons Plan := do
  checkPaths [] files
  return ⟨← files.mapM (planFile d output)⟩

def pathsOf (p : Plan) (disposition : Disposition) : List String :=
  (p.files.filter (·.disposition == disposition)).map (·.file.path)

def report (p : Plan) : ApplyReport :=
  ⟨p.pathsOf .written, p.pathsOf .unchanged, p.pathsOf .skipped⟩

def toWrite (p : Plan) : List PlannedFile := p.files.filter (·.disposition == .written)

end Plan

end Scaffold

/-!
# Generated files

A generated file is held in memory until a run is applied.  Most files are regenerated on every
run; a hook is made once and then belongs to the user.  Where files cannot be made or applied, there
are reasons.
-/

namespace Scaffold

/-- Why something fails, from the outermost reason inwards. -/
abbrev Reasons := List String

namespace Reasons

def chain (r : Reasons) : String := ": ".intercalate r

def outermost (r : Reasons) : String := r.head?.getD ""

end Reasons

/-- What becomes of a file that is already there. -/
inductive Overwrite where
  | always
  | ifMissing
deriving DecidableEq, Repr

def Overwrite.name : Overwrite → String
  | .always => "always"
  | .ifMissing => "ifMissing"

/-- What applying a file does. -/
inductive Disposition where
  | written
  | unchanged
  | skipped
deriving DecidableEq, Repr

def Disposition.name : Disposition → String
  | .written => "written"
  | .unchanged => "unchanged"
  | .skipped => "skipped"

/-- A file to be put into the output directory, under a path relative to it. -/
structure GeneratedFile where
  path : String
  content : String
  overwrite : Overwrite := .always
deriving DecidableEq, Repr

namespace GeneratedFile

def generated (path content : String) : GeneratedFile := ⟨path, content, .always⟩

def hook (path content : String) : GeneratedFile := ⟨path, content, .ifMissing⟩

def isHook (f : GeneratedFile) : Bool := f.overwrite == .ifMissing

/-- What applying the file does where the given content, if any, is there. -/
def disposition (f : GeneratedFile) (existing : Option String) : Disposition :=
  match f.overwrite, existing with
  | _, none => .written
  | .ifMissing, some _ => .skipped
  | .always, some current => if current = f.content then .unchanged else .written

end GeneratedFile

end Scaffold

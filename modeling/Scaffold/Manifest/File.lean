import Scaffold.Disk.Basic
import Scaffold.Manifest.Document

/-!
# Manifest files

The format of a manifest file is told by the end of its name.
-/

namespace Scaffold

inductive DocumentFormat where
  | json
  | toml
deriving DecidableEq, Repr

def DocumentFormat.ofPath? (path : String) : Option DocumentFormat :=
  match Path.extension? path with
  | some "json" => some .json
  | some "toml" => some .toml
  | _ => none

def Disk.readText (d : Disk) (path : String) : Read String :=
  match d.read path with
  | .error e => .error (.unreadable path e.message)
  | .ok content =>
      match String.fromUTF8? content with
      | some source => .ok source
      | none => .error (.unreadable path "stream did not contain valid UTF-8")

/-- The manifest in a file.  Whether the format is known is asked before the file is read. -/
def Manifest.ofFile (d : Disk) (path : String) : Read Manifest := do
  match DocumentFormat.ofPath? path with
  | none => throw (.unsupported path)
  | some .json => Manifest.ofJsonNamed path (← d.readText path)
  | some .toml => Manifest.ofToml (← d.readText path)

end Scaffold

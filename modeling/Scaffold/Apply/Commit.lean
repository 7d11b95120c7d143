import Scaffold.Apply.Plan

/-!
# Carrying out a plan

Every file is first staged under another name beside its target, and then all are moved to their
targets.  If a step fails, targets that have been replaced get their previous content back, and
directories made for the run are removed as far as they are empty.
-/

namespace Scaffold

/-- A file that waits beside its target. -/
structure StagedFile where
  planned : PlannedFile
  temporary : Location

structure Progress where
  disk : Disk
  /-- Directories made for the run, the outer ones first. -/
  created : List String := []

namespace Progress

/-- Makes directories one by one and keeps account of them. -/
def createEach (p : Progress) : List String → Progress × Option DiskError
  | [] => (p, none)
  | path :: paths =>
      match p.disk.createDirectory path with
      | .ok disk => createEach ⟨disk, p.created ++ [path]⟩ paths
      | .error e => (p, some e)

/-- Makes a directory and what is missing above it. -/
def createDirectories (p : Progress) (path : String) : Progress × Option DiskError :=
  p.createEach ((Path.ancestors path).takeWhile fun a ↦ !p.disk.existsAt a).reverse

/-- Removes the directories made for the run, the inner ones first, as far as they are empty. -/
def removeCreated (p : Progress) : Disk :=
  p.created.reverse.foldl (fun d path ↦
    match d.removeDirectory path with
    | .ok d => d
    | .error _ => d) p.disk

end Progress

/-- Removes the files that still wait beside their targets. -/
def dropStaged (d : Disk) (staged : List StagedFile) : Disk :=
  staged.foldl (fun d s ↦ d.erase s.temporary) d

def stagingDirectory? (target : String) : Option String :=
  (Path.parent? target).map fun parent ↦ if parent.isEmpty then "." else parent

def stageFile (p : Progress) (f : PlannedFile) : Progress × Except Reasons StagedFile :=
  match stagingDirectory? f.target with
  | none => (p, .error [s!"output path '{f.file.path}' has no parent directory"])
  | some parent =>
      match p.createDirectories parent with
      | (p, some e) => (p, .error [s!"failed to create {parent}", e.message])
      | (p, none) =>
          match p.disk.createTemporary parent f.file.content.toUTF8 with
          | .ok (temporary, disk) => ({ p with disk }, .ok ⟨f, temporary⟩)
          | .error e => (p, .error [s!"failed to stage {f.file.path}", e.message])

def stage (p : Progress) (staged : List StagedFile) :
    List PlannedFile → Progress × List StagedFile × Option Reasons
  | [] => (p, staged, none)
  | f :: rest =>
      match stageFile p f with
      | (p, .ok s) => stage p (staged ++ [s]) rest
      | (p, .error reasons) => (p, staged, some reasons)

/-- Gives a target its previous content back; a target that was not there is removed. -/
def restore (d : Disk) (f : PlannedFile) : Disk :=
  let restored := match f.previous with
    | some content => d.write f.target content
    | none => d.removeFile f.target
  match restored with
  | .ok d => d
  | .error _ => d

/-- Restores targets, the last one replaced first. -/
def rollback (d : Disk) (done : List PlannedFile) : Disk := done.reverse.foldl restore d

/-- Moves staged files to their targets in order.  On failure, what is left waiting is dropped only
after everything else has been undone. -/
def persist (p : Progress) (done : List PlannedFile) :
    List StagedFile → Disk × Option Reasons
  | [] => (p.disk, none)
  | s :: rest =>
      match p.disk.moveFile s.temporary s.planned.target with
      | .ok disk => persist { p with disk } (done ++ [s.planned]) rest
      | .error e =>
          let undone := { p with disk := rollback p.disk done }.removeCreated
          (dropStaged undone (s :: rest),
            some [s!"failed to write {s.planned.target}", e.message])

namespace Plan

/-- Carries out a plan: all of its files are written, or it fails. -/
def commit (plan : Plan) (d : Disk) : Disk × Except Reasons ApplyReport :=
  match stage ⟨d, []⟩ [] plan.toWrite with
  | (p, staged, some reasons) =>
      ({ p with disk := dropStaged p.disk staged }.removeCreated, .error reasons)
  | (p, staged, none) =>
      match persist p [] staged with
      | (d, none) => (d, .ok plan.report)
      | (d, some reasons) => (d, .error reasons)

end Plan

end Scaffold

import Scaffold.Proofs.Apply.Plans
import Scaffold.Proofs.Apply.Undo

/-!
# Targets of a plan

What a plan has recorded about a target is still right once the directories for all files have been
made.  The only way for that to fail is a detour through a directory that was not there, and then
the directories could not have been made.
-/

namespace Scaffold

open Disk

variable {d d' : Disk} {output : String} {files : List GeneratedFile} {plan : Plan}
  {f : PlannedFile} {l : Location}

/-! ## What a plan records -/

structure PlannedAs (d : Disk) (output : String) (f : PlannedFile) (path : String) : Prop where
  relative : Path.checkRelative path = .ok ()
  target : f.target = Path.join output path
  previous : Plan.readExisting d f.target = .ok f.previous

theorem plannedAs_of_planFile {g : GeneratedFile} (hg : Path.checkRelative g.path = .ok ())
    (h : Plan.planFile d output g = .ok f) : PlannedAs d output f g.path := by
  obtain ⟨previous, hread, rfl⟩ := planFile_eq_ok_iff.mp h
  exact ⟨hg, rfl, hread⟩

theorem plannedAs_of_mem (h : Plan.make d output files = .ok plan) (hf : f ∈ plan.files) :
    PlannedAs d output f f.file.path := by
  refine plannedAs_of_planFile ?_ (planFile_of_mem h hf)
  refine checkRelative_of_checkPaths (make_eq_ok_iff.mp h).1 f.file ?_
  rw [← map_file_of_make h]
  exact List.mem_map_of_mem hf

/-! ## Names of a target -/

namespace PlannedAs

variable {path : String} (h : PlannedAs d output f path)

include h

theorem noSlash : f.target.toList.getLast? ≠ some '/' := by
  obtain ⟨hne, hslash, hrelative, -⟩ := Path.checkRelative_eq_ok_iff.mp h.relative
  rwa [h.target, Path.getLast?_join output hne hrelative]

theorem parts_target : Path.parts f.target = Path.parts output ++ Path.parts path := by
  obtain ⟨-, -, hrelative, -⟩ := Path.checkRelative_eq_ok_iff.mp h.relative
  rw [h.target, Path.parts_join output hrelative]

theorem isAbsolute_target : Path.isAbsolute f.target = Path.isAbsolute output := by
  obtain ⟨-, -, hrelative, -⟩ := Path.checkRelative_eq_ok_iff.mp h.relative
  rw [h.target, Path.isAbsolute_join output hrelative]

theorem spells_target (hname : endsInName f.target = true) :
    Path.Spells f.target (Path.isAbsolute output) (Path.parts output ++ Path.parts path) := by
  obtain ⟨hne, -, hrelative, -⟩ := Path.checkRelative_eq_ok_iff.mp h.relative
  refine ⟨h.parts_target, h.isAbsolute_target, ?_⟩
  refine Path.tight_of_endsInName ?_ h.noSlash hname
  rw [h.target]
  exact Path.join_ne_empty output hne hrelative

theorem isName_of_mem {name : String} (hname : name ∈ Path.parts path) : IsName name := by
  obtain ⟨-, -, -, hup⟩ := Path.checkRelative_eq_ok_iff.mp h.relative
  refine ⟨by simpa using (List.mem_filter.mp hname).2, fun heq ↦ hup (heq ▸ hname)⟩

theorem parts_ne_nil (hname : endsInName f.target = true) : Path.parts path ≠ [] := by
  obtain ⟨hne, hslash, hrelative, -⟩ := Path.checkRelative_eq_ok_iff.mp h.relative
  refine Path.parts_ne_nil_of_endsInName hne hslash ?_
  rw [h.target] at hname
  simpa only [endsInName, Path.getLast?_segments_join output hrelative] using hname

end PlannedAs

/-! ## Where a target is -/

/-- The output directory leads somewhere on the first disk, or on the second to where nothing was on
the first. -/
def Settled (d d' : Disk) (output : String) : Prop :=
  (∃ l, d.walk (d.origin (Path.isAbsolute output)) (Path.parts output) = .ok l) ∨
    ∃ l, d'.walk (d'.origin (Path.isAbsolute output)) (Path.parts output) = .ok l ∧
      d.node? l = none

/-- Making the directory for one file settles the output directory. -/
theorem settled_of_createDirectories {d : FileTree} {p p' : Progress} {dirs temps : List Location}
    {path parent : String} (hp : Staging d p dirs temps) (hdisk : p.disk = d)
    (h : PlannedAs d output f path) (hname : endsInName f.target = true)
    (hparent : stagingDirectory? f.target = some parent)
    (hcreate : p.createDirectories parent = (p', none)) (hgrows : p'.disk.Grows d') :
    Settled d d' output := by
  have hspells := spells_stagingDirectory? hparent
  rw [h.parts_target, h.isAbsolute_target,
    List.dropLast_append_of_ne_nil (h.parts_ne_nil hname)] at hspells
  rcases hp.walk_of_createDirectories hspells (List.prefix_append _ _) hcreate with
    ⟨l, hl⟩ | ⟨l, hl, hnone⟩
  · rw [hdisk] at hl
    exact .inl ⟨l, hl⟩
  · refine .inr ⟨l, ?_, hnone⟩
    rw [origin, hgrows.home]
    exact walk_of_grows hgrows hl

/-- What was there where a target is now, was there under the path of the target. -/
theorem locate_of_settled {d : FileTree} (hgrows : d.Grows d') {path : String}
    (h : PlannedAs d output f path) (hsettled : Settled d d' output)
    (hname : endsInName f.target = true) (hlocate : d'.locate f.target = .ok l)
    (hsome : d.node? l ≠ none) : d.locate f.target = .ok l := by
  have hspells := h.spells_target hname
  have hisName : ∀ name ∈ Path.parts path, IsName name := fun _ ↦ h.isName_of_mem
  obtain ⟨husable, hwalk⟩ := (locate_of_spells hspells).mp hlocate
  obtain ⟨directory, hdirectory, hbelow⟩ := walk_append hwalk
  obtain rfl := eq_append_of_walk hisName hbelow
  have hdir : d.node? directory = some .directory :=
    d.wellFormed.above_append (h.parts_ne_nil hname) hsome
  rcases hsettled with ⟨l', hl'⟩ | ⟨l', hl', hnone⟩
  · have heq : l' = directory := by
      have hl'' := walk_of_grows hgrows hl'
      rw [origin, ← hgrows.home, ← origin, hdirectory] at hl''
      exact (Except.ok.inj hl'').symm
    rw [heq] at hl'
    exact (locate_of_spells hspells).mpr
      ⟨husable, walk_append_of hl' hdir (d.wellFormed.walk_append_self hisName hbelow hsome)⟩
  · rw [hdirectory] at hl'
    rw [Except.ok.inj hl', hnone] at hdir
    cases hdir

theorem previous_of_locate_ok {path : String} {previous : Option ByteArray}
    (h : Plan.readExisting d path = .ok previous) (hlocate : d.locate path = .ok l)
    (hslash : endsInSlash path = false) (hdir : d.node? l ≠ some .directory) :
    d.node? l = previous.map .file := by
  rw [Plan.readExisting, read_of hlocate hslash] at h
  rcases hnode : d.node? l with - | (content | _)
  · rw [hnode] at h
    cases h
    rfl
  · rw [hnode] at h
    cases h
    rfl
  · exact absurd hnode hdir

theorem previous_of_locate_error {path : String} {previous : Option ByteArray} {e : DiskError}
    (h : Plan.readExisting d path = .ok previous) (hlocate : d.locate path = .error e) :
    previous = none := by
  rw [Plan.readExisting, read_of_error hlocate] at h
  cases e <;> cases h
  rfl

/-- What a plan has recorded about a target is what was there where the target is now. -/
theorem node?_eq_previous {d : FileTree} (hgrows : d.Grows d') {path : String}
    (h : PlannedAs d output f path) (hsettled : Settled d d' output)
    (hname : endsInName f.target = true) (hlocate : d'.locate f.target = .ok l)
    (hdir : d.node? l ≠ some .directory) : d.node? l = f.previous.map .file := by
  cases hbefore : d.locate f.target with
  | ok l' =>
      have heq : l' = l := Except.ok.inj ((locate_of_grows hgrows hbefore).symm.trans hlocate)
      rw [heq] at hbefore
      exact previous_of_locate_ok h.previous hbefore (decide_eq_false h.noSlash) hdir
  | error e =>
      rw [previous_of_locate_error h.previous hbefore]
      by_contra hsome
      rw [locate_of_settled hgrows h hsettled hname hlocate hsome] at hbefore
      cases hbefore

end Scaffold

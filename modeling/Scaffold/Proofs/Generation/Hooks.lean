import Scaffold.Proofs.Apply.Outcomes
import Scaffold.Proofs.Generation.OutputPaths

/-!
# Hooks belong to the user

Only hooks are generated below the directory of hooks, and a hook never replaces what is there.  So
a run leaves alone what it finds there, whichever manifest it is for and whether it succeeds or
fails.  Runs keep disks well-formed, so this holds at any point of a history of runs and edits.
-/

namespace Scaffold

open Disk

/-! ## One run -/

theorem GeneratedFile.disposition_hook {g : GeneratedFile} (hg : g.isHook = true)
    (current : String) : g.disposition (some current) = .skipped := by
  have hoverwrite : g.overwrite = .ifMissing := by simpa [isHook] using hg
  simp only [disposition, hoverwrite]

/-- Whatever the blueprint, only hooks are below the directory of hooks. -/
theorem Standard.isHook_of_parts {b : Blueprint} {f : GeneratedFile} (hf : f ∈ files b)
    {rest : List String} (hparts : Path.parts f.path = "hooks" :: rest) : f.isHook = true := by
  have hfirst : ∀ {first more}, Path.parts f.path = first :: more → first = "hooks" := fun h ↦
    (List.cons.inj (h.symm.trans hparts)).1
  rcases cases_of_mem_files hf with hschema | rfl | hclient | ⟨r, -, rfl | rfl | rfl⟩
  · exact absurd (hfirst (madeOf_of_mem_schemaFiles hschema).parts_eq) (by decide)
  · exact absurd (hfirst (madeOf_indexFile b).parts_eq) (by decide)
  · exact absurd (hfirst (madeOf_of_mem_clientFiles hclient).parts_eq) (by decide)
  · have hrules := @Path.parts_entry_slash "validation" (by decide) (r.singular ++ ".json")
    exact absurd (hfirst hrules) (by decide)
  · have hentity := @Path.parts_entry_slash "api" (by decide) (r.singular ++ ".ts")
    exact absurd (hfirst hentity) (by decide)
  · rfl

theorem Path.spells_join_hooks (output : String) :
    Spells (join output "hooks") (isAbsolute output) (parts output ++ ["hooks"]) where
  parts := parts_join output (by decide)
  isAbsolute := isAbsolute_join output (by decide)
  tight := by
    refine tight_of_endsInName (join_ne_empty output (by decide) (by decide)) ?_ ?_
    · rw [getLast?_join output (by decide) (by decide)]
      decide
    · rw [endsInName, getLast?_segments_join output (by decide)]
      decide

/-- The hooks are in the directory of that name where the output directory leads. -/
theorem Disk.exists_base_of_hooks {d : Disk} {output : String} {hooks : Location}
    (h : d.locate (Path.join output "hooks") = .ok hooks) :
    ∃ base, d.walk (d.origin (Path.isAbsolute output)) (Path.parts output) = .ok base ∧
      hooks = base ++ ["hooks"] := by
  have hwalk := ((locate_of_spells (Path.spells_join_hooks output)).mp h).2
  obtain ⟨base, hbase, hlast⟩ := walk_append hwalk
  exact ⟨base, hbase, eq_append_of_walk (by simpa using ⟨by decide, by decide⟩) hlast⟩

theorem Standard.select_registry {reference : Option String} {t : Template}
    (h : registry.select reference = .ok t) : t = template := by
  simp only [Registry.select] at h
  split at h
  · cases h
  · next wanted hparse =>
      by_cases haccepts : wanted.accepts template = true
      · rw [registry, List.filter_cons_of_pos haccepts] at h
        exact (Except.ok.inj h).symm
      · rw [registry, List.filter_cons_of_neg haccepts] at h
        cases h

theorem Manifest.disk_concluded [Pattern.Checker] (m : Manifest) (t : Template)
    (o : GenerateOptions) (d : Disk) (files : List GeneratedFile) :
    (m.concluded t o d (.ok files)).2 = (applyFiles o files d).1 := by
  rw [concluded, Template.conclude]
  rcases applyFiles o files d with ⟨after, _ | _⟩ <;> rfl

/-- A run with the standard template applies its files, or leaves the disk alone. -/
theorem Manifest.applied_generateByM [Pattern.Checker] (d : FileTree) (m : Manifest)
    {choose : Compiled → Except RunError Template}
    (hchoose : ∀ t, choose m.compiled = .ok t → t = Standard.template) (o : GenerateOptions) :
    Applied d o.output (Standard.files (.ofManifest m))
      (Id.run (m.generateByM Template.generate .builtIn choose o d)).2 := by
  rw [generateByM_builtIn]
  split
  · split
    · next t ht =>
        rw [hchoose t ht]
        have happlied := applied_applyFiles d o (Standard.files (.ofManifest m))
        rw [← m.disk_concluded Standard.template] at happlied
        exact happlied
    · exact .idle rfl
  · exact .idle rfl

/-! ## Histories -/

/-- Something that happens to a disk: a run with the standard template, a run with the template that
the manifest asks for, or an edit, after which the disk may hold anything. -/
inductive Turn where
  | run (m : Manifest) (o : GenerateOptions)
  | runSelected (m : Manifest) (o : GenerateOptions)
  | edit (disk : FileTree)

namespace Turn

def options? : Turn → Option GenerateOptions
  | .run _ o | .runSelected _ o => some o
  | .edit _ => none

section

variable [Pattern.Checker]

def after (d : Disk) : Turn → Disk
  | .run m o => (m.generate Standard.template o d).2
  | .runSelected m o => (m.generateFrom Standard.registry o d).2
  | .edit disk => disk

/-- A run applies the files of some blueprint. -/
theorem exists_applied (d : FileTree) {t : Turn} {o : GenerateOptions}
    (ht : t.options? = some o) :
    ∃ b, Applied d o.output (Standard.files b) (t.after d) := by
  cases t with
  | run m o' =>
      cases ht
      exact ⟨_, m.applied_generateByM d (fun t ht ↦ (Except.ok.inj ht).symm) o⟩
  | runSelected m o' =>
      cases ht
      refine ⟨_, m.applied_generateByM d (fun t ht ↦ ?_) o⟩
      cases hselect : Standard.registry.select m.compiled.blueprint.template with
      | error e =>
          rw [hselect] at ht
          cases ht
      | ok selected =>
          rw [hselect] at ht
          cases ht
          exact Standard.select_registry hselect
  | edit disk => cases ht

theorem wellFormed_after (d : FileTree) (t : Turn) : (t.after d).WellFormed := by
  cases ht : t.options? with
  | none =>
      cases t with
      | edit disk => exact disk.wellFormed
      | run | runSelected => cases ht
  | some o =>
      obtain ⟨b, happlied⟩ := exists_applied d ht
      exact happlied.wellFormed

def apply (d : FileTree) (t : Turn) : FileTree := ⟨t.after d, t.wellFormed_after d⟩

/-- A run changes nothing that it finds below the directory of hooks. -/
theorem node?_apply_of_hooks (d : FileTree) {t : Turn} {o : GenerateOptions}
    (ht : t.options? = some o) {hooks l : Location} {n : Node}
    (hhooks : d.locate (Path.join o.output "hooks") = .ok hooks) (hl : Inside l hooks)
    (hnode : d.node? l = some n) : (t.apply d).node? l = some n := by
  obtain ⟨b, happlied⟩ := exists_applied d ht
  obtain ⟨base, hbase, rfl⟩ := exists_base_of_hooks hhooks
  rcases happlied.node?_cases hbase hnode with hkept | ⟨g, hg, rfl, content, -, hwritten⟩
  · exact hkept
  · obtain ⟨rest, hrest⟩ := hl.1
    rw [List.append_assoc] at hrest
    have hhook := Standard.isHook_of_parts hg (List.append_cancel_left hrest).symm
    rw [g.disposition_hook hhook] at hwritten
    cases hwritten

end

end Turn

def FileTree.afterTurns [Pattern.Checker] (turns : List Turn) : FileTree :=
  turns.foldl Turn.apply .empty

open FileTree

/-- At any point of a history, whatever a run finds below the directory of hooks is the same after
it, and is still found under the same paths. -/
theorem hooks_belong_to_user [Pattern.Checker] (turns : List Turn) (t : Turn) {o : GenerateOptions}
    (ht : t.options? = some o) {hooks l : Location} {n : Node}
    (hhooks : (afterTurns turns).locate (Path.join o.output "hooks") = .ok hooks)
    (hl : Inside l hooks) (hnode : (afterTurns turns).node? l = some n) :
    (afterTurns (turns ++ [t])).node? l = some n ∧
      ∀ path, (afterTurns turns).locate path = .ok l →
        (afterTurns (turns ++ [t])).locate path = .ok l := by
  have hstep : afterTurns (turns ++ [t]) = t.apply (afterTurns turns) :=
    List.foldl_concat _ _ _ _
  rw [hstep]
  obtain ⟨b, happlied⟩ := t.exists_applied (afterTurns turns) ht
  exact ⟨t.node?_apply_of_hooks _ ht hhooks hl hnode, fun path ↦ locate_of_grows happlied.grows⟩

def hookedDisk : FileTree where
  entries := [(["out"], .directory), (["out", "hooks"], .directory),
    (["out", "hooks", "post.ts"], .file "mine".toUTF8)]
  wellFormed := by
    refine wellFormed_of_entries rfl ?_
    simp only [List.forall_mem_cons]
    exact ⟨rfl, rfl, rfl, by simp⟩

theorem hooks_belong_to_user_hookedDisk :
    (titled "Post").validate.valid = true ∧
      (afterTurns ([.edit hookedDisk] ++ [.run (titled "Post") ⟨"/out", false⟩])).node?
        ["out", "hooks", "post.ts"] = some (.file "mine".toUTF8) := by
  have hlocate : (afterTurns [.edit hookedDisk]).locate (Path.join "/out" "hooks") =
      .ok ["out", "hooks"] := by
    rfl
  have hnode : (afterTurns [.edit hookedDisk]).node? ["out", "hooks", "post.ts"] =
      some (.file "mine".toUTF8) := by
    rfl
  refine ⟨by decide +kernel, ?_⟩
  exact (hooks_belong_to_user _ (.run (titled "Post") ⟨"/out", false⟩) rfl hlocate
    ⟨⟨["post.ts"], rfl⟩, by decide⟩ hnode).1

end Scaffold

import Scaffold.Proofs.Apply.Directories
import Scaffold.Proofs.Apply.Outcomes

/-!
# Plans that only replace files

Where every file to be written is there already, no directory is missing and nothing is in the way.
So the plan is carried out, and all that changes is what the files hold.
-/

namespace Scaffold

open Disk

variable {d d' : Disk} {output path : String} {files : List GeneratedFile} {plan : Plan}
  {f : PlannedFile} {l : Location}

/-! ## The directory of a file -/

theorem usable_stagingDirectory? {target parent : String}
    (h : stagingDirectory? target = some parent) (htarget : Usable target) : Usable parent := by
  obtain ⟨up, hup, rfl⟩ := Option.map_eq_some_iff.mp h
  split
  · exact ⟨by decide, by decide, by decide⟩
  · next hne =>
      refine htarget.of_parent? hup fun hempty ↦ hne ?_
      rw [hempty]
      rfl

/-! ## Files that are replaced -/

structure Replaces (d : Disk) (f : PlannedFile) : Prop where
  named : endsInName f.target = true
  there : ∃ l content, d.locate f.target = .ok l ∧ d.node? l = some (.file content)
  directory : ∃ parent up, stagingDirectory? f.target = some parent ∧ d.locate parent = .ok up ∧
    d.node? up = some .directory

/-- A planned file that can be read replaces a file in a directory that is there. -/
theorem PlannedAs.replaces {d : FileTree} (h : PlannedAs d output f path)
    {content : ByteArray} (hread : d.read f.target = .ok content) : Replaces d f := by
  obtain ⟨l, hlocate, hfile⟩ := (read_eq_ok_iff (decide_eq_false h.noSlash)).mp hread
  have hname := h.endsInName_of_file hlocate hfile
  have hne := h.parts_ne_nil hname
  have hparts : Path.parts f.target ≠ [] := by
    rw [h.parts_target]
    exact List.append_ne_nil_of_right_ne_nil _ hne
  obtain ⟨up, hup⟩ := Option.ne_none_iff_exists'.mp (Path.parent?_ne_none hparts)
  have hparent : stagingDirectory? f.target = some (if up.isEmpty then "." else up) := by
    rw [stagingDirectory?, hup, Option.map_some]
  refine ⟨hname, ⟨l, content, hlocate, hfile⟩, _, l.dropLast, hparent, ?_,
    locate_dropLast d.wellFormed hlocate⟩
  -- the walk to the file goes by way of its directory
  obtain ⟨husable, hwalk⟩ := (locate_of_spells (h.spells_target hname)).mp hlocate
  have hspells := spells_stagingDirectory? hparent
  rw [← h.parts_target, ← List.dropLast_append_getLast hparts] at hwalk
  obtain ⟨middle, hmiddle, hlast⟩ := walk_append hwalk
  have hisName : IsName ((Path.parts f.target).getLast hparts) := by
    have heq : (Path.parts f.target).getLast hparts = (Path.parts path).getLast hne := by
      simp only [h.parts_target, List.getLast_append_of_ne_nil _ hne]
    rw [heq]
    exact h.isName_of_mem (List.getLast_mem hne)
  obtain rfl := eq_append_of_walk (List.forall_mem_singleton.mpr hisName) hlast
  rw [List.dropLast_concat, locate_of_spells hspells, h.isAbsolute_target]
  exact ⟨usable_stagingDirectory? hparent husable, hmiddle⟩

/-- Where all files can be read there is a plan for them, which only replaces files. -/
theorem make_of_read {d : FileTree} (hpaths : Plan.checkPaths [] files = .ok ())
    (hread : ∀ g ∈ files, ∃ content, d.read (Path.join output g.path) = .ok content) :
    ∃ plan, Plan.make d output files = .ok plan ∧ ∀ f ∈ plan.files, Replaces d f := by
  have hplan : ∀ g ∈ files, ∃ f, Plan.planFile d output g = .ok f := by
    intro g hg
    obtain ⟨content, hcontent⟩ := hread g hg
    exact ⟨_, planFile_eq_ok_iff.mpr ⟨some content, readExisting_eq_some_iff.mpr hcontent, rfl⟩⟩
  obtain ⟨planned, hplanned⟩ := exists_mapM hplan
  have hmake : Plan.make d output files = .ok ⟨planned⟩ := make_eq_ok_iff.mpr ⟨hpaths, hplanned⟩
  refine ⟨⟨planned⟩, hmake, fun f hf ↦ ?_⟩
  have hfile : f.file ∈ files := by
    rw [← map_file_of_make hmake]
    exact List.mem_map_of_mem hf
  have hplannedAs := plannedAs_of_mem hmake hf
  obtain ⟨content, hcontent⟩ := hread f.file hfile
  rw [← hplannedAs.target] at hcontent
  exact hplannedAs.replaces hcontent

theorem Replaces.grows (h : Replaces d f) (hgrows : d.Grows d') :
    ∃ parent up, stagingDirectory? f.target = some parent ∧ d'.locate parent = .ok up ∧
      d'.node? up = some .directory := by
  obtain ⟨parent, up, hparent, hlocate, hdir⟩ := h.directory
  exact ⟨parent, up, hparent, locate_of_grows hgrows hlocate, hgrows.directory _ hdir⟩

theorem createDirectories_of_directory {p : Progress} {parent : String} {up : Location}
    (hlocate : p.disk.locate parent = .ok up) (hdir : p.disk.node? up = some .directory) :
    p.createDirectories parent = (p, none) := by
  have hparent := isDirectoryAt_iff.mpr ⟨up, hlocate, hdir⟩
  exact Progress.createDirectories_of_existsAt (existsAt_of_isDirectoryAt hparent)

theorem stageFile_of_replaces {p : Progress} (hgrows : d.Grows p.disk) (hf : Replaces d f) :
    ∃ p' s, stageFile p f = (p', .ok s) ∧ p.disk.Grows p'.disk := by
  obtain ⟨parent, up, hparent, hlocate, hdir⟩ := hf.grows hgrows
  have hcreate := createDirectories_of_directory hlocate hdir
  have htemporary : p.disk.createTemporary parent f.file.content.toUTF8 = .ok
      (up ++ [p.disk.freshName up],
        p.disk.put (up ++ [p.disk.freshName up]) (.file f.file.content.toUTF8)) :=
    createTemporary_eq_ok_iff.mpr ⟨up, hlocate, hdir, rfl, rfl⟩
  refine ⟨_, _, by simp only [stageFile, hparent, hcreate, htemporary]; rfl, ?_⟩
  exact (extends_put (p.disk.exists_freshName up).2 _).grows

/-- Where all directories are there, all files can be staged. -/
theorem stage_of_replaces {planned : List PlannedFile} {p : Progress} {staged : List StagedFile}
    (hgrows : d.Grows p.disk) (h : ∀ f ∈ planned, Replaces d f) :
    ∃ p' staged', stage p staged planned = (p', staged', none) := by
  induction planned generalizing p staged with
  | nil => exact ⟨p, staged, rfl⟩
  | cons f planned ih =>
      obtain ⟨hf, hplanned⟩ := List.forall_mem_cons.mp h
      obtain ⟨p', s, hfile, hmore⟩ := stageFile_of_replaces hgrows hf
      obtain ⟨p'', staged', hstage⟩ := @ih p' (staged ++ [s]) (hgrows.trans hmore) hplanned
      exact ⟨p'', staged', by rw [stage, hfile]; exact hstage⟩

/-- Where only files are in the way, all files can be moved. -/
theorem persist_of_targets {p : Progress} {done : List PlannedFile} {staged : List StagedFile}
    (hhidden : ∀ s ∈ staged, ¬ Visible p.disk.home s.temporary)
    (hwaits : ∀ s ∈ staged, p.disk.node? s.temporary =
      some (.file s.planned.file.content.toUTF8))
    (hnodup : (staged.map StagedFile.temporary).Nodup)
    (htargets : ∀ s ∈ staged, endsInName s.planned.target = true ∧
      ∃ l, p.disk.locate s.planned.target = .ok l ∧ p.disk.node? l ≠ some .directory) :
    ∃ after, persist p done staged = (after, none) := by
  induction staged generalizing p done with
  | nil => exact ⟨p.disk, rfl⟩
  | cons s staged ih =>
      obtain ⟨hsHidden, hhidden⟩ := List.forall_mem_cons.mp hhidden
      obtain ⟨hsWaits, hwaits⟩ := List.forall_mem_cons.mp hwaits
      obtain ⟨hsNew, hnodup⟩ := List.nodup_cons.mp hnodup
      obtain ⟨⟨hname, l, hlocate, hdir⟩, htargets⟩ := List.forall_mem_cons.mp htargets
      have hmove := moveFile_eq_ok_iff.mpr ⟨hname, l, _, hlocate, hdir, hsWaits, rfl⟩
      obtain ⟨l', hlocate', -, halike, hnode⟩ := moveFile_hidden hmove hsHidden hsWaits
      rw [persist, hmove]
      refine ih ?_ ?_ hnodup ?_
      · intro s' hs'
        rw [halike.there.home]
        exact hhidden s' hs'
      · intro s' hs'
        have hne : s'.temporary ≠ l' := by
          rintro rfl
          exact hhidden s' hs' (visible_of_locate hlocate')
        have hne' : s'.temporary ≠ s.temporary := fun heq ↦
          hsNew (heq ▸ List.mem_map_of_mem hs')
        rw [hnode, if_neg hne, if_neg hne', hwaits s' hs']
      · intro s' hs'
        obtain ⟨hname', l'', hlocate'', hdir'⟩ := htargets s' hs'
        refine ⟨hname', l'', halike.locate_iff.mpr hlocate'', fun hdir ↦ hdir' ?_⟩
        exact halike.back.directory _ hdir

/-- A plan that only replaces files is carried out, and leaves all other places as they were. -/
theorem commit_of_replaces {d : FileTree} (hmake : Plan.make d output files = .ok plan)
    (h : ∀ f ∈ plan.toWrite, Replaces d f) :
    ∃ after, plan.commit d = (after, .ok plan.report) ∧
      ∀ l, (∀ f ∈ plan.toWrite, d.locate f.target ≠ .ok l) → after.node? l = d.node? l := by
  obtain ⟨p, staged, hstage⟩ := @stage_of_replaces d plan.toWrite ⟨d, []⟩ [] (.refl d) h
  obtain ⟨hplanned, dirs, hprepared⟩ := (Prepared.start d).stage hstage
  have hplanned : staged.map StagedFile.planned = plan.toWrite := hplanned
  have hgrows := hprepared.staging.grows
  have htargets : ∀ s ∈ staged, endsInName s.planned.target = true ∧
      ∃ l, p.disk.locate s.planned.target = .ok l ∧ p.disk.node? l ≠ some .directory := by
    intro s hs
    have hreplaces := h s.planned (hplanned ▸ List.mem_map_of_mem hs)
    obtain ⟨l, content, hlocate, hfile⟩ := hreplaces.there
    refine ⟨hreplaces.named, l, locate_of_grows hgrows hlocate, fun hdir ↦ ?_⟩
    rcases hprepared.staging.mem_or_of_directory hdir with hmade | hbefore
    · rw [hprepared.staging.traced.free_of_mem l hmade] at hfile
      cases hfile
    · rw [hbefore] at hfile
      cases hfile
  obtain ⟨after, hpersist⟩ := @persist_of_targets p [] staged
    (fun s hs ↦ by
      rw [hprepared.staging.home]
      exact hprepared.staging.hidden _ (List.mem_map_of_mem hs))
    (fun s hs ↦ (hprepared.waits s hs).holds) hprepared.staging.nodup htargets
  have hcommit : plan.commit d = (after, .ok plan.report) := by
    rw [Plan.commit, hstage]
    simp only [hpersist]
  refine ⟨after, hcommit, fun l hl ↦ ?_⟩
  obtain ⟨-, p', dirs', staged', hcommitted⟩ := committed_of_commit hmake hcommit
  have htarget : ∀ f ∈ plan.toWrite, ∀ {l}, after.locate f.target = .ok l →
      d.locate f.target = .ok l ∧ d.node? l ≠ none := by
    intro f hf l hlocate
    obtain ⟨l', content, hlocate', hfile⟩ := (h f hf).there
    obtain rfl := Except.ok.inj ((locate_of_grows hcommitted.grows hlocate').symm.trans hlocate)
    exact ⟨hlocate', by rw [hfile]; exact Option.some_ne_none _⟩
  have hother : ∀ f ∈ plan.toWrite, after.locate f.target ≠ .ok l := fun f hf hlocate ↦
    hl f hf (htarget f hf hlocate).1
  rcases hcommitted.node?_other hmake hother with heq | ⟨hnone, -, f, hf, target, hlocate, hinside⟩
  · exact heq
  · -- directories above a file are there already
    exact absurd (d.wellFormed.node?_inside hinside (by simp [hnone])) (htarget f hf hlocate).2

end Scaffold

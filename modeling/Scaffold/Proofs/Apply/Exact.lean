import Scaffold.Generation.Basic
import Scaffold.Proofs.Apply.Moving
import Scaffold.Proofs.Apply.Plans

/-!
# Successful commits

A commit that succeeds writes exactly the files that its plan was to write, and makes no directories
but those that were missing above them.  A plan for the same files then finds nothing to do.
-/

namespace Scaffold

open Disk

variable {d : FileTree} {d' after : Disk} {output path : String} {files : List GeneratedFile}
  {plan : Plan} {f : PlannedFile} {l : Location}

/-! ## Files that are there -/

theorem Text.decodeLossy_toUTF8 (s : String) : Text.decodeLossy s.toUTF8 = s := by
  have hvalid : String.fromUTF8? s.toUTF8 = some s := by
    rw [String.fromUTF8?, String.toUTF8_eq_toByteArray, dif_pos s.isValidUTF8]
    rfl
  rw [Text.decodeLossy, hvalid]

/-- The path of a file ends in a name. -/
theorem PlannedAs.endsInName_of_file (h : PlannedAs d output f path)
    (hlocate : d.locate f.target = .ok l) {content : ByteArray}
    (hfile : d.node? l = some (.file content)) : endsInName f.target = true := by
  obtain ⟨-, -, hrelative, hup⟩ := Path.checkRelative_eq_ok_iff.mp h.relative
  have hlast := List.getLast?_eq_some_getLast (Path.segments_ne_nil path)
  set last := (Path.segments path).getLast (Path.segments_ne_nil path)
  have htarget : (Path.segments f.target).getLast? = some last := by
    rw [h.target, Path.getLast?_segments_join output hrelative, hlast]
  rw [endsInName, htarget]
  simp only [Bool.and_eq_true, bne_iff_ne]
  constructor
  · -- A dot leaves one in a directory, where the file is not.
    intro heq
    obtain ⟨init, hinit⟩ := List.getLast?_eq_some_iff.mp htarget
    have hwalk := (locate_eq_ok_iff.mp hlocate).2
    rw [Path.dropSlashes_of_noSlash h.noSlash, hinit] at hwalk
    have hdir := d.wellFormed.walk_concat_idle (by rw [heq]; rfl) (d.wellFormed.node?_origin _)
      hwalk
    rw [hfile] at hdir
    cases hdir
  · intro heq
    refine hup (List.mem_filter.mpr ⟨?_, by decide⟩)
    exact List.mem_of_getLast? (heq ▸ hlast)

/-! ## What a commit does -/

/-- A commit that has succeeded, by way of the disk on which all files are staged. -/
structure Committed (d : FileTree) (plan : Plan) (p : Progress) (dirs : List Location)
    (staged : List StagedFile) (after : Disk) : Prop where
  prepared : Prepared d p dirs staged
  planned : staged.map StagedFile.planned = plan.toWrite
  names : ∀ s ∈ staged, endsInName s.planned.target = true
  moved : Moved p.disk staged after

theorem nodup_parts_planned {d : Disk} (h : Plan.make d output files = .ok plan) :
    (plan.files.map fun f ↦ Path.parts f.file.path).Nodup := by
  have hnodup := nodup_parts_of_make h
  rwa [← map_file_of_make h, List.map_map] at hnodup

/-- A commit that reports success has staged all files and moved them to their targets. -/
theorem committed_of_commit (hmake : Plan.make d output files = .ok plan)
    {report : ApplyReport} (hcommit : plan.commit d = (after, .ok report)) :
    report = plan.report ∧ ∃ p dirs staged, Committed d plan p dirs staged after := by
  rcases hstage : stage ⟨d, []⟩ [] plan.toWrite with ⟨p, staged, - | reasons⟩
  · rcases hpersist : persist p [] staged with ⟨disk, - | reasons⟩
    · simp only [Plan.commit, hstage, hpersist] at hcommit
      cases hcommit
      obtain ⟨hplanned, dirs, hprepared⟩ := (Prepared.start d).stage hstage
      have hplanned : staged.map StagedFile.planned = plan.toWrite := hplanned
      have hnames := endsInName_of_persist hpersist
      have hplannedAs : ∀ s ∈ staged, PlannedAs d output s.planned s.planned.file.path := by
        intro s hs
        exact plannedAs_of_mem hmake (mem_toWrite.mp (hplanned ▸ List.mem_map_of_mem hs)).1
      have hapart : staged.Pairwise (TargetsApart p.disk) := by
        have hwritten : plan.toWrite.Sublist plan.files := List.filter_sublist
        have hparts := (List.pairwise_map.mp (nodup_parts_planned hmake)).sublist hwritten
        rw [← hplanned, List.pairwise_map] at hparts
        refine hparts.imp_of_mem fun {s s'} hs hs' hne l hl hl' ↦ hne ?_
        exact (hplannedAs s hs).parts_eq_of_locate (hplannedAs s' hs') (hnames s hs)
          (hnames s' hs') hl hl'
      refine ⟨rfl, p, _, staged, hprepared, hplanned, hnames, ?_⟩
      refine moved_of_persist (fun s hs ↦ ?_) (fun s hs ↦ (hprepared.waits s hs).holds)
        hprepared.staging.nodup hapart hpersist
      rw [hprepared.staging.home]
      exact hprepared.staging.hidden _ (List.mem_map_of_mem hs)
    · simp [Plan.commit, hstage, hpersist] at hcommit
  · simp [Plan.commit, hstage] at hcommit

/-- Whether one disk is another after files with the given paths have been written. -/
structure Disk.Updated (d : Disk) (output : String) (files : List GeneratedFile)
    (written : List String) (after : Disk) : Prop where
  home : after.home = d.home
  read_written : ∀ g ∈ files, g.path ∈ written →
    after.read (Path.join output g.path) = .ok g.content.toUTF8
  others : ∀ l, (∀ path ∈ written, after.locate (Path.join output path) ≠ .ok l) →
    after.node? l = d.node? l ∨
      d.node? l = none ∧ after.node? l = some .directory ∧
        ∃ path ∈ written, ∃ target, after.locate (Path.join output path) = .ok target ∧
          Inside target l

namespace Committed

variable {p : Progress} {dirs : List Location} {staged : List StagedFile}

theorem grows (h : Committed d plan p dirs staged after) : d.Grows after :=
  h.prepared.staging.grows.trans h.moved.alike.there

theorem mem_toWrite_of_mem (h : Committed d plan p dirs staged after) {s : StagedFile}
    (hs : s ∈ staged) : s.planned ∈ plan.toWrite := by
  rw [← h.planned]
  exact List.mem_map_of_mem hs

theorem exists_staged (h : Committed d plan p dirs staged after) (hf : f ∈ plan.toWrite) :
    ∃ s ∈ staged, s.planned = f := by
  rw [← h.planned] at hf
  exact List.mem_map.mp hf

theorem exists_target (h : Committed d plan p dirs staged after) (hf : f ∈ plan.toWrite) :
    ∃ l, after.locate f.target = .ok l ∧ after.node? l = some (.file f.file.content.toUTF8) := by
  obtain ⟨s, hs, rfl⟩ := h.exists_staged hf
  obtain ⟨l, hlocate, hnode⟩ := h.moved.placed s hs
  exact ⟨l, h.moved.alike.locate_iff.mpr hlocate, hnode⟩

theorem read_written (h : Committed d plan p dirs staged after)
    (hmake : Plan.make d output files = .ok plan) (hf : f ∈ plan.toWrite) :
    after.read f.target = .ok f.file.content.toUTF8 := by
  have hslash := decide_eq_false (plannedAs_of_mem hmake (mem_toWrite.mp hf).1).noSlash
  exact (read_eq_ok_iff hslash).mpr (h.exists_target hf)

theorem inside_of_made (h : Committed d plan p dirs staged after)
    (hmake : Plan.make d output files = .ok plan) (hl : l ∈ dirs) :
    ∃ f ∈ plan.toWrite, ∃ target, after.locate f.target = .ok target ∧ Inside target l := by
  obtain ⟨s, hs, hprefix⟩ := h.prepared.above l hl
  obtain ⟨parent, hparent, hup⟩ := (h.prepared.waits s hs).leads
  obtain ⟨target, hlocate, -⟩ := h.moved.placed s hs
  have hf := h.mem_toWrite_of_mem hs
  obtain ⟨hne, hdirectory⟩ := (plannedAs_of_mem hmake (mem_toWrite.mp hf).1).dropLast_of_locate
    (h.names s hs) hparent hup hlocate
  refine ⟨s.planned, hf, target, h.moved.alike.locate_iff.mpr hlocate, ?_⟩
  rwa [inside_iff_prefix_dropLast hne, hdirectory]

/-- What is no target is as it was, or a directory above a target. -/
theorem node?_other (h : Committed d plan p dirs staged after)
    (hmake : Plan.make d output files = .ok plan)
    (hl : ∀ f ∈ plan.toWrite, after.locate f.target ≠ .ok l) :
    after.node? l = d.node? l ∨ d.node? l = none ∧ after.node? l = some .directory ∧
      ∃ f ∈ plan.toWrite, ∃ target, after.locate f.target = .ok target ∧ Inside target l := by
  by_cases htemp : l ∈ staged.map StagedFile.temporary
  · left
    rw [h.prepared.staging.fresh l htemp]
    obtain ⟨s, hs, rfl⟩ := List.mem_map.mp htemp
    exact h.moved.gone s hs
  · have hrest : after.node? l = p.disk.node? l := by
      refine h.moved.rest l fun s hs ↦ ⟨?_, fun hleads ↦ ?_⟩
      · rintro rfl
        exact htemp (List.mem_map_of_mem hs)
      · exact hl s.planned (h.mem_toWrite_of_mem hs) (h.moved.alike.locate_iff.mpr hleads)
    by_cases hdirs : l ∈ dirs
    · right
      rw [hrest, h.prepared.staging.made l hdirs]
      exact ⟨h.prepared.staging.traced.free_of_mem l hdirs, rfl, h.inside_of_made hmake hdirs⟩
    · left
      rw [hrest, h.prepared.staging.rest l hdirs htemp]

/-- A file that is not written can be read afterwards as before. -/
theorem read_kept (h : Committed d plan p dirs staged after)
    (hmake : Plan.make d output files = .ok plan) (hf : f ∈ plan.files)
    (hkept : f.disposition ≠ .written) {content : ByteArray}
    (hread : d.read f.target = .ok content) : after.read f.target = .ok content := by
  have hplanned := plannedAs_of_mem hmake hf
  have hslash := decide_eq_false hplanned.noSlash
  obtain ⟨l, hlocate, hfile⟩ := (read_eq_ok_iff hslash).mp hread
  have hname := hplanned.endsInName_of_file hlocate hfile
  have hlocate := locate_of_grows h.grows hlocate
  refine (read_eq_ok_iff hslash).mpr ⟨l, hlocate, ?_⟩
  -- A written file in the same place has the same parts, and so is the file itself.
  have hother : ∀ g ∈ plan.toWrite, after.locate g.target ≠ .ok l := by
    intro g hg hleads
    obtain ⟨hgmem, hgwritten⟩ := mem_toWrite.mp hg
    obtain ⟨s, hs, rfl⟩ := h.exists_staged hg
    have hparts := hplanned.parts_eq_of_locate (plannedAs_of_mem hmake hgmem) hname (h.names s hs)
      hlocate hleads
    have heq := List.inj_on_of_nodup_map (nodup_parts_planned hmake) hf hgmem hparts
    exact hkept (heq ▸ hgwritten)
  rcases h.node?_other hmake hother with heq | ⟨hnone, -⟩
  · rw [heq, hfile]
  · rw [hfile] at hnone
    cases hnone

/-- After a commit the written files are in their places, and all else is as it was. -/
theorem updated (h : Committed d plan p dirs staged after)
    (hmake : Plan.make d output files = .ok plan) :
    d.Updated output files plan.report.written after := by
  have hpath : ∀ path, path ∈ plan.report.written ↔ ∃ f ∈ plan.toWrite, f.file.path = path :=
    fun path ↦ List.mem_map
  have htarget : ∀ f ∈ plan.toWrite, f.target = Path.join output f.file.path := fun f hf ↦
    (plannedAs_of_mem hmake (mem_toWrite.mp hf).1).target
  refine ⟨h.grows.home, fun g hg hwritten ↦ ?_, fun l hl ↦ ?_⟩
  · obtain ⟨f, hf, heq⟩ := (hpath g.path).mp hwritten
    have hmem : f.file ∈ files := by
      rw [← map_file_of_make hmake]
      exact List.mem_map_of_mem (mem_toWrite.mp hf).1
    obtain rfl := List.inj_on_of_nodup_map (nodup_paths_of_make hmake) hmem hg heq
    rw [← htarget f hf]
    exact h.read_written hmake hf
  · have hother : ∀ f ∈ plan.toWrite, after.locate f.target ≠ .ok l := by
      intro f hf
      rw [htarget f hf]
      exact hl _ ((hpath _).mpr ⟨f, hf, rfl⟩)
    refine (h.node?_other hmake hother).imp_right ?_
    rintro ⟨hnone, hdir, f, hf, target, hlocate, hinside⟩
    rw [htarget f hf] at hlocate
    exact ⟨hnone, hdir, f.file.path, (hpath _).mpr ⟨f, hf, rfl⟩, target, hlocate, hinside⟩

end Committed

/-! ## Planning again -/

namespace GeneratedFile

def settled (g : GeneratedFile) : Disposition := if g.isHook then .skipped else .unchanged

theorem disposition_content (g : GeneratedFile) : g.disposition (some g.content) = g.settled := by
  cases h : g.overwrite <;> simp [disposition, settled, isHook, h]

theorem exists_of_disposition_ne {g : GeneratedFile} {existing : Option String}
    (h : g.disposition existing ≠ .written) :
    ∃ current, existing = some current ∧ g.disposition (some current) = g.settled := by
  cases existing with
  | none => simp [disposition] at h
  | some current =>
      refine ⟨current, rfl, ?_⟩
      cases hoverwrite : g.overwrite with
      | ifMissing => simp [disposition, settled, isHook, hoverwrite]
      | always => simp_all [disposition, settled, isHook]

end GeneratedFile

theorem commit_of_toWrite_eq_nil {d : Disk} (h : plan.toWrite = []) :
    plan.commit d = (d, .ok plan.report) := by
  simp [Plan.commit, h, stage, persist]

namespace Committed

variable {p : Progress} {dirs : List Location} {staged : List StagedFile}

/-- After a commit every file is found, and nothing remains to be done about it. -/
theorem planFile_again (h : Committed d plan p dirs staged after)
    (hmake : Plan.make d output files = .ok plan) {g : GeneratedFile} (hg : g ∈ files) :
    ∃ f, Plan.planFile after output g = .ok f ∧ f.disposition = g.settled := by
  rw [← map_file_of_make hmake] at hg
  obtain ⟨f, hf, rfl⟩ := List.mem_map.mp hg
  obtain ⟨previous, hread, heq⟩ := planFile_eq_ok_iff.mp (planFile_of_mem hmake hf)
  have htarget : f.target = Path.join output f.file.path := (plannedAs_of_mem hmake hf).target
  have hagain : ∀ content, after.read f.target = .ok content →
      f.file.disposition (some (Text.decodeLossy content)) = f.file.settled →
      ∃ f', Plan.planFile after output f.file = .ok f' ∧ f'.disposition = f.file.settled := by
    intro content hcontent hsettled
    refine ⟨_, planFile_eq_ok_iff.mpr ⟨some content, ?_, rfl⟩, hsettled⟩
    rwa [readExisting_eq_some_iff, ← htarget]
  by_cases hwritten : f.disposition = .written
  · refine hagain _ (h.read_written hmake (mem_toWrite.mpr ⟨hf, hwritten⟩)) ?_
    rw [Text.decodeLossy_toUTF8]
    exact f.file.disposition_content
  · have hdisposition : f.disposition = f.file.disposition (previous.map Text.decodeLossy) :=
      congrArg PlannedFile.disposition heq
    obtain ⟨current, hcurrent, hsettled⟩ :=
      GeneratedFile.exists_of_disposition_ne (hdisposition ▸ hwritten)
    obtain ⟨content, rfl, rfl⟩ := Option.map_eq_some_iff.mp hcurrent
    refine hagain content (h.read_kept hmake hf hwritten ?_) hsettled
    rwa [htarget, ← readExisting_eq_some_iff]

/-- A plan for the same files can be made after a commit, and leaves every file as it is. -/
theorem make_again (h : Committed d plan p dirs staged after)
    (hmake : Plan.make d output files = .ok plan) :
    ∃ again, Plan.make after output files = .ok again ∧
      ∀ f ∈ again.files, f.disposition = f.file.settled := by
  obtain ⟨planned, hplanned⟩ := exists_mapM fun g hg ↦
    (h.planFile_again hmake hg).imp fun _ hf ↦ hf.1
  have hagain : Plan.make after output files = .ok ⟨planned⟩ :=
    make_eq_ok_iff.mpr ⟨(make_eq_ok_iff.mp hmake).1, hplanned⟩
  refine ⟨⟨planned⟩, hagain, fun f hf ↦ ?_⟩
  have hmem : f.file ∈ files := by
    rw [← map_file_of_make hagain]
    exact List.mem_map_of_mem hf
  obtain ⟨f', hf', hsettled⟩ := h.planFile_again hmake hmem
  rw [planFile_of_mem hagain hf] at hf'
  cases hf'
  exact hsettled

end Committed

/-- A plan that leaves every file as it is reports nothing as written. -/
theorem report_of_settled {d : Disk} (hmake : Plan.make d output files = .ok plan)
    (h : ∀ f ∈ plan.files, f.disposition = f.file.settled) :
    plan.report = ⟨[], (files.filter (!·.isHook)).map GeneratedFile.path,
      (files.filter (·.isHook)).map GeneratedFile.path⟩ := by
  have hpaths := pathsOf_of_verdict GeneratedFile.settled h
  rw [map_file_of_make hmake] at hpaths
  have hfilter : ∀ disposition test, (∀ g : GeneratedFile, (g.settled == disposition) = test g) →
      plan.pathsOf disposition = (files.filter test).map GeneratedFile.path := by
    intro disposition test htest
    rw [hpaths, funext htest]
  rw [Plan.report, hfilter .written (fun _ ↦ false), hfilter .unchanged (!·.isHook),
    hfilter .skipped (·.isHook), List.filter_false, List.map_nil]
  all_goals
    intro g
    cases hhook : g.isHook <;> simp [GeneratedFile.settled, hhook]

/-- A commit that succeeds does what its plan foretold: the files that it reports as written hold
their contents, and all else is as it was, but for directories that were missing above them.  After
it, there is nothing left to do. -/
theorem commit_writes_exactly (hmake : Plan.make d output files = .ok plan)
    {report : ApplyReport} (hcommit : plan.commit d = (after, .ok report)) :
    applyFiles ⟨output, true⟩ files d = (d.toDisk, .ok report) ∧
      report.Divides (files.map GeneratedFile.path) ∧
      d.Updated output files report.written after ∧
      ∃ again, Plan.make after output files = .ok again ∧
        again.report = ⟨[], (files.filter (!·.isHook)).map GeneratedFile.path,
          (files.filter (·.isHook)).map GeneratedFile.path⟩ ∧
        again.commit after = (after, .ok again.report) := by
  obtain ⟨rfl, p, dirs, staged, hcommitted⟩ := committed_of_commit hmake hcommit
  obtain ⟨again, hagain, hsettled⟩ := hcommitted.make_again hmake
  have hnothing : again.toWrite = [] := by
    rw [Plan.toWrite, List.filter_eq_nil_iff]
    intro f hf
    rw [hsettled f hf, GeneratedFile.settled]
    split <;> decide
  refine ⟨?_, divides_report hmake, hcommitted.updated hmake, again, hagain,
    report_of_settled hagain hsettled, commit_of_toWrite_eq_nil hnothing⟩
  simp [applyFiles, hmake]

def usedDisk : FileTree where
  entries :=
    [(["other"], .file "text".toUTF8), (["out"], .directory), (["out", "same"], .file "a".toUTF8),
      (["out", "old"], .file "b".toUTF8), (["out", "hook"], .file "mine".toUTF8)]
  wellFormed := by
    refine wellFormed_of_entries rfl ?_
    simp only [List.forall_mem_cons]
    exact ⟨rfl, rfl, rfl, rfl, rfl, by simp⟩

def newFiles : List GeneratedFile :=
  [.generated "sub/new" "d", .generated "same" "a", .hook "hook" "yours", .generated "./old" "c"]

theorem commit_writes_exactly_usedDisk :
    ∃ plan report after, Plan.make usedDisk "/out" newFiles = .ok plan ∧
      plan.commit usedDisk = (after, .ok report) ∧
      report = ⟨["sub/new", "./old"], ["same"], ["hook"]⟩ ∧
      applyFiles ⟨"/out", true⟩ newFiles usedDisk = (usedDisk.toDisk, .ok report) ∧
      report.Divides (newFiles.map GeneratedFile.path) ∧
      usedDisk.Updated "/out" newFiles report.written after ∧
      ∃ again, Plan.make after "/out" newFiles = .ok again ∧
        again.report = ⟨[], (newFiles.filter (!·.isHook)).map GeneratedFile.path,
          (newFiles.filter (·.isHook)).map GeneratedFile.path⟩ ∧
        again.commit after = (after, .ok again.report) := by
  have hreport : (Plan.make usedDisk "/out" newFiles).toOption.any (fun plan ↦
      (plan.commit usedDisk).2.toOption == some ⟨["sub/new", "./old"], ["same"], ["hook"]⟩) =
      true := by
    decide +kernel
  obtain ⟨plan, hmake, hreport⟩ := exists_ok_of_any hreport
  rcases hcommit : plan.commit usedDisk with ⟨after, reasons | report⟩
  · rw [hcommit] at hreport
    cases hreport
  · rw [hcommit] at hreport
    refine ⟨plan, report, after, hmake, hcommit, ?_,
      commit_writes_exactly hmake hcommit⟩
    exact Option.some.inj (beq_iff_eq.mp hreport)

end Scaffold

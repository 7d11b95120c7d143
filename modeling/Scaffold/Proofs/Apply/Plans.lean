import Mathlib.Data.List.Nodup
import Mathlib.Data.List.Perm.Basic
import Scaffold.Apply.Plan
import Scaffold.Proofs.Outcome

/-!
# Plans

A plan has every file once, and its report divides their paths.  What becomes of a file follows from
what is under its path.
-/

namespace Scaffold

variable {d : Disk} {output : String} {files : List GeneratedFile} {plan : Plan}
  {f : PlannedFile} {g : GeneratedFile}

/-! ## Making a plan -/

theorem make_eq_ok_iff : Plan.make d output files = .ok plan ↔
    Plan.checkPaths [] files = .ok () ∧ files.mapM (Plan.planFile d output) = .ok plan.files := by
  rw [Plan.make, bind_eq_ok]
  constructor
  · rintro ⟨⟨⟩, hcheck, h⟩
    obtain ⟨planned, hplanned, h⟩ := bind_eq_ok.mp h
    cases h
    exact ⟨hcheck, hplanned⟩
  · rintro ⟨hcheck, hplanned⟩
    exact ⟨(), hcheck, bind_eq_ok.mpr ⟨plan.files, hplanned, rfl⟩⟩

theorem readExisting_eq_some_iff {path : String} {content : ByteArray} :
    Plan.readExisting d path = .ok (some content) ↔ d.read path = .ok content := by
  rw [Plan.readExisting]
  split <;> simp_all

theorem planFile_eq_ok_iff : Plan.planFile d output g = .ok f ↔
    ∃ previous, Plan.readExisting d (Path.join output g.path) = .ok previous ∧
      f = ⟨g, Path.join output g.path, previous,
        g.disposition (previous.map Text.decodeLossy)⟩ := by
  delta Plan.planFile
  dsimp only
  cases Plan.readExisting d (Path.join output g.path) with
  | error e => simp
  | ok previous => simp [eq_comm]

theorem map_file_of_make (h : Plan.make d output files = .ok plan) :
    plan.files.map PlannedFile.file = files := by
  refine map_of_mapM (fun g f hf ↦ ?_) (make_eq_ok_iff.mp h).2
  obtain ⟨previous, -, rfl⟩ := planFile_eq_ok_iff.mp hf
  rfl

theorem planFile_of_mem (h : Plan.make d output files = .ok plan) (hf : f ∈ plan.files) :
    Plan.planFile d output f.file = .ok f := by
  obtain ⟨g, -, hplan⟩ := exists_of_mapM (make_eq_ok_iff.mp h).2 f hf
  obtain ⟨previous, -, rfl⟩ := planFile_eq_ok_iff.mp hplan
  exact hplan

theorem mem_toWrite : f ∈ plan.toWrite ↔ f ∈ plan.files ∧ f.disposition = .written := by
  simp [Plan.toWrite]

/-! ## Paths -/

theorem checkRelative_of_checkPaths {earlier : List String}
    (h : Plan.checkPaths earlier files = .ok ()) :
    ∀ g ∈ files, Path.checkRelative g.path = .ok () := by
  induction files generalizing earlier with
  | nil => simp
  | cons g files ih =>
      rw [Plan.checkPaths] at h
      split at h
      · cases h
      · next hg =>
        split at h
        · cases h
        · exact List.forall_mem_cons.mpr ⟨hg, ih h⟩

/-- Paths that pass the check are distinct in normal form, and none has come before. -/
theorem nodup_of_checkPaths {earlier : List String}
    (h : Plan.checkPaths earlier files = .ok ()) :
    (∀ g ∈ files, Path.normalize g.path ∉ earlier) ∧
      (files.map fun g ↦ Path.normalize g.path).Nodup := by
  induction files generalizing earlier with
  | nil => simp
  | cons g files ih =>
      rw [Plan.checkPaths] at h
      split at h
      · cases h
      · split at h
        · cases h
        · next hnew =>
          obtain ⟨hearlier, hnodup⟩ := ih h
          simp only [List.mem_append, List.mem_singleton, not_or] at hearlier
          refine ⟨List.forall_mem_cons.mpr ⟨by simpa using hnew, fun g hg ↦ (hearlier g hg).1⟩, ?_⟩
          rw [List.map_cons, List.nodup_cons]
          refine ⟨fun hmem ↦ ?_, hnodup⟩
          obtain ⟨g', hg', heq⟩ := List.mem_map.mp hmem
          exact (hearlier g' hg').2 heq

theorem checkPaths_cons (earlier : List String) (hg : Path.checkRelative g.path = .ok ()) :
    Plan.checkPaths earlier (g :: files) =
      if Path.normalize g.path ∈ earlier then .error [s!"duplicate output path '{g.path}'"]
      else Plan.checkPaths (earlier ++ [Path.normalize g.path]) files := by
  rw [Plan.checkPaths, hg]
  simp only [List.contains_iff_mem]

/-- Usable paths pass if no two of them name the same place, nor does an earlier one. -/
theorem checkPaths_append {earlier : List String} (more : List GeneratedFile)
    (husable : ∀ g ∈ files, Path.checkRelative g.path = .ok ())
    (hnodup : (earlier ++ files.map fun g ↦ Path.normalize g.path).Nodup) :
    Plan.checkPaths earlier (files ++ more) =
      Plan.checkPaths (earlier ++ files.map fun g ↦ Path.normalize g.path) more := by
  induction files generalizing earlier with
  | nil => rw [List.nil_append, List.map_nil, List.append_nil]
  | cons g files ih =>
      obtain ⟨hg, hfiles⟩ := List.forall_mem_cons.mp husable
      rw [List.map_cons, List.append_cons] at hnodup
      have hnew : Path.normalize g.path ∉ earlier := by
        intro hearlier
        have happend := List.nodup_append.mp hnodup.of_append_left
        exact happend.2.2 _ hearlier _ (List.mem_singleton_self _) rfl
      rw [List.cons_append, checkPaths_cons earlier hg, if_neg hnew, ih hfiles hnodup,
        List.map_cons, ← List.append_cons]

theorem nodup_parts_of_make (h : Plan.make d output files = .ok plan) :
    (files.map fun g ↦ Path.parts g.path).Nodup := by
  have hnodup := (nodup_of_checkPaths (make_eq_ok_iff.mp h).1).2
  refine List.Nodup.of_map ("/".intercalate ·) ?_
  rwa [List.map_map]

theorem nodup_paths_of_make (h : Plan.make d output files = .ok plan) :
    (files.map GeneratedFile.path).Nodup := by
  refine List.Nodup.of_map Path.parts ?_
  rw [List.map_map]
  exact nodup_parts_of_make h

/-! ## Reports -/

/-- Whether the lists of a report divide paths, each of them in the given order. -/
structure ApplyReport.Divides (r : ApplyReport) (paths : List String) : Prop where
  nodup : paths.Nodup
  perm : (r.written ++ r.unchanged ++ r.skipped).Perm paths
  written : r.written.Sublist paths
  unchanged : r.unchanged.Sublist paths
  skipped : r.skipped.Sublist paths

theorem perm_dispositions (fs : List PlannedFile) :
    (fs.filter (·.disposition == .written) ++ fs.filter (·.disposition == .unchanged) ++
      fs.filter (·.disposition == .skipped)).Perm fs := by
  induction fs with
  | nil => exact .nil
  | cons f fs ih =>
      rw [List.append_assoc] at ih
      cases hf : f.disposition with
      | written => simpa [hf] using ih
      | unchanged => simpa [hf] using List.perm_middle.trans (ih.cons f)
      | skipped =>
          rw [← List.append_assoc] at ih
          simpa [hf] using List.perm_middle.trans (ih.cons f)

/-- Every file of a plan is in exactly one list of its report. -/
theorem divides_report (h : Plan.make d output files = .ok plan) :
    plan.report.Divides (files.map GeneratedFile.path) := by
  have hpaths : plan.files.map (·.file.path) = files.map GeneratedFile.path := by
    rw [← map_file_of_make h, List.map_map]
    rfl
  have hsublist : ∀ disposition, (plan.pathsOf disposition).Sublist
      (files.map GeneratedFile.path) := by
    intro disposition
    rw [← hpaths]
    exact List.filter_sublist.map _
  refine ⟨nodup_paths_of_make h, ?_, hsublist _, hsublist _, hsublist _⟩
  rw [← hpaths]
  simpa [Plan.report, Plan.pathsOf] using (perm_dispositions plan.files).map (·.file.path)

/-- Where what becomes of files depends on the files alone, so does the report. -/
theorem pathsOf_of_verdict (verdict : GeneratedFile → Disposition)
    (h : ∀ f ∈ plan.files, f.disposition = verdict f.file) (disposition : Disposition) :
    plan.pathsOf disposition = ((plan.files.map PlannedFile.file).filter
      (verdict · == disposition)).map GeneratedFile.path := by
  rw [Plan.pathsOf, List.filter_map, List.map_map]
  congr 1
  exact List.filter_congr fun f hf ↦ by rw [h f hf]; rfl

end Scaffold

import Scaffold.Proofs.Apply.Exact

/-!
# What applying files comes to

Applying files leaves a disk alone, carries out a plan, or fails and leaves directories behind.  In
each case the disk is well-formed again and has all its directories, and what else was there stays,
unless a file is generated in its place and is to replace it.
-/

namespace Scaffold

open Disk

/-- The ways in which one disk can be another after files have been applied. -/
inductive Applied (d : FileTree) (output : String) (files : List GeneratedFile) (after : Disk) :
    Prop
  | idle (h : after = d)
  | committed {plan : Plan} {p : Progress} {dirs : List Location} {staged : List StagedFile}
      (hmake : Plan.make d output files = .ok plan) (h : Committed d plan p dirs staged after)
  | failed {p : Progress} {dirs temps : List Location} {waiting : List StagedFile}
      (hstaging : Staging d p dirs temps) (hwaiting : ∀ s ∈ waiting, s.temporary ∈ temps)
      (hhome : after.home = d.home) (hnode : ∀ l, after.node? l = d.leftWith waiting l)

variable {d : FileTree} {after : Disk} {output : String} {files : List GeneratedFile}
  {l : Location} {n : Node}

/-- Applying files leaves the disk alone, carries out a plan, or fails. -/
theorem applied_applyFiles (d : FileTree) (o : GenerateOptions) (files : List GeneratedFile) :
    Applied d o.output files (applyFiles o files d).1 := by
  rw [applyFiles]
  split
  · exact .idle rfl
  · next plan hmake =>
      split
      · exact .idle rfl
      · rcases hcommit : plan.commit d with ⟨after, reasons | report⟩
        · obtain ⟨p, dirs, temps, hstaging, hwaiting, hhome, hnode⟩ :=
            commit_error hmake (congrArg Prod.snd hcommit)
          rw [hcommit] at hhome hnode
          exact .failed hstaging hwaiting hhome hnode
        · obtain ⟨-, p, dirs, staged, h⟩ := committed_of_commit hmake hcommit
          exact .committed hmake h

/-! ## Well-formed disks -/

namespace Committed

variable {plan : Plan} {p : Progress} {dirs : List Location} {staged : List StagedFile}

/-- A commit keeps a disk well-formed, since every target is in a directory. -/
theorem wellFormed (h : Committed d plan p dirs staged after) : after.WellFormed := by
  have hp := h.prepared.staging.wellFormed
  refine ⟨?_, fun l name hsome ↦ ?_⟩
  · rw [h.moved.alike.there.home]
    exact h.moved.alike.there.directory _ hp.home
  · refine h.moved.alike.there.directory l ?_
    by_cases hrest : ∀ s ∈ staged, l ++ [name] ≠ s.temporary ∧
        p.disk.locate s.planned.target ≠ .ok (l ++ [name])
    · rw [h.moved.rest _ hrest] at hsome
      exact hp.above l name hsome
    · -- Nothing is left where a file has been waiting, so this is a target.
      simp only [not_forall, not_and_or, not_not] at hrest
      obtain ⟨s, hs, htemporary | hlocate⟩ := hrest
      · rw [htemporary] at hsome
        exact absurd (h.moved.gone s hs) hsome
      · have hup := locate_dropLast hp hlocate
        rwa [List.dropLast_concat] at hup

/-- What is at a target that is written is a file that the new one replaces. -/
theorem replaced_of_locate (h : Committed d plan p dirs staged after)
    (hmake : Plan.make d output files = .ok plan) {base : Location}
    (hbase : d.walk (d.origin (Path.isAbsolute output)) (Path.parts output) = .ok base)
    {f : PlannedFile} (hf : f ∈ plan.toWrite) (hlocate : after.locate f.target = .ok l)
    (hnode : d.node? l = some n) :
    l = base ++ Path.parts f.file.path ∧ ∃ content, n = .file content ∧
      f.file.disposition (some (Text.decodeLossy content)) = .written := by
  obtain ⟨hmem, hwritten⟩ := mem_toWrite.mp hf
  obtain ⟨s, hs, rfl⟩ := h.exists_staged hf
  have hplanned := plannedAs_of_mem hmake hmem
  have hname := h.names s hs
  obtain ⟨base', hbase', hl⟩ := hplanned.exists_base hname hlocate
  have hsame : base' = base := by
    have hwalk := walk_of_grows h.grows hbase
    rw [origin, ← h.grows.home, ← origin, hbase'] at hwalk
    exact Except.ok.inj hwalk
  have hdir : d.node? l ≠ some .directory := by
    intro hdir
    obtain ⟨l', hlocate', hfile⟩ := h.exists_target hf
    obtain rfl := Except.ok.inj (hlocate'.symm.trans hlocate)
    rw [h.grows.directory _ hdir] at hfile
    cases hfile
  have hprevious := node?_eq_previous h.grows hplanned (.inl ⟨base, hbase⟩) hname hlocate hdir
  rw [hnode] at hprevious
  obtain ⟨content, hcontent, rfl⟩ := Option.map_eq_some_iff.mp hprevious.symm
  refine ⟨hsame ▸ hl, content, rfl, ?_⟩
  obtain ⟨previous, -, heq⟩ := planFile_eq_ok_iff.mp (planFile_of_mem hmake hmem)
  rw [heq] at hcontent hwritten
  obtain rfl : previous = some content := hcontent
  exact hwritten

end Committed

section Left

variable {p : Progress} {dirs temps : List Location} {waiting : List StagedFile}

theorem leftWith_of_some (hnode : d.node? l = some n) : d.leftWith waiting l = some n := by
  rw [Disk.leftWith, hnode, Option.some_or]

/-- Every directory above a file that waits is there, be it old or left behind. -/
theorem Staging.leftWith_of_prefix (hp : Staging d p dirs temps)
    (hwaiting : ∀ s ∈ waiting, s.temporary ∈ temps) {s : StagedFile} (hs : s ∈ waiting)
    (hl : l <+: s.directory) : d.leftWith waiting l = some .directory := by
  have hany : (waiting.any fun s ↦ l.isPrefixOf s.directory) = true :=
    List.any_eq_true.mpr ⟨s, hs, List.isPrefixOf_iff_prefix.mpr hl⟩
  rcases hp.mem_or_of_directory (hp.directory_of_prefix (hwaiting s hs) hl) with hdirs | hdir
  · rw [Disk.leftWith, hp.traced.free_of_mem l hdirs, if_pos hany, Option.none_or]
  · exact leftWith_of_some hdir

theorem Staging.wellFormed_of_leftWith (hp : Staging d p dirs temps)
    (hwaiting : ∀ s ∈ waiting, s.temporary ∈ temps) (hhome : after.home = d.home)
    (hnode : ∀ l, after.node? l = d.leftWith waiting l) : after.WellFormed := by
  refine ⟨?_, fun l name hsome ↦ ?_⟩
  · rw [hhome, hnode, leftWith_of_some d.wellFormed.home]
  · rw [hnode] at hsome ⊢
    by_cases hbefore : d.node? (l ++ [name]) = none
    · rw [Disk.leftWith, hbefore, Option.none_or] at hsome
      obtain ⟨s, hs, hprefix⟩ : ∃ s ∈ waiting, l ++ [name] <+: s.directory := by
        simpa using hsome
      exact hp.leftWith_of_prefix hwaiting hs ((List.prefix_append l [name]).trans hprefix)
    · exact leftWith_of_some (d.wellFormed.above l name hbefore)

end Left

namespace Applied

theorem wellFormed (h : Applied d output files after) : after.WellFormed := by
  cases h with
  | idle h => exact h ▸ d.wellFormed
  | committed hmake h => exact h.wellFormed
  | failed hstaging hwaiting hhome hnode =>
      exact hstaging.wellFormed_of_leftWith hwaiting hhome hnode

theorem grows (h : Applied d output files after) : d.Grows after := by
  cases h with
  | idle h => exact h ▸ .refl d
  | committed hmake h => exact h.grows
  | failed hstaging hwaiting hhome hnode =>
      refine ⟨hhome, fun l hl ↦ ?_⟩
      rw [hnode, leftWith_of_some hl]

/-! ## What stays -/

/-- What was there is there still, unless it is a file in the place of one that is generated and
replaces it. -/
theorem node?_cases (h : Applied d output files after) {base : Location}
    (hbase : d.walk (d.origin (Path.isAbsolute output)) (Path.parts output) = .ok base)
    (hnode : d.node? l = some n) :
    after.node? l = some n ∨ ∃ g ∈ files, l = base ++ Path.parts g.path ∧
      ∃ content, n = .file content ∧
        g.disposition (some (Text.decodeLossy content)) = .written := by
  cases h with
  | idle h => exact .inl (h ▸ hnode)
  | failed hstaging hwaiting hhome hleft => exact .inl (by rw [hleft, leftWith_of_some hnode])
  | @committed plan p dirs staged hmake h =>
      by_cases hother : ∀ f ∈ plan.toWrite, after.locate f.target ≠ .ok l
      · left
        rcases h.node?_other hmake hother with heq | ⟨hnone, -⟩
        · rw [heq, hnode]
        · rw [hnode] at hnone
          cases hnone
      · right
        simp only [not_forall, not_not] at hother
        obtain ⟨f, hf, hlocate⟩ := hother
        have hfile : f.file ∈ files := by
          rw [← map_file_of_make hmake]
          exact List.mem_map_of_mem (mem_toWrite.mp hf).1
        exact ⟨f.file, hfile, h.replaced_of_locate hmake hbase hf hlocate hnode⟩

end Applied

end Scaffold

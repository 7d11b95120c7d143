import Scaffold.Proofs.Apply.Atomic

/-!
# What has been staged

When all files have been staged, each of them waits with its content in the directory of its target,
and the directories made for the run are those that were missing above.
-/

namespace Scaffold

open Disk

variable {d : FileTree} {p p' : Progress} {dirs : List Location} {path : String}

/-! ## Directories -/

/-- The last directory of a list is made on the disk with all those before it. -/
theorem createEach_concat {paths : List String}
    (h : p.createEach (paths ++ [path]) = (p', none)) :
    ∃ middle disk, p.createEach paths = (middle, none) ∧
      middle.disk.createDirectory path = .ok disk ∧ p' = ⟨disk, middle.created ++ [path]⟩ := by
  induction paths generalizing p with
  | nil =>
      rw [List.nil_append, Progress.createEach] at h
      cases hcreate : p.disk.createDirectory path with
      | error e =>
          rw [hcreate] at h
          cases h
      | ok disk =>
          rw [hcreate] at h
          cases h
          exact ⟨p, disk, rfl, hcreate, rfl⟩
  | cons first paths ih =>
      rw [List.cons_append, Progress.createEach] at h
      rw [Progress.createEach]
      cases hcreate : p.disk.createDirectory first with
      | error e =>
          rw [hcreate] at h
          cases h
      | ok disk =>
          rw [hcreate] at h
          exact ih h

/-- The directories that are made for a path lie above the one it leads to. -/
theorem Staging.createEach_ancestors {temps : List Location} (h : Staging d p dirs temps)
    {fuel : Nat} {absolute : Bool} {names : List String}
    (hspells : Path.Spells path absolute names)
    (hcreate : p.createEach ((Path.ancestorsFrom fuel path).takeWhile
      fun a ↦ !p.disk.existsAt a).reverse = (p', none)) :
    p.disk.Extends p'.disk ∧ ∃ more, Staging d p' (dirs ++ more) temps ∧
      ∀ l, p'.disk.walk (p'.disk.origin absolute) names = .ok l → ∀ l' ∈ more, l' <+: l := by
  -- The outer directories are made first, so the induction leaves the start `p` alone.
  induction fuel generalizing path names p' with
  | zero =>
      cases hcreate
      exact ⟨Extends.refl _, [], by simpa using h, by simp⟩
  | succ fuel ih =>
      rw [Path.ancestorsFrom] at hcreate
      by_cases hexists : p.disk.existsAt path = true
      · rw [List.takeWhile_cons_of_neg (by simp [hexists])] at hcreate
        cases hcreate
        exact ⟨Extends.refl _, [], by simpa using h, by simp⟩
      · rw [List.takeWhile_cons_of_pos (by simp [hexists]), List.reverse_cons] at hcreate
        obtain ⟨middle, disk, hbefore, hlast, rfl⟩ := createEach_concat hcreate
        have hmiddle : p.disk.Extends middle.disk ∧ ∃ more, Staging d middle (dirs ++ more) temps ∧
            ∀ l, middle.disk.walk (middle.disk.origin absolute) names.dropLast = .ok l →
              ∀ l' ∈ more, l' <+: l := by
          cases hup : Path.parent? path with
          | none =>
              rw [hup] at hbefore
              cases hbefore
              exact ⟨Extends.refl _, [], by simpa using h, by simp⟩
          | some up =>
              rw [hup] at hbefore
              have hspellsUp := Path.spells_parent? hup
              rw [hspells.parts, hspells.isAbsolute] at hspellsUp
              exact ih hspellsUp hbefore
        obtain ⟨hextends, more, hstaging, habove⟩ := hmiddle
        obtain ⟨l, hlocate, hnone, -, hnext⟩ := hstaging.createDirectory hlast
        have hdisk : middle.disk.Extends disk := extends_of_createDirectory hlast
        have hwalk := ((locate_of_spells hspells).mp hlocate).2
        refine ⟨hextends.trans hdisk, more ++ [l], by simpa using hnext, fun l' hl' ↦ ?_⟩
        have heq : l' = l := by
          have hwalk' := walk_of_grows hdisk.grows hwalk
          rw [origin, ← hdisk.home, ← origin] at hwalk'
          exact Except.ok.inj (hl'.symm.trans hwalk')
        subst heq
        intro l'' hmem
        rcases List.mem_append.mp hmem with hmem | hmem
        · have hup := hstaging.wellFormed.walk_dropLast_of_none hspells hwalk hnone
          exact (habove _ hup l'' hmem).trans (List.dropLast_prefix _)
        · obtain rfl := List.mem_singleton.mp hmem
          exact List.prefix_rfl

/-! ## Files -/

/-- Whether a file waits with its content in the directory of its target. -/
structure Waits (d : Disk) (s : StagedFile) : Prop where
  holds : d.node? s.temporary = some (.file s.planned.file.content.toUTF8)
  leads : ∃ parent, stagingDirectory? s.planned.target = some parent ∧
    d.locate parent = .ok s.directory

theorem Waits.extends {d d' : Disk} {s : StagedFile} (h : Waits d s) (hextends : d.Extends d') :
    Waits d' s := by
  obtain ⟨parent, hparent, hlocate⟩ := h.leads
  exact ⟨hextends.keeps _ _ h.holds, parent, hparent, locate_of_grows hextends.grows hlocate⟩

/-- A disk on which files have been staged, where each directory made is there for one of them. -/
structure Prepared (d : FileTree) (p : Progress) (dirs : List Location) (staged : List StagedFile) :
    Prop where
  staging : Staging d p dirs (staged.map StagedFile.temporary)
  waits : ∀ s ∈ staged, Waits p.disk s
  above : ∀ l ∈ dirs, ∃ s ∈ staged, l <+: s.directory

namespace Prepared

variable {staged staged' : List StagedFile}

theorem start (d : FileTree) : Prepared d ⟨d, []⟩ [] [] :=
  ⟨Staging.start d, by simp, by simp⟩

/-- Staging a file leaves it waiting in the directory of its target. -/
theorem stageFile {f : PlannedFile} {s : StagedFile} (h : Prepared d p dirs staged)
    (hfile : Scaffold.stageFile p f = (p', .ok s)) :
    s.planned = f ∧ ∃ more, Prepared d p' (dirs ++ more) (staged ++ [s]) := by
  rcases stageFile_cases p f with
    ⟨middle, reasons, herror, -⟩ | ⟨parent, middle, t, disk, hok, hparent, hcreate, htemporary⟩
  · rw [herror] at hfile
    cases hfile
  · rw [hok] at hfile
    cases hfile
    have hspells := spells_stagingDirectory? hparent
    obtain ⟨hextends, more, hmiddle, habove⟩ := h.staging.createEach_ancestors hspells hcreate
    obtain ⟨l, hlocate, hl, rfl, rfl⟩ := createTemporary_eq_ok_iff.mp htemporary
    have hnext := (hmiddle.createTemporary htemporary).2
    have hnone := (middle.disk.exists_freshName l).2
    have hput := extends_put hnone (.file f.file.content.toUTF8)
    refine ⟨rfl, more, by simpa using hnext, fun s hs ↦ ?_, fun l' hl' ↦ ?_⟩
    · rcases List.mem_append.mp hs with hs | hs
      · exact (h.waits s hs).extends (hextends.trans hput)
      · rw [List.mem_singleton.mp hs]
        refine ⟨?_, parent, hparent, ?_⟩
        · rw [node?_put (by simp), if_pos rfl]
        · rw [StagedFile.directory, List.dropLast_concat]
          exact locate_of_grows hput.grows hlocate
    · rcases List.mem_append.mp hl' with hl' | hl'
      · obtain ⟨s, hs, hprefix⟩ := h.above l' hl'
        exact ⟨s, List.mem_append_left _ hs, hprefix⟩
      · refine ⟨_, List.mem_append_right _ (List.mem_singleton_self _), ?_⟩
        rw [StagedFile.directory, List.dropLast_concat]
        exact habove l ((locate_of_spells hspells).mp hlocate).2 l' hl'

/-- Staging all files leaves every one of them waiting, in order. -/
theorem stage {files : List PlannedFile} (h : Prepared d p dirs staged)
    (hstage : Scaffold.stage p staged files = (p', staged', none)) :
    staged'.map StagedFile.planned = staged.map StagedFile.planned ++ files ∧
      ∃ more, Prepared d p' (dirs ++ more) staged' := by
  induction files generalizing p dirs staged with
  | nil =>
      cases hstage
      exact ⟨(List.append_nil _).symm, [], by simpa using h⟩
  | cons f files ih =>
      rw [Scaffold.stage] at hstage
      rcases hfile : Scaffold.stageFile p f with ⟨middle, reasons | s⟩
      · rw [hfile] at hstage
        cases hstage
      · rw [hfile] at hstage
        obtain ⟨rfl, more, hmore⟩ := h.stageFile hfile
        obtain ⟨hplanned, more', hmore'⟩ := ih hmore hstage
        exact ⟨by simpa using hplanned, more ++ more', by simpa using hmore'⟩

end Prepared

end Scaffold

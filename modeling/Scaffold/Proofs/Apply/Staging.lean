import Scaffold.Apply.Commit
import Scaffold.Proofs.Disk.Operations

/-!
# Staging

While files are staged, the disk is the one that the run started with, but for the directories made
for the run and the files that wait in them under new names.
-/

namespace Scaffold

open Disk

variable {d : FileTree} {p p' : Progress} {dirs temps : List Location} {path : String}

/-- Directories that were made one after the other.  Each path leads to its directory on every disk
that has the directories of `d` and the ones made before. -/
inductive Traced (d : Disk) : List String → List Location → Prop
  | nil : Traced d [] []
  | snoc {paths : List String} {dirs : List Location} {path : String} {l : Location}
      (before : Traced d paths dirs)
      (leads : ∀ d' : Disk, d.Grows d' → (∀ l ∈ dirs, d'.node? l = some .directory) →
        d'.locate path = .ok l)
      (free : d.node? l = none) (new : l ∉ dirs) (outer : ∀ l' ∈ dirs, ¬ Inside l' l) :
      Traced d (paths ++ [path]) (dirs ++ [l])

theorem Traced.free_of_mem {d : Disk} {paths : List String} (h : Traced d paths dirs) :
    ∀ l ∈ dirs, d.node? l = none := by
  induction h with
  | nil => simp
  | snoc before leads free new outer ih =>
      intro l hl
      rcases List.mem_append.mp hl with hl | hl
      · exact ih l hl
      · rw [List.mem_singleton.mp hl]
        exact free

/-- A disk during staging: `dirs` have been made, and files wait at `temps`. -/
structure Staging (d : FileTree) (p : Progress) (dirs temps : List Location) : Prop where
  wellFormed : p.disk.WellFormed
  home : p.disk.home = d.home
  traced : Traced d p.created dirs
  rest : ∀ l, l ∉ dirs → l ∉ temps → p.disk.node? l = d.node? l
  made : ∀ l ∈ dirs, p.disk.node? l = some .directory
  waiting : ∀ t ∈ temps, ∃ content, p.disk.node? t = some (.file content)
  fresh : ∀ t ∈ temps, d.node? t = none
  hidden : ∀ t ∈ temps, ¬ Visible d.home t
  nodup : temps.Nodup

namespace Staging

theorem start (d : FileTree) : Staging d ⟨d, []⟩ [] [] :=
  ⟨d.wellFormed, rfl, .nil, fun _ _ _ ↦ rfl, by simp, by simp, by simp, by simp, .nil⟩

theorem mem_or_of_directory (h : Staging d p dirs temps) {l : Location}
    (hl : p.disk.node? l = some .directory) : l ∈ dirs ∨ d.node? l = some .directory := by
  by_cases hdirs : l ∈ dirs
  · exact .inl hdirs
  · refine .inr ?_
    rw [← h.rest l hdirs fun htemp ↦ ?_, hl]
    obtain ⟨content, hfile⟩ := h.waiting l htemp
    rw [hl] at hfile
    cases hfile

theorem grows (h : Staging d p dirs temps) : d.Grows p.disk := by
  refine ⟨h.home, fun l hl ↦ ?_⟩
  rw [h.rest l, hl]
  · intro hmem
    rw [h.traced.free_of_mem l hmem] at hl
    cases hl
  · intro hmem
    rw [h.fresh l hmem] at hl
    cases hl

theorem notMem_of_none (h : Staging d p dirs temps) {l : Location} (hl : p.disk.node? l = none) :
    l ∉ dirs ∧ l ∉ temps := by
  constructor
  · intro hmem
    rw [h.made l hmem] at hl
    cases hl
  · intro hmem
    obtain ⟨content, hfile⟩ := h.waiting l hmem
    rw [hfile] at hl
    cases hl

/-- Making a directory goes on with the staging, with one more directory made. -/
theorem createDirectory (h : Staging d p dirs temps) {disk : Disk}
    (hcreate : p.disk.createDirectory path = .ok disk) :
    ∃ l, p.disk.locate path = .ok l ∧ p.disk.node? l = none ∧ p.disk.Grows disk ∧
      Staging d ⟨disk, p.created ++ [path]⟩ (dirs ++ [l]) temps := by
  obtain ⟨l, hlocate, hnone, rfl⟩ := createDirectory_eq_ok_iff.mp hcreate
  have hdir : p.disk.node? l ≠ some .directory := by simp [hnone]
  have hne := ne_nil_of_node? hdir
  obtain ⟨hdirs, htemps⟩ := h.notMem_of_none hnone
  have hother : ∀ l', l' ≠ l → (p.disk.put l .directory).node? l' = p.disk.node? l' := by
    intro l' hl'
    rw [node?_put hne, if_neg hl']
  refine ⟨l, hlocate, hnone, grows_put hdir _, ?_⟩
  constructor
  case wellFormed => exact h.wellFormed.put hdir (locate_dropLast h.wellFormed hlocate) _
  case home => exact h.home
  case traced =>
    refine h.traced.snoc ?_ ?_ hdirs ?_
    · intro d' hgrows hmade
      refine locate_of_grows ⟨hgrows.home.trans h.home.symm, fun l' hl' ↦ ?_⟩ hlocate
      rcases h.mem_or_of_directory hl' with hmem | hdir
      · exact hmade l' hmem
      · exact hgrows.directory l' hdir
    · rw [← h.rest l hdirs htemps, hnone]
    · intro l' hl' hinside
      have hnone' := h.wellFormed.node?_inside hinside hdir
      rw [h.made l' hl'] at hnone'
      cases hnone'
  case rest =>
    intro l' hl' ht
    simp only [List.mem_append, List.mem_singleton, not_or] at hl'
    rw [hother l' hl'.2]
    exact h.rest l' hl'.1 ht
  case made =>
    intro l' hl'
    by_cases heq : l' = l
    · rw [node?_put hne, if_pos heq]
    · rw [hother l' heq]
      refine h.made l' ?_
      simpa [heq] using hl'
  case waiting =>
    intro t ht
    rw [hother t fun heq ↦ htemps (heq ▸ ht)]
    exact h.waiting t ht
  case fresh => exact h.fresh
  case hidden => exact h.hidden
  case nodup => exact h.nodup

/-- Making a temporary file goes on with the staging, with one more file that waits. -/
theorem createTemporary (h : Staging d p dirs temps) {content : ByteArray} {t : Location}
    {disk : Disk} (hcreate : p.disk.createTemporary path content = .ok (t, disk)) :
    p.disk.Grows disk ∧ Staging d { p with disk } dirs (temps ++ [t]) := by
  obtain ⟨l, -, hl, rfl, rfl⟩ := createTemporary_eq_ok_iff.mp hcreate
  set t := l ++ [p.disk.freshName l] with ht
  have hnone : p.disk.node? t = none := (p.disk.exists_freshName l).2
  have hdir : p.disk.node? t ≠ some .directory := by simp [hnone]
  have hne := ne_nil_of_node? hdir
  obtain ⟨hdirs, htemps⟩ := h.notMem_of_none hnone
  have hother : ∀ l', l' ≠ t → (p.disk.put t (.file content)).node? l' = p.disk.node? l' := by
    intro l' hl'
    rw [node?_put hne, if_neg hl']
  refine ⟨grows_put hdir _, ?_⟩
  constructor
  case wellFormed => exact h.wellFormed.put hdir (by rw [ht, List.dropLast_concat, hl]) _
  case home => exact h.home
  case traced => exact h.traced
  case rest =>
    intro l' hl' hmem
    simp only [List.mem_append, List.mem_singleton, not_or] at hmem
    rw [hother l' hmem.2]
    exact h.rest l' hl' hmem.1
  case made =>
    intro l' hl'
    rw [hother l' fun heq ↦ hdirs (heq ▸ hl')]
    exact h.made l' hl'
  case waiting =>
    intro t' ht'
    by_cases heq : t' = t
    · exact ⟨content, by rw [node?_put hne, if_pos heq]⟩
    · rw [hother t' heq]
      refine h.waiting t' ?_
      simpa [heq] using ht'
  case fresh =>
    intro t' ht'
    rcases List.mem_append.mp ht' with ht' | ht'
    · exact h.fresh t' ht'
    · rw [List.mem_singleton.mp ht', ← h.rest t hdirs htemps, hnone]
  case hidden =>
    intro t' ht'
    rcases List.mem_append.mp ht' with ht' | ht'
    · exact h.hidden t' ht'
    · rw [List.mem_singleton.mp ht', ← h.home]
      exact h.wellFormed.not_visible_freshName l
  case nodup =>
    rw [← List.concat_eq_append]
    exact h.nodup.concat htemps

/-! ## Directories for a file -/

/-- Making directories goes on with the staging, and those that are made were not there before. -/
theorem createEach (h : Staging d p dirs temps) (paths : List String) :
    let after := p.createEach paths
    p.disk.Grows after.1.disk ∧ (∃ more, Staging d after.1 (dirs ++ more) temps) ∧
      (after.2 = none → ∀ a ∈ paths, ∃ l, after.1.disk.locate a = .ok l ∧ d.node? l = none) := by
  intro after
  induction paths generalizing p dirs with
  | nil =>
      refine ⟨Grows.refl _, ⟨[], ?_⟩, by simp⟩
      rw [List.append_nil]
      exact h
  | cons path paths ih =>
      simp only [after, Progress.createEach]
      cases hcreate : p.disk.createDirectory path with
      | error e => exact ⟨Grows.refl _, ⟨[], by simpa using h⟩, by simp⟩
      | ok disk =>
          obtain ⟨l, hlocate, hnone, hgrows, hnext⟩ := h.createDirectory hcreate
          obtain ⟨hgrows', ⟨more, hmore⟩, hall⟩ := ih hnext
          refine ⟨hgrows.trans hgrows', ⟨[l] ++ more, by simpa using hmore⟩, fun hok a ha ↦ ?_⟩
          rcases List.mem_cons.mp ha with rfl | ha
          · obtain ⟨hdirs, htemps⟩ := h.notMem_of_none hnone
            refine ⟨l, locate_of_grows (hgrows.trans hgrows') hlocate, ?_⟩
            rw [← h.rest l hdirs htemps, hnone]
          · exact hall hok a ha

theorem createDirectories (h : Staging d p dirs temps) (path : String) :
    let after := p.createDirectories path
    p.disk.Grows after.1.disk ∧ ∃ more, Staging d after.1 (dirs ++ more) temps :=
  ⟨(h.createEach _).1, (h.createEach _).2.1⟩

/-- Once the directories for a path have been made, the first names of the path lead somewhere, and
either did so before or lead to where nothing was. -/
theorem walk_of_createDirectories (h : Staging d p dirs temps) {absolute : Bool}
    {names first : List String} (hspells : Path.Spells path absolute names)
    (hfirst : first <+: names) (hcreate : p.createDirectories path = (p', none)) :
    (∃ l, p.disk.walk (p.disk.origin absolute) first = .ok l) ∨
      ∃ l, p'.disk.walk (p'.disk.origin absolute) first = .ok l ∧ d.node? l = none := by
  rcases Path.ancestors_cases p.disk.existsAt hspells hfirst with
    ⟨a, ha, hspells⟩ | ⟨a, more, hexists, hspells⟩
  · obtain ⟨-, -, hall⟩ := h.createEach
      ((Path.ancestors path).takeWhile fun a ↦ !p.disk.existsAt a).reverse
    rw [Progress.createDirectories] at hcreate
    rw [hcreate] at hall
    obtain ⟨l, hlocate, hnone⟩ := hall rfl a (List.mem_reverse.mpr ha)
    exact .inr ⟨l, ((locate_of_spells hspells).mp hlocate).2, hnone⟩
  · obtain ⟨l, hlocate⟩ := exists_locate_of_existsAt hexists
    obtain ⟨middle, hmiddle, -⟩ := walk_append ((locate_of_spells hspells).mp hlocate).2
    exact .inl ⟨middle, hmiddle⟩

end Staging

/-! ## Files -/

/-- The directory in which a file is staged spells out all parts of its target but the last. -/
theorem spells_stagingDirectory? {target parent : String}
    (h : stagingDirectory? target = some parent) :
    Path.Spells parent (Path.isAbsolute target) (Path.parts target).dropLast := by
  obtain ⟨up, hup, rfl⟩ := Option.map_eq_some_iff.mp h
  have hspells := Path.spells_parent? hup
  split
  · next hempty =>
      rw [String.isEmpty_iff.mp hempty] at hspells
      rw [← hspells.parts, ← hspells.isAbsolute]
      exact Path.spells_dot
  · exact hspells

/-- Staging a file makes its directory, and then the file itself, unless one of them fails. -/
theorem stageFile_cases (p : Progress) (f : PlannedFile) :
    (∃ middle reasons, stageFile p f = (middle, .error reasons) ∧
      (middle = p ∨ ∃ parent, middle = (p.createDirectories parent).1)) ∨
    ∃ parent middle t disk, stageFile p f = ({ middle with disk }, .ok ⟨f, t⟩) ∧
      stagingDirectory? f.target = some parent ∧ p.createDirectories parent = (middle, none) ∧
      middle.disk.createTemporary parent f.file.content.toUTF8 = .ok (t, disk) := by
  unfold stageFile
  cases hparent : stagingDirectory? f.target with
  | none => exact .inl ⟨p, _, rfl, .inl rfl⟩
  | some parent =>
      rcases hcreate : p.createDirectories parent with ⟨middle, - | e⟩
      · cases htemporary : middle.disk.createTemporary parent f.file.content.toUTF8 with
        | error e =>
            simp only [hcreate, htemporary]
            exact .inl ⟨middle, _, rfl, .inr ⟨parent, by rw [hcreate]⟩⟩
        | ok result =>
            refine .inr ⟨parent, middle, result.1, result.2, ?_, rfl, hcreate, htemporary⟩
            simp only [hcreate, htemporary]
      · simp only [hcreate]
        exact .inl ⟨middle, _, rfl, .inr ⟨parent, by rw [hcreate]⟩⟩

/-- Staging files goes on with the staging, whether or not it gets to the last one. -/
theorem Staging.stage {staged staged' : List StagedFile} {files : List PlannedFile}
    {failure : Option Reasons} (h : Staging d p dirs (staged.map StagedFile.temporary))
    (hstage : Scaffold.stage p staged files = (p', staged', failure)) :
    p.disk.Grows p'.disk ∧
      (∃ more, Staging d p' (dirs ++ more) (staged'.map StagedFile.temporary)) ∧
      (failure = none →
        staged'.map StagedFile.planned = staged.map StagedFile.planned ++ files) := by
  induction files generalizing p dirs staged with
  | nil =>
      cases hstage
      refine ⟨Grows.refl _, ⟨[], ?_⟩, fun _ ↦ (List.append_nil _).symm⟩
      rwa [List.append_nil]
  | cons f files ih =>
      rw [Scaffold.stage] at hstage
      rcases stageFile_cases p f with
        ⟨middle, reasons, hfile, hmiddle⟩ | ⟨parent, middle, t, disk, hfile, -, hcreate, htemporary⟩
      · rw [hfile] at hstage
        cases hstage
        rcases hmiddle with rfl | ⟨parent, rfl⟩
        · refine ⟨Grows.refl _, ⟨[], ?_⟩, nofun⟩
          rwa [List.append_nil]
        · exact ⟨(h.createDirectories parent).1, (h.createDirectories parent).2, nofun⟩
      · rw [hfile] at hstage
        obtain ⟨hgrows, more, hmore⟩ := h.createDirectories parent
        rw [hcreate] at hgrows hmore
        obtain ⟨hgrows', hnext⟩ := hmore.createTemporary htemporary
        have hnext' : Staging d { middle with disk } (dirs ++ more)
            ((staged ++ [StagedFile.mk f t]).map StagedFile.temporary) := by
          simpa using hnext
        obtain ⟨hgrows'', ⟨more', hmore'⟩, hplanned⟩ := ih hnext' hstage
        refine ⟨(hgrows.trans hgrows').trans hgrows'', ⟨more ++ more', ?_⟩, fun hok ↦ ?_⟩
        · rwa [← List.append_assoc]
        · simp [hplanned hok]

end Scaffold

import Scaffold.Proofs.Apply.Staging

/-!
# Undoing a commit

Targets get back what they held, whichever of them are restored first, and of the directories made
for a run those are left that have something else inside.
-/

namespace Scaffold

open Disk

variable {d d' : Disk} {dirs : List Location} {paths : List String}

/-! ## Directories -/

theorem removeCreated_concat_ok {path : String} (h : d.removeDirectory path = .ok d')
    (paths : List String) :
    Progress.removeCreated ⟨d, paths ++ [path]⟩ = Progress.removeCreated ⟨d', paths⟩ := by
  simp only [Progress.removeCreated, List.reverse_append, List.reverse_singleton,
    List.singleton_append, List.foldl_cons, h]

theorem removeCreated_concat_error {path : String} {e : DiskError}
    (h : d.removeDirectory path = .error e) (paths : List String) :
    Progress.removeCreated ⟨d, paths ++ [path]⟩ = Progress.removeCreated ⟨d, paths⟩ := by
  simp only [Progress.removeCreated, List.reverse_append, List.reverse_singleton,
    List.singleton_append, List.foldl_cons, h]

/-- A disk that has directories `dirs` on top of what `base` says. -/
structure Overlays (d' : Disk) (dirs : List Location) (base : Location → Option Node) : Prop where
  made : ∀ l ∈ dirs, d'.node? l = some .directory
  rest : ∀ l, l ∉ dirs → d'.node? l = base l
  free : ∀ l ∈ dirs, base l = none

/-- Whether something that is not a directory made for the run is inside a location. -/
def Held (base : Location → Option Node) (l : Location) : Prop :=
  ∃ l', Inside l' l ∧ base l' ≠ none

theorem Overlays.of_removed {base : Location → Option Node} {l : Location}
    (h : Overlays d' (dirs ++ [l]) base) (hl : l ≠ []) (hnew : l ∉ dirs) :
    Overlays (d'.erase l) dirs base := by
  refine ⟨fun l' hl' ↦ ?_, fun l' hl' ↦ ?_, fun l' hl' ↦ ?_⟩
  · rw [node?_erase hl, if_neg (ne_of_mem_of_not_mem hl' hnew)]
    exact h.made l' (List.mem_append_left _ hl')
  · rw [node?_erase hl]
    split
    · next heq => rw [heq, h.free l (by simp)]
    · next heq => exact h.rest l' (by simp [hl', heq])
  · exact h.free l' (List.mem_append_left _ hl')

theorem Overlays.of_left {base : Location → Option Node} {l : Location}
    (h : Overlays d' (dirs ++ [l]) base) (hnew : l ∉ dirs) :
    Overlays d' dirs fun l' ↦ if l' = l then some .directory else base l' := by
  refine ⟨fun l' hl' ↦ h.made l' (List.mem_append_left _ hl'), fun l' hl' ↦ ?_, fun l' hl' ↦ ?_⟩
  · split
    · next heq => rw [heq, h.made l (by simp)]
    · next heq => exact h.rest l' (by simp [hl', heq])
  · rw [if_neg (ne_of_mem_of_not_mem hl' hnew)]
    exact h.free l' (List.mem_append_left _ hl')

/-- A directory made for a run is empty exactly if nothing else holds it. -/
theorem Overlays.isEmptyAt_iff {base : Location → Option Node} {l : Location}
    (h : Overlays d' (dirs ++ [l]) base) (outer : ∀ l' ∈ dirs, ¬ Inside l' l) :
    d'.isEmptyAt l = true ↔ ¬ Held base l := by
  have hrest : ∀ l', Inside l' l → d'.node? l' = base l' := by
    intro l' hinside
    refine h.rest l' fun hmem ↦ ?_
    rcases List.mem_append.mp hmem with hmem | hmem
    · exact outer l' hmem hinside
    · exact hinside.2 (List.mem_singleton.mp hmem).symm
  rw [Disk.isEmptyAt_iff]
  constructor
  · rintro hempty ⟨l', hinside, hsome⟩
    exact hsome (by rw [← hrest l' hinside, hempty l' hinside])
  · intro hheld l' hinside
    by_contra hsome
    exact hheld ⟨l', hinside, by rwa [← hrest l' hinside]⟩

/-- A directory that holds something counts as something that is held itself. -/
theorem held_iff_of_held {base : Location → Option Node} {l l' : Location} (h : Held base l) :
    Held (fun l'' ↦ if l'' = l then some .directory else base l'') l' ↔ Held base l' := by
  constructor
  · rintro ⟨l'', hinside, hsome⟩
    by_cases heq : l'' = l
    · obtain ⟨inner, hinner, hsome⟩ := h
      exact ⟨inner, hinner.trans (heq ▸ hinside), hsome⟩
    · simp only [if_neg heq] at hsome
      exact ⟨l'', hinside, hsome⟩
  · rintro ⟨l'', hinside, hsome⟩
    refine ⟨l'', hinside, ?_⟩
    by_cases heq : l'' = l
    · simp [heq]
    · simpa [heq] using hsome

/-- Of the directories made for a run, the ones that hold something else stay. -/
theorem removeCreated_node? (h : Traced d paths dirs) {base : Location → Option Node}
    (hhome : d'.home = d.home) (hover : Overlays d' dirs base)
    (hbase : ∀ l, d.node? l = some .directory → base l = some .directory) (l : Location) :
    (l ∈ dirs ∧ Held base l →
      (Progress.removeCreated ⟨d', paths⟩).node? l = some .directory) ∧
    (¬ (l ∈ dirs ∧ Held base l) → (Progress.removeCreated ⟨d', paths⟩).node? l = base l) := by
  induction h generalizing d' base with
  | nil => exact ⟨fun h ↦ absurd h.1 List.not_mem_nil, fun _ ↦ hover.rest l List.not_mem_nil⟩
  | @snoc paths dirs path c before leads free new outer ih =>
      have hgrows : d.Grows d' := by
        refine ⟨hhome, fun l' hl' ↦ ?_⟩
        rw [hover.rest l', hbase l' hl']
        intro hmem
        rw [(before.snoc leads free new outer).free_of_mem l' hmem] at hl'
        cases hl'
      have hlocate := leads d' hgrows fun l' hl' ↦ hover.made l' (List.mem_append_left _ hl')
      have hremove := removeDirectory_of hlocate (hover.made c (by simp))
      by_cases hheld : Held base c
      · rw [if_neg (by rw [hover.isEmptyAt_iff outer]; simpa using hheld)] at hremove
        rw [removeCreated_concat_error hremove]
        obtain ⟨hstays, hgoes⟩ := ih hhome (hover.of_left new) fun l' hl' ↦ by
          split
          · rfl
          · exact hbase l' hl'
        rw [held_iff_of_held hheld] at hstays hgoes
        by_cases hl : l = c
        · subst hl
          refine ⟨fun _ ↦ ?_, fun h ↦ absurd ⟨by simp, hheld⟩ h⟩
          rw [hgoes fun h ↦ new h.1, if_pos rfl]
        · rw [if_neg hl] at hgoes
          simpa [hl] using And.intro hstays hgoes
      · rw [if_pos ((hover.isEmptyAt_iff outer).mpr hheld)] at hremove
        rw [removeCreated_concat_ok hremove]
        have hiff : l ∈ dirs ++ [c] ∧ Held base l ↔ l ∈ dirs ∧ Held base l := by
          refine and_congr_left fun hl ↦ ?_
          have hne : l ≠ c := fun heq ↦ hheld (heq ▸ hl)
          simp [hne]
        rw [hiff]
        have hne : c ≠ [] := ne_nil_of_node? (by rw [free]; simp)
        exact ih hhome (hover.of_removed hne new) hbase

theorem home_removeCreated (p : Progress) : p.removeCreated.home = p.disk.home := by
  rw [Progress.removeCreated]
  generalize p.created.reverse = paths
  generalize p.disk = d
  induction paths generalizing d with
  | nil => rfl
  | cons path paths ih =>
      rw [List.foldl_cons, ih]
      split
      · next h => exact home_of_removeDirectory h
      · rfl

/-! ## Files -/

/-- A file whose target is at `l` and whose previous content is what `base` says. -/
structure Restorable (d : Disk) (base : Location → Option Node) (f : PlannedFile) (l : Location) :
    Prop where
  leads : d.locate f.target = .ok l
  noSlash : endsInSlash f.target = false
  previous : base l = f.previous.map .file

/-- A disk that is as `base` says, but for targets of files. -/
def Replaced (d : Disk) (base : Location → Option Node) (files : List PlannedFile) (d' : Disk) :
    Prop :=
  ∀ l, d'.node? l = base l ∨
    ∃ f ∈ files, Restorable d base f l ∧ ∃ content, d'.node? l = some (.file content)

section Rollback

variable {base : Location → Option Node} {files : List PlannedFile} {f : PlannedFile}
  {l : Location} (hbase : ∀ l, d.node? l = some .directory → base l = some .directory)

include hbase

theorem Replaced.grows (h : Replaced d base files d') (hhome : d'.home = d.home) :
    d.Grows d' := by
  refine ⟨hhome, fun l hl ↦ ?_⟩
  rcases h l with heq | ⟨f, -, hf, -⟩
  · rw [heq, hbase l hl]
  · have hprevious := hf.previous
    rw [hbase l hl] at hprevious
    cases hf' : f.previous <;> simp [hf'] at hprevious

/-- Restoring a file makes its target what it was and touches nothing else. -/
theorem node?_restore (h : Replaced d base files d') (hhome : d'.home = d.home)
    (hf : Restorable d base f l) : (restore d' f).home = d'.home ∧
      ∀ l', (restore d' f).node? l' = if l' = l then base l else d'.node? l' := by
  have hlocate := locate_of_grows (h.grows hbase hhome) hf.leads
  have hdir : d'.node? l ≠ some .directory := by
    rcases h l with heq | ⟨-, -, -, content, hfile⟩
    · rw [heq, hf.previous]
      cases f.previous <;> simp
    · simp [hfile]
  have hne := ne_nil_of_node? hdir
  rw [hf.previous, restore]
  cases hprevious : f.previous with
  | some content =>
      simp only [write_of hlocate hdir hf.noSlash]
      exact ⟨rfl, node?_put hne _⟩
  | none =>
      simp only [removeFile_of hlocate]
      rcases hnode : d'.node? l with - | (_ | _)
      · refine ⟨rfl, fun l' ↦ ?_⟩
        change d'.node? l' = _
        by_cases heq : l' = l
        · rw [if_pos heq, heq, hnode]
          rfl
        · rw [if_neg heq]
      · exact ⟨rfl, node?_erase hne⟩
      · exact absurd hnode hdir

/-- Rolling back gives every target its previous content. -/
theorem node?_rollback (h : Replaced d base files d') (hhome : d'.home = d.home)
    (hfiles : ∀ f ∈ files, ∃ l, Restorable d base f l) :
    (rollback d' files).home = d.home ∧ ∀ l, (rollback d' files).node? l = base l := by
  induction files using List.reverseRecOn generalizing d' with
  | nil =>
      refine ⟨hhome, fun l ↦ ?_⟩
      rcases h l with heq | ⟨f, hmem, -⟩
      · exact heq
      · cases hmem
  | append_singleton files f ih =>
      obtain ⟨l, hf⟩ := hfiles f (by simp)
      obtain ⟨hhome', hnode⟩ := node?_restore hbase h hhome hf
      have hrollback : rollback d' (files ++ [f]) = rollback (restore d' f) files := by
        simp [rollback]
      rw [hrollback]
      refine ih (fun l' ↦ ?_) (hhome'.trans hhome) fun g hg ↦ hfiles g (List.mem_append_left _ hg)
      rw [hnode]
      by_cases hl : l' = l
      · exact .inl (by rw [if_pos hl, hl])
      · rw [if_neg hl]
        rcases h l' with heq | ⟨g, hg, hrestorable, hfile⟩
        · exact .inl heq
        · refine .inr ⟨g, ?_, hrestorable, hfile⟩
          rcases List.mem_append.mp hg with hg | hg
          · exact hg
          · rw [List.mem_singleton.mp hg] at hrestorable
            exact absurd (Except.ok.inj (hrestorable.leads.symm.trans hf.leads)) hl

end Rollback

end Scaffold

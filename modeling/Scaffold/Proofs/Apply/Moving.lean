import Scaffold.Proofs.Apply.Waiting

/-!
# Moving files to their targets

Files with different paths have different targets, so that no file is moved in place of another one.
Moving a file leaves all directories as they are, and so the targets of the others stay where they
are.
-/

namespace Scaffold

open Disk

variable {d d' : Disk} {output : String} {f g : PlannedFile} {path path' : String} {l up : Location}

/-! ## Where targets are -/

namespace PlannedAs

/-- A target lies below where the output directory leads. -/
theorem exists_base (h : PlannedAs d output f path) (hname : endsInName f.target = true)
    (hlocate : d'.locate f.target = .ok l) :
    ∃ base, d'.walk (d'.origin (Path.isAbsolute output)) (Path.parts output) = .ok base ∧
      l = base ++ Path.parts path := by
  have hwalk := ((locate_of_spells (h.spells_target hname)).mp hlocate).2
  obtain ⟨base, hbase, hbelow⟩ := walk_append hwalk
  exact ⟨base, hbase, eq_append_of_walk (fun _ ↦ h.isName_of_mem) hbelow⟩

theorem parts_eq_of_locate (hf : PlannedAs d output f path) (hg : PlannedAs d output g path')
    (hfname : endsInName f.target = true) (hgname : endsInName g.target = true)
    (hflocate : d'.locate f.target = .ok l) (hglocate : d'.locate g.target = .ok l) :
    Path.parts path = Path.parts path' := by
  obtain ⟨base, hbase, rfl⟩ := hf.exists_base hfname hflocate
  obtain ⟨base', hbase', heq⟩ := hg.exists_base hgname hglocate
  rw [hbase] at hbase'
  cases hbase'
  exact List.append_cancel_left heq

/-- A target lies in the directory in which its file is staged. -/
theorem dropLast_of_locate (h : PlannedAs d output f path) (hname : endsInName f.target = true)
    {parent : String} (hparent : stagingDirectory? f.target = some parent)
    (hup : d'.locate parent = .ok up) (hlocate : d'.locate f.target = .ok l) :
    l ≠ [] ∧ l.dropLast = up := by
  have hne := h.parts_ne_nil hname
  have hspells := spells_stagingDirectory? hparent
  rw [h.parts_target, h.isAbsolute_target, List.dropLast_append_of_ne_nil hne] at hspells
  have hwalk := ((locate_of_spells (h.spells_target hname)).mp hlocate).2
  have hsplit : Path.parts output ++ Path.parts path =
      (Path.parts output ++ (Path.parts path).dropLast) ++ [(Path.parts path).getLast hne] := by
    rw [List.append_assoc, List.dropLast_append_getLast]
  rw [hsplit] at hwalk
  obtain ⟨middle, hmiddle, hlast⟩ := walk_append hwalk
  rw [((locate_of_spells hspells).mp hup).2] at hmiddle
  cases hmiddle
  obtain rfl := eq_append_of_walk (by
    intro name hmem
    rw [List.mem_singleton.mp hmem]
    exact h.isName_of_mem (List.getLast_mem hne)) hlast
  exact ⟨by simp, List.dropLast_concat⟩

end PlannedAs

/-! ## Moving all files -/

structure Moved (d : Disk) (staged : List StagedFile) (after : Disk) : Prop where
  alike : d.Alike after
  gone : ∀ s ∈ staged, after.node? s.temporary = none
  placed : ∀ s ∈ staged, ∃ l, d.locate s.planned.target = .ok l ∧
    after.node? l = some (.file s.planned.file.content.toUTF8)
  rest : ∀ l, (∀ s ∈ staged, l ≠ s.temporary ∧ d.locate s.planned.target ≠ .ok l) →
    after.node? l = d.node? l

theorem persist_cons {p : Progress} {done : List PlannedFile} {s : StagedFile}
    {staged : List StagedFile} {after : Disk} (h : persist p done (s :: staged) = (after, none)) :
    ∃ disk, p.disk.moveFile s.temporary s.planned.target = .ok disk ∧
      persist { p with disk } (done ++ [s.planned]) staged = (after, none) := by
  rw [persist] at h
  split at h
  · next disk hmove => exact ⟨disk, hmove, h⟩
  · cases h

theorem endsInName_of_persist {p : Progress} {done : List PlannedFile} {staged : List StagedFile}
    {after : Disk} (h : persist p done staged = (after, none)) :
    ∀ s ∈ staged, endsInName s.planned.target = true := by
  induction staged generalizing p done with
  | nil => simp
  | cons s staged ih =>
      obtain ⟨disk, hmove, hrest⟩ := persist_cons h
      exact List.forall_mem_cons.mpr ⟨(moveFile_eq_ok_iff.mp hmove).1, ih hrest⟩

def TargetsApart (d : Disk) (s s' : StagedFile) : Prop :=
  ∀ l, d.locate s.planned.target = .ok l → d.locate s'.planned.target ≠ .ok l

/-- Moving files to targets that are apart puts every content in its place. -/
theorem moved_of_persist {p : Progress} {done : List PlannedFile} {staged : List StagedFile}
    {after : Disk} (hhidden : ∀ s ∈ staged, ¬ Visible p.disk.home s.temporary)
    (hwaits : ∀ s ∈ staged, p.disk.node? s.temporary =
      some (.file s.planned.file.content.toUTF8))
    (hnodup : (staged.map StagedFile.temporary).Nodup)
    (hapart : staged.Pairwise (TargetsApart p.disk))
    (h : persist p done staged = (after, none)) : Moved p.disk staged after := by
  induction staged generalizing p done with
  | nil =>
      cases h
      exact ⟨.refl _, by simp, by simp, fun _ _ ↦ rfl⟩
  | cons s staged ih =>
      obtain ⟨disk, hmove, hrest⟩ := persist_cons h
      obtain ⟨hsHidden, hhidden⟩ := List.forall_mem_cons.mp hhidden
      obtain ⟨hsWaits, hwaits⟩ := List.forall_mem_cons.mp hwaits
      obtain ⟨hsNew, hnodup⟩ := List.nodup_cons.mp hnodup
      obtain ⟨hsApart, hapart⟩ := List.pairwise_cons.mp hapart
      obtain ⟨l, hlocate, hne, halike, hnode⟩ := moveFile_hidden hmove hsHidden hsWaits
      -- The others wait where no path leads to, so none of them is in the way.
      have hother : ∀ s' ∈ staged, s'.temporary ≠ l ∧ s'.temporary ≠ s.temporary := by
        intro s' hs'
        refine ⟨?_, fun heq ↦ hsNew (heq ▸ List.mem_map_of_mem hs')⟩
        rintro rfl
        exact hhidden s' hs' (visible_of_locate hlocate)
      have hmoved : Moved disk staged after := by
        refine ih ?_ ?_ hnodup ?_ hrest
        · intro s' hs'
          rw [halike.there.home]
          exact hhidden s' hs'
        · intro s' hs'
          rw [hnode, if_neg (hother s' hs').1, if_neg (hother s' hs').2, hwaits s' hs']
        · refine hapart.imp fun {s₁ s₂} h l hl hl' ↦ ?_
          exact h l (halike.locate_iff.mp hl) (halike.locate_iff.mp hl')
      have hlocate_iff : ∀ {path l}, disk.locate path = .ok l ↔ p.disk.locate path = .ok l :=
        halike.locate_iff
      refine ⟨halike.trans hmoved.alike, ?_, ?_, fun l' hl' ↦ ?_⟩
      · refine List.forall_mem_cons.mpr ⟨?_, hmoved.gone⟩
        rw [hmoved.rest, hnode, if_neg hne.symm, if_pos rfl]
        intro s' hs'
        refine ⟨(hother s' hs').2.symm, fun hleads ↦ hsHidden ?_⟩
        exact visible_of_locate (hlocate_iff.mp hleads)
      · refine List.forall_mem_cons.mpr ⟨⟨l, hlocate, ?_⟩, fun s' hs' ↦ ?_⟩
        · rw [hmoved.rest, hnode, if_pos rfl]
          intro s' hs'
          exact ⟨(hother s' hs').1.symm, fun hleads ↦
            hsApart s' hs' l hlocate (hlocate_iff.mp hleads)⟩
        · obtain ⟨l', hl', hplaced⟩ := hmoved.placed s' hs'
          exact ⟨l', hlocate_iff.mp hl', hplaced⟩
      · obtain ⟨hs, hstaged⟩ := List.forall_mem_cons.mp hl'
        have hnot : l' ≠ l := by
          rintro rfl
          exact hs.2 hlocate
        rw [hmoved.rest, hnode, if_neg hnot, if_neg hs.1]
        intro s' hs'
        exact ⟨(hstaged s' hs').1, fun hleads ↦ (hstaged s' hs').2 (hlocate_iff.mp hleads)⟩

end Scaffold

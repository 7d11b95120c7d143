import Scaffold.Proofs.Apply.Targets

/-!
# All or nothing

After a failed commit every file is as it was, and so are the directories that were there.  What may
be left of the run are directories that it made for files that were still waiting in them: those
directories are not empty when they are to be removed.
-/

namespace Scaffold

open Disk

def StagedFile.directory (s : StagedFile) : Location := s.temporary.dropLast

/-- The files that are still waiting when one of them cannot be moved. -/
def unmoved (d : Disk) : List StagedFile → List StagedFile
  | [] => []
  | s :: rest =>
      match d.moveFile s.temporary s.planned.target with
      | .ok d => unmoved d rest
      | .error _ => s :: rest

/-- The files that are still waiting when a commit gives up and removes directories. -/
def Plan.stranded (plan : Plan) (d : Disk) : List StagedFile :=
  match stage ⟨d, []⟩ [] plan.toWrite with
  | (_, _, some _) => []
  | (p, staged, none) => unmoved p.disk staged

/-! ## Moving files to their targets -/

def without (d : Disk) (gone : List Location) (l : Location) : Option Node :=
  if l ∈ gone then none else d.node? l

section Persist

variable {d : FileTree} {d' : Disk} {p : Progress} {dirs temps gone : List Location}
  {done : List PlannedFile} {f : PlannedFile} {l t : Location}

theorem without_of_notMem {d : Disk} (h : l ∉ gone) : without d gone l = d.node? l := if_neg h

theorem Restorable.without_append {d : Disk} (h : Restorable d (without d gone) f l)
    (ht : ¬ Visible d.home t) : Restorable d (without d (gone ++ [t])) f l := by
  refine ⟨h.leads, h.noSlash, ?_⟩
  have hne : l ≠ t := by
    rintro rfl
    exact ht (visible_of_locate h.leads)
  rw [← h.previous]
  simp [without, hne]

/-- A disk in the middle of moving files: those of `done` are at their targets, and nothing is left
where they have been waiting. -/
structure Persisting (p : Progress) (temps gone : List Location) (done : List PlannedFile)
    (d' : Disk) : Prop where
  home : d'.home = p.disk.home
  subset : ∀ t ∈ gone, t ∈ temps
  replaced : Replaced p.disk (without p.disk gone) done d'
  restorable : ∀ f ∈ done, ∃ l, Restorable p.disk (without p.disk gone) f l

theorem Staging.without_of_directory (h : Staging d p dirs temps) (hgone : ∀ t ∈ gone, t ∈ temps)
    (hl : p.disk.node? l = some .directory) : without p.disk gone l = some .directory := by
  rw [without_of_notMem, hl]
  intro hmem
  obtain ⟨content, hfile⟩ := h.waiting l (hgone l hmem)
  rw [hl] at hfile
  cases hfile

namespace Persisting

theorem grows (h : Persisting p temps gone done d') (hp : Staging d p dirs temps) :
    p.disk.Grows d' :=
  h.replaced.grows (fun _ ↦ hp.without_of_directory h.subset) h.home

theorem grows_back (h : Persisting p temps gone done d') : d'.Grows p.disk := by
  refine ⟨h.home.symm, fun l hl ↦ ?_⟩
  rcases h.replaced l with heq | ⟨-, -, -, content, hfile⟩
  · rw [hl, without] at heq
    split at heq
    · cases heq
    · exact heq.symm
  · rw [hl] at hfile
    cases hfile

theorem waiting (h : Persisting p temps gone done d') (hp : Staging d p dirs temps)
    (ht : t ∈ temps) (hgone : t ∉ gone) : ∃ content, d'.node? t = some (.file content) := by
  rcases h.replaced t with heq | ⟨f, -, -, hfile⟩
  · rw [heq, without_of_notMem hgone]
    exact hp.waiting t ht
  · exact hfile

/-- Moving one more file. -/
theorem moveFile (h : Persisting p temps gone done d') (hp : Staging d p dirs temps)
    (ht : t ∈ temps) (hgone : t ∉ gone) (hslash : endsInSlash f.target = false)
    (hprevious : ∀ l, p.disk.locate f.target = .ok l → d.node? l ≠ some .directory →
      d.node? l = f.previous.map .file)
    {d'' : Disk} (hmove : d'.moveFile t f.target = .ok d'') :
    Persisting p temps (gone ++ [t]) (done ++ [f]) d'' := by
  obtain ⟨-, l, n, hlocate, hdir, hsource, rfl⟩ := moveFile_eq_ok_iff.mp hmove
  have hhidden : ¬ Visible p.disk.home t := by
    rw [hp.home]
    exact hp.hidden t ht
  have hleads := locate_of_grows h.grows_back hlocate
  have hltemp : l ∉ temps := fun hmem ↦
    hp.hidden l hmem (by rw [← hp.home]; exact visible_of_locate hleads)
  -- The target is no directory that was made, so it is as it was before the run.
  have hldir : p.disk.node? l ≠ some .directory := fun hl ↦ hdir ((h.grows hp).directory l hl)
  have hlrest : p.disk.node? l = d.node? l :=
    hp.rest l (fun hmem ↦ hldir (hp.made l hmem)) hltemp
  have hrestorable : Restorable p.disk (without p.disk (gone ++ [t])) f l := by
    refine ⟨hleads, hslash, ?_⟩
    have hmem : l ∉ gone ++ [t] := by
      intro hmem
      rcases List.mem_append.mp hmem with hmem | hmem
      · exact hltemp (h.subset l hmem)
      · exact hltemp (List.mem_singleton.mp hmem ▸ ht)
    rw [without_of_notMem hmem, hlrest]
    exact hprevious l hleads (by rwa [← hlrest])
  obtain ⟨content, hfile⟩ := h.waiting hp ht hgone
  have htne : t ≠ [] := ne_nil_of_node? (by rw [hfile]; simp)
  have hnode : ∀ l', ((d'.erase t).put l n).node? l' =
      if l' = l then some (.file content) else if l' = t then none else d'.node? l' := by
    intro l'
    rw [node?_put (ne_nil_of_node? hdir), node?_erase htne,
      Option.some.inj (hsource.symm.trans hfile)]
  refine ⟨h.home, fun t' ht' ↦ ?_, fun l' ↦ ?_, fun g hg ↦ ?_⟩
  · rcases List.mem_append.mp ht' with ht' | ht'
    · exact h.subset t' ht'
    · rwa [List.mem_singleton.mp ht']
  · rw [hnode l']
    by_cases hl : l' = l
    · rw [if_pos hl]
      exact .inr ⟨f, by simp, hl ▸ hrestorable, content, rfl⟩
    · rw [if_neg hl]
      by_cases htl : l' = t
      · rw [if_pos htl]
        exact .inl (if_pos (by simp [htl])).symm
      · rw [if_neg htl]
        rcases h.replaced l' with heq | ⟨g, hg, hrestorable, hfile⟩
        · refine .inl (heq.trans ?_)
          simp [without, htl]
        · exact .inr ⟨g, List.mem_append_left _ hg, hrestorable.without_append hhidden, hfile⟩
  · rcases List.mem_append.mp hg with hg | hg
    · obtain ⟨l', hl'⟩ := h.restorable g hg
      exact ⟨l', hl'.without_append hhidden⟩
    · rw [List.mem_singleton.mp hg]
      exact ⟨l, hrestorable⟩

end Persisting

/-- Whether what is known about the target of a file is right: it was there before the run. -/
structure Recorded (d d' : Disk) (f : PlannedFile) : Prop where
  noSlash : endsInSlash f.target = false
  previous : endsInName f.target = true → ∀ l, d'.locate f.target = .ok l →
    d.node? l ≠ some .directory → d.node? l = f.previous.map .file

/-- When a file cannot be moved, the ones moved before are taken back, and then directories are
removed while the others still wait. -/
theorem persist_error (hp : Staging d p dirs temps) {staged : List StagedFile} {reasons : Reasons}
    {after : Disk} (h : Persisting p temps gone done d')
    (htemps : gone ++ staged.map StagedFile.temporary = temps)
    (hrecorded : (∃ s ∈ staged.head?, endsInName s.planned.target = true) →
      ∀ s ∈ staged, Recorded d p.disk s.planned)
    (hpersist : persist ⟨d', p.created⟩ done staged = (after, some reasons)) :
    ∃ gone' restored, gone' ++ (unmoved d' staged).map StagedFile.temporary = temps ∧
      restored.home = p.disk.home ∧ (∀ l, restored.node? l = without p.disk gone' l) ∧
      after = dropStaged (Progress.removeCreated ⟨restored, p.created⟩) (unmoved d' staged) := by
  induction staged generalizing d' done gone with
  | nil => cases hpersist
  | cons s rest ih =>
      rw [persist] at hpersist
      rw [unmoved]
      cases hmove : d'.moveFile s.temporary s.planned.target with
      | error e =>
          rw [hmove] at hpersist
          cases hpersist
          obtain ⟨hhome, hnode⟩ := node?_rollback
            (fun _ ↦ hp.without_of_directory h.subset) h.replaced h.home h.restorable
          exact ⟨gone, _, htemps, hhome, hnode, rfl⟩
      | ok d'' =>
          rw [hmove] at hpersist
          have hname := (moveFile_eq_ok_iff.mp hmove).1
          have hall := hrecorded ⟨s, rfl, hname⟩
          have hs := hall s List.mem_cons_self
          have hnodup := hp.nodup
          rw [← htemps, List.map_cons, List.nodup_append] at hnodup
          have hgone : s.temporary ∉ gone := fun hmem ↦
            hnodup.2.2 s.temporary hmem s.temporary List.mem_cons_self rfl
          refine ih (h.moveFile hp ?_ hgone hs.noSlash (hs.previous hname) hmove) ?_
            (fun _ s hs ↦ hall s (List.mem_cons_of_mem _ hs)) hpersist
          · rw [← htemps]
            simp
          · rw [← htemps]
            simp

end Persist

/-! ## What is left of a run -/

/-- What a location holds if directories in which files have been waiting are left. -/
def Disk.leftWith (d : Disk) (waiting : List StagedFile) (l : Location) : Option Node :=
  (d.node? l).or (if waiting.any fun s ↦ l.isPrefixOf s.directory then some .directory else none)

section Final

variable {d : FileTree} {d' : Disk} {p : Progress} {dirs temps gone : List Location} {l : Location}
  {waiting : List StagedFile}

/-- Dropping files that wait takes them away and leaves everything else. -/
theorem node?_dropStaged (d : Disk) (waiting : List StagedFile)
    (hne : ∀ s ∈ waiting, s.temporary ≠ []) :
    (dropStaged d waiting).home = d.home ∧ ∀ l, (dropStaged d waiting).node? l =
      if l ∈ waiting.map StagedFile.temporary then none else d.node? l := by
  induction waiting generalizing d with
  | nil => exact ⟨rfl, fun l ↦ by simp [dropStaged]⟩
  | cons s rest ih =>
      obtain ⟨hhome, hnode⟩ :=
        ih (d.erase s.temporary) fun s hs ↦ hne s (List.mem_cons_of_mem _ hs)
      refine ⟨hhome, fun l ↦ ?_⟩
      have hstep : dropStaged d (s :: rest) = dropStaged (d.erase s.temporary) rest := rfl
      rw [hstep, hnode, node?_erase (hne s List.mem_cons_self), List.map_cons]
      by_cases hl : l = s.temporary
      · simp [hl]
      · simp [hl]

/-- What lies inside of a location is what has its directory at or below it. -/
theorem inside_iff_prefix_dropLast {l' : Location} (hne : l' ≠ []) :
    Inside l' l ↔ l <+: l'.dropLast := by
  obtain ⟨up, name, rfl⟩ := (List.eq_nil_or_concat l').resolve_left hne
  rw [List.concat_eq_append, List.dropLast_concat, Inside, List.prefix_concat_iff]
  constructor
  · rintro ⟨heq | hprefix, hne⟩
    · exact absurd heq hne
    · exact hprefix
  · intro hprefix
    refine ⟨.inr hprefix, fun heq ↦ ?_⟩
    have hlength := hprefix.length_le
    rw [heq, List.length_append, List.length_singleton] at hlength
    omega

theorem Staging.temporary_ne_nil (h : Staging d p dirs temps) {t : Location} (ht : t ∈ temps) :
    t ≠ [] := by
  obtain ⟨content, hfile⟩ := h.waiting t ht
  exact ne_nil_of_node? (by rw [hfile]; simp)

/-- Everything above a file that waits is a directory. -/
theorem Staging.directory_of_prefix (h : Staging d p dirs temps) {t : Location} (ht : t ∈ temps)
    (hl : l <+: t.dropLast) : p.disk.node? l = some .directory := by
  obtain ⟨content, hfile⟩ := h.waiting t ht
  exact h.wellFormed.above_prefix hl (h.wellFormed.dropLast (by rw [hfile]; simp))

/-- What lies on a disk beside the directories made for a run. -/
def besides (p : Progress) (dirs gone : List Location) (l : Location) : Option Node :=
  if l ∈ dirs then none else without p.disk gone l

/-- A directory made for a run holds something else if a file waits inside. -/
theorem Staging.held_iff (hp : Staging d p dirs temps)
    (htemps : gone ++ waiting.map StagedFile.temporary = temps) (hl : l ∈ dirs) :
    Held (besides p dirs gone) l ↔ ∃ s ∈ waiting, l <+: s.directory := by
  have hfree := hp.traced.free_of_mem l hl
  constructor
  · rintro ⟨l', hinside, hsome⟩
    rw [besides] at hsome
    split at hsome
    · exact absurd rfl hsome
    · next hdirs =>
      rw [without] at hsome
      split at hsome
      · exact absurd rfl hsome
      · next hgone =>
        have hmem : l' ∈ temps := by
          by_contra hmem
          rw [hp.rest l' hdirs hmem, d.wellFormed.node?_inside hinside (by simp [hfree])] at hsome
          exact hsome rfl
        have hne := hp.temporary_ne_nil hmem
        rw [← htemps, List.mem_append] at hmem
        obtain ⟨s, hs, rfl⟩ := List.mem_map.mp (hmem.resolve_left hgone)
        exact ⟨s, hs, (inside_iff_prefix_dropLast hne).mp hinside⟩
  · rintro ⟨s, hs, hprefix⟩
    have hmem : s.temporary ∈ temps := by
      rw [← htemps]
      exact List.mem_append_right _ (List.mem_map_of_mem hs)
    have hgone : s.temporary ∉ gone := fun hgone ↦ by
      have hnodup := hp.nodup
      rw [← htemps, List.nodup_append] at hnodup
      exact hnodup.2.2 _ hgone _ (List.mem_map_of_mem hs) rfl
    obtain ⟨content, hfile⟩ := hp.waiting _ hmem
    refine ⟨s.temporary, (inside_iff_prefix_dropLast (hp.temporary_ne_nil hmem)).mpr hprefix, ?_⟩
    rw [besides, if_neg, without_of_notMem hgone, hfile]
    · exact Option.some_ne_none _
    · intro hdirs
      rw [hp.made _ hdirs] at hfile
      cases hfile

/-- Removing directories while files wait, and dropping those files afterwards, leaves their
directories. -/
theorem Staging.node?_final (hp : Staging d p dirs temps)
    (htemps : gone ++ waiting.map StagedFile.temporary = temps) (hhome : d'.home = p.disk.home)
    (hnode : ∀ l, d'.node? l = without p.disk gone l) (l : Location) :
    (dropStaged (Progress.removeCreated ⟨d', p.created⟩) waiting).node? l =
      d.leftWith waiting l := by
  have hgone : ∀ t ∈ gone, t ∈ temps := fun t ht ↦ htemps ▸ List.mem_append_left _ ht
  have hwaiting : ∀ s ∈ waiting, s.temporary ∈ temps := fun s hs ↦
    htemps ▸ List.mem_append_right _ (List.mem_map_of_mem hs)
  have hover : Overlays d' dirs (besides p dirs gone) :=
    ⟨fun l hl ↦ (hnode l).trans (hp.without_of_directory hgone (hp.made l hl)),
      fun l hl ↦ (hnode l).trans (if_neg hl).symm, fun l hl ↦ if_pos hl⟩
  have hbase : ∀ l, d.node? l = some .directory → besides p dirs gone l = some .directory := by
    intro l hl
    rw [besides, if_neg, hp.without_of_directory hgone (hp.grows.directory l hl)]
    intro hmem
    rw [hp.traced.free_of_mem l hmem] at hl
    cases hl
  obtain ⟨hstays, hgoes⟩ :=
    removeCreated_node? hp.traced (hhome.trans hp.home) hover hbase l
  have hany : (waiting.any fun s ↦ l.isPrefixOf s.directory) = true ↔
      ∃ s ∈ waiting, l <+: s.directory := by
    simp
  have hdirectory : (∃ s ∈ waiting, l <+: s.directory) → p.disk.node? l = some .directory := by
    rintro ⟨s, hs, hprefix⟩
    exact hp.directory_of_prefix (hwaiting s hs) hprefix
  rw [(node?_dropStaged _ _ fun s hs ↦ hp.temporary_ne_nil (hwaiting s hs)).2, Disk.leftWith]
  simp only [hany]
  by_cases htemp : l ∈ temps
  · -- A file waits or has waited here, and nothing was here before.
    obtain ⟨content, hfile⟩ := hp.waiting l htemp
    have hnot : ¬ ∃ s ∈ waiting, l <+: s.directory := fun h ↦ by
      rw [hdirectory h] at hfile
      cases hfile
    have hdirs : l ∉ dirs := fun hmem ↦ by
      rw [hp.made l hmem] at hfile
      cases hfile
    rw [hp.fresh l htemp, if_neg hnot]
    split
    · rfl
    · next hmem =>
        rw [← htemps, List.mem_append] at htemp
        rw [hgoes fun h ↦ hdirs h.1, besides, if_neg hdirs, without,
          if_pos (htemp.resolve_right hmem)]
        rfl
  · have hmem : l ∉ waiting.map StagedFile.temporary := fun hmem ↦ by
      obtain ⟨s, hs, rfl⟩ := List.mem_map.mp hmem
      exact htemp (hwaiting s hs)
    rw [if_neg hmem]
    by_cases hdirs : l ∈ dirs
    · rw [hp.traced.free_of_mem l hdirs]
      rw [hp.held_iff htemps hdirs] at hstays hgoes
      split
      · next hheld => rw [hstays ⟨hdirs, hheld⟩]; rfl
      · next hheld => rw [hgoes fun h ↦ hheld h.2, besides, if_pos hdirs]; rfl
    · rw [hgoes fun h ↦ hdirs h.1, besides, if_neg hdirs,
        without_of_notMem fun hmem ↦ htemp (hgone l hmem), hp.rest l hdirs htemp]
      split
      · next h => rw [← hp.rest l hdirs htemp, hdirectory h]; rfl
      · rw [Option.or_none]

end Final

/-! ## Failed commits -/

section Commit

variable {d : FileTree} {output : String} {files : List GeneratedFile} {plan : Plan} {p : Progress}
  {staged : List StagedFile}

/-- Once all files are staged, the output directory is settled. -/
theorem settled_of_stage {f : PlannedFile} {path : String}
    (hf : PlannedAs d output f path) (hname : endsInName f.target = true)
    {rest : List PlannedFile} (hstage : stage ⟨d, []⟩ [] (f :: rest) = (p, staged, none)) :
    Settled d p.disk output := by
  have hstart := Staging.start d
  rw [stage] at hstage
  rcases stageFile_cases ⟨d, []⟩ f with
    ⟨middle, reasons, hfile, -⟩ | ⟨parent, middle, t, disk, hfile, hparent, hcreate, htemporary⟩
  · rw [hfile] at hstage
    cases hstage
  · rw [hfile] at hstage
    obtain ⟨-, more, hmore⟩ := hstart.createDirectories parent
    rw [hcreate] at hmore
    obtain ⟨hgrows, hnext⟩ := hmore.createTemporary htemporary
    have hnext : Staging d { middle with disk } ([] ++ more)
        (([] ++ [StagedFile.mk f t]).map StagedFile.temporary) := hnext
    exact settled_of_createDirectories hstart rfl hf hname hparent hcreate
      (hgrows.trans (hnext.stage hstage).1)

/-- Once all files are staged, what a plan has recorded about each target still holds. -/
theorem recorded_of_stage (hmake : Plan.make d output files = .ok plan)
    (hstage : stage ⟨d, []⟩ [] plan.toWrite = (p, staged, none))
    (hfirst : ∃ s ∈ staged.head?, endsInName s.planned.target = true) :
    ∀ s ∈ staged, Recorded d p.disk s.planned := by
  obtain ⟨-, ⟨dirs, hp⟩, hplanned⟩ := (Staging.start d).stage hstage
  have hplanned : staged.map StagedFile.planned = plan.toWrite := hplanned rfl
  have hmem : ∀ f ∈ plan.toWrite, ∃ path, PlannedAs d output f path := fun f hf ↦
    ⟨f.file.path, plannedAs_of_mem hmake (mem_toWrite.mp hf).1⟩
  obtain ⟨first, hfirst, hname⟩ := hfirst
  obtain ⟨rest, rfl⟩ := List.head?_eq_some_iff.mp hfirst
  rw [← hplanned, List.map_cons] at hstage
  obtain ⟨path, hpath⟩ := hmem first.planned (by rw [← hplanned]; simp)
  have hsettled := settled_of_stage hpath hname hstage
  intro s hs
  obtain ⟨path, hpath⟩ := hmem s.planned (by rw [← hplanned]; exact List.mem_map_of_mem hs)
  exact ⟨decide_eq_false hpath.noSlash, fun hname l hlocate ↦
    node?_eq_previous hp.grows hpath hsettled hname hlocate⟩

/-- After a failed commit, only directories of files that were waiting are left. -/
theorem commit_error (hmake : Plan.make d output files = .ok plan)
    {reasons : Reasons} (hfail : (plan.commit d).2 = .error reasons) :
    ∃ p dirs temps, Staging d p dirs temps ∧ (∀ s ∈ plan.stranded d, s.temporary ∈ temps) ∧
      (plan.commit d).1.home = d.home ∧
      ∀ l, (plan.commit d).1.node? l = d.leftWith (plan.stranded d) l := by
  rcases hstage : stage ⟨d, []⟩ [] plan.toWrite with ⟨p, staged, - | failure⟩
  · obtain ⟨-, ⟨dirs, hp⟩, -⟩ := (Staging.start d).stage hstage
    rcases hpersist : persist p [] staged with ⟨after, - | reasons⟩
    · simp [Plan.commit, hstage, hpersist] at hfail
    · have hbegin : Persisting p (staged.map StagedFile.temporary) [] [] p.disk :=
        ⟨rfl, by simp, fun l ↦ .inl (without_of_notMem List.not_mem_nil).symm, by simp⟩
      obtain ⟨gone, restored, htemps, hhome, hnode, hafter⟩ :=
        persist_error hp hbegin rfl (recorded_of_stage hmake hstage) hpersist
      have hcommit : (plan.commit d).1 = after := by simp only [Plan.commit, hstage, hpersist]
      have hstranded : plan.stranded d = unmoved p.disk staged := by
        simp only [Plan.stranded, hstage]
      have hwaiting : ∀ s ∈ unmoved p.disk staged, s.temporary ∈ staged.map StagedFile.temporary :=
        fun s hs ↦ htemps ▸ List.mem_append_right _ (List.mem_map_of_mem hs)
      rw [hcommit, hstranded, hafter]
      refine ⟨p, _, _, hp, hwaiting, ?_, hp.node?_final htemps hhome hnode⟩
      rw [(node?_dropStaged _ _ fun s hs ↦ hp.temporary_ne_nil (hwaiting s hs)).1,
        home_removeCreated, hhome, hp.home]
  · obtain ⟨-, ⟨dirs, hp⟩, -⟩ := (Staging.start d).stage hstage
    obtain ⟨hhome, hnode⟩ := node?_dropStaged p.disk staged fun s hs ↦
      hp.temporary_ne_nil (List.mem_map_of_mem hs)
    have hcommit : (plan.commit d).1 =
        dropStaged (Progress.removeCreated ⟨dropStaged p.disk staged, p.created⟩) [] := by
      simp only [Plan.commit, hstage]
      rfl
    have hstranded : plan.stranded d = [] := by simp only [Plan.stranded, hstage]
    rw [hcommit, hstranded]
    refine ⟨p, _, _, hp, by simp, ?_, hp.node?_final (List.append_nil _) hhome hnode⟩
    exact (home_removeCreated _).trans (hhome.trans hp.home)

/-- A failed commit changes nothing but to leave directories in which files were waiting when it
gave up, and so it changes nothing at all exactly if these were there before. -/
theorem failed_commit_restores_iff (hmake : Plan.make d output files = .ok plan)
    {reasons : Reasons} (hfail : (plan.commit d).2 = .error reasons) :
    (plan.commit d).1.home = d.home ∧
      (∀ l, (plan.commit d).1.node? l = d.leftWith (plan.stranded d) l) ∧
      ((∀ l, (plan.commit d).1.node? l = d.node? l) ↔
        ∀ s ∈ plan.stranded d, d.node? s.directory = some .directory) := by
  obtain ⟨p, dirs, temps, hp, hmem, hhome, hnode⟩ := commit_error hmake hfail
  refine ⟨hhome, hnode, fun h s hs ↦ ?_, fun h l ↦ ?_⟩
  · have hsome : d.node? s.directory ≠ none := by
      rw [← h s.directory, hnode, Disk.leftWith, if_pos]
      · cases d.node? s.directory <;> simp
      · exact List.any_eq_true.mpr ⟨s, hs, by simp⟩
    rcases hp.mem_or_of_directory (hp.directory_of_prefix (hmem s hs) List.prefix_rfl) with
      hdirs | hdirectory
    · exact absurd (hp.traced.free_of_mem _ hdirs) hsome
    · exact hdirectory
  · rw [hnode, Disk.leftWith]
    split
    · next hany =>
        obtain ⟨s, hs, hprefix⟩ := List.any_eq_true.mp hany
        rw [d.wellFormed.above_prefix (List.isPrefixOf_iff_prefix.mp hprefix) (h s hs)]
        rfl
    · exact Option.or_none

end Commit

def filesAt (paths : List String) : List GeneratedFile := paths.map (GeneratedFile.generated · "")

theorem failed_commit_restores_iff_at_dot :
    ∃ plan reasons, Plan.make {} "." (filesAt ["a", "b/."]) = .ok plan ∧
      (plan.commit {}).2 = .error reasons ∧
      (plan.commit {}).1.home = [] ∧
      (∀ l, (plan.commit {}).1.node? l = Disk.leftWith {} (plan.stranded {}) l) ∧
      ((∀ l, (plan.commit {}).1.node? l = Disk.node? {} l) ↔
        ∀ s ∈ plan.stranded {}, Disk.node? {} s.directory = some .directory) := by
  have hfails : (Plan.make {} "." (filesAt ["a", "b/."])).toOption.any
      (fun plan ↦ !(plan.commit {}).2.isOk) = true := by
    decide +kernel
  obtain ⟨plan, hmake, hfails⟩ := exists_ok_of_any hfails
  obtain ⟨reasons, hfail⟩ := exists_error_of_isOk (by simpa using hfails)
  exact ⟨plan, reasons, hmake, hfail, failed_commit_restores_iff (d := .empty) hmake hfail⟩

/-- A file cannot be moved to where another one has made a directory.  Both wait in directories made
for them, which are still there afterwards. -/
theorem failed_commit_leaves_directories :
    ∃ plan reasons, Plan.make {} "/out" (filesAt ["a", "a/b"]) = .ok plan ∧
      (plan.commit {}).2 = .error reasons ∧
      ¬ ∀ l, (plan.commit {}).1.node? l = Disk.node? {} l := by
  have hfails : (Plan.make {} "/out" (filesAt ["a", "a/b"])).toOption.any (fun plan ↦
      !(plan.commit {}).2.isOk && ((plan.commit {}).1.node? ["out"]).isSome) = true := by
    decide +kernel
  obtain ⟨plan, hmake, hfails⟩ := exists_ok_of_any hfails
  rw [Bool.and_eq_true, Bool.not_eq_true'] at hfails
  obtain ⟨reasons, hfail⟩ := exists_error_of_isOk hfails.1
  refine ⟨plan, reasons, hmake, hfail, fun h ↦ ?_⟩
  have hleft := hfails.2
  rw [h ["out"]] at hleft
  cases hleft

end Scaffold

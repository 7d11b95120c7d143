import Scaffold.Proofs.Disk.Operations

/-!
# Paths and what is above them

The ancestors of a path are the path itself and the ancestors of its parent.  On a well-formed disk
everything that a path leads to lies in the directory that its parent leads to, if the parent is not
empty.  The empty path leads nowhere.
-/

namespace Scaffold

namespace Path

variable {path up : String}

/-! ## Parents -/

theorem splitRoot_append (path : String) : (splitRoot path).1 ++ (splitRoot path).2 = path := by
  rcases splitRoot_cases path with ⟨body, h, hpath⟩ | ⟨h, hpath⟩ | ⟨body, h, hpath⟩ | ⟨h, -⟩
  · rw [h, hpath, String.empty_append]
  · rw [h, hpath, String.append_empty]
  · rw [h, hpath, String.append_assoc]
  · rw [h, String.empty_append]

/-- A path starts with its parent. -/
theorem exists_parent?_append (h : parent? path = some up) : ∃ rest, up ++ rest = path := by
  simp only [parent?] at h
  split at h
  · split at h
    · cases h
      exact ⟨path, String.empty_append⟩
    · cases h
  · cases h
    obtain ⟨rest, hrest⟩ :=
      exists_intercalate_append (dropIdle_dropLast_isPrefix (segments (splitRoot path).2))
    exact ⟨rest, by rw [String.append_assoc, hrest, splitRoot_append]⟩

theorem subset_of_parent? (h : parent? path = some up) : up.toList ⊆ path.toList := by
  obtain ⟨rest, rfl⟩ := exists_parent?_append h
  rw [String.toList_append]
  exact List.subset_append_left _ _

theorem utf8ByteSize_le_of_parent? (h : parent? path = some up) :
    up.utf8ByteSize ≤ path.utf8ByteSize := by
  obtain ⟨rest, rfl⟩ := exists_parent?_append h
  rw [String.utf8ByteSize_append]
  exact Nat.le_add_right _ _

theorem parent?_empty : parent? "" = none := by decide

theorem ne_empty_of_parent? (h : parent? path = some up) : path ≠ "" := by
  rintro rfl
  rw [parent?_empty] at h
  cases h

/-- Of the relative paths only the empty one has no parent. -/
theorem eq_empty_of_parent?_none (h : parent? path = none) (hrelative : isAbsolute path = false) :
    path = "" := by
  have hidle : ∀ s ∈ segments path, isIdle s = true := by
    have hparts : parts path = [] := by
      by_contra hne
      exact parent?_ne_none hne h
    simpa [parts, List.filter_eq_nil_iff] using hparts
  have hroot : (splitRoot path).1 ≠ "." := by
    intro hdot
    simp only [parent?, hdot] at h
    split at h
    · cases h
    · cases h
  obtain ⟨first, rest, hsegments⟩ := List.exists_cons_of_ne_nil (segments_ne_nil path)
  have hpath := intercalate_segments path
  rw [hsegments] at hidle hpath
  have hfirst := hidle first List.mem_cons_self
  rw [isIdle, Bool.or_eq_true, beq_iff_eq, beq_iff_eq] at hfirst
  by_cases hrest : rest = []
  · rw [hrest, String.intercalate_singleton] at hpath
    rcases hfirst with rfl | rfl
    · exact hpath.symm
    · rw [← hpath] at hroot
      exact absurd rfl hroot
  · rw [String.intercalate_cons_of_ne_nil hrest] at hpath
    rcases hfirst with rfl | rfl
    · rw [← hpath] at hrelative
      simp [isAbsolute] at hrelative
    · rw [← hpath] at hroot
      exact absurd (by simp [splitRoot]) hroot

/-- Only the empty path is the parent of one without parts. -/
theorem parts_ne_nil_of_parent? (h : parent? path = some up) (hne : up ≠ "") : parts path ≠ [] := by
  intro hparts
  simp only [parent?, dropIdle_eq_nil_iff.mpr hparts] at h
  split at h
  · exact hne (Option.some.inj h).symm
  · cases h

/-- A path has one part more than its parent. -/
theorem exists_parts_concat (h : parent? path = some up) (hne : up ≠ "") :
    ∃ name, isIdle name = false ∧ parts path = parts up ++ [name] := by
  obtain ⟨init, name, hparts⟩ :=
    (List.eq_nil_or_concat _).resolve_left (parts_ne_nil_of_parent? h hne)
  rw [List.concat_eq_append] at hparts
  refine ⟨name, ?_, ?_⟩
  · have hmem : name ∈ parts path := by simp [hparts]
    simpa using (List.mem_filter.mp hmem).2
  · rw [(spells_parent? h).parts, hparts, List.dropLast_concat]

theorem length_lt_of_parent? (h : parent? path = some up) : up.length < path.length := by
  obtain ⟨rest, rfl⟩ := exists_parent?_append h
  rw [String.length_append]
  by_contra hlength
  -- A path is not its own parent, since it has one part more.
  obtain rfl : rest = "" := String.length_eq_zero_iff.mp (by omega)
  rw [String.append_empty] at h
  obtain ⟨name, -, hparts⟩ := exists_parts_concat h (ne_empty_of_parent? h)
  exact absurd (congrArg List.length hparts) (by simp)

/-! ## Ancestors -/

/-- What holds of a path if it holds of its parent, holds of all paths. -/
theorem parentInduction {motive : String → Prop}
    (step : ∀ path, (∀ up, parent? path = some up → motive up) → motive path) (path : String) :
    motive path := by
  induction hlength : path.length using Nat.strong_induction_on generalizing path with
  | _ n ih => exact step path fun up hup ↦ ih _ (hlength ▸ length_lt_of_parent? hup) up rfl

/-- Any number of steps that is more than the length of a path will do. -/
theorem ancestorsFrom_eq {fuel fuel' : Nat} (h : path.length < fuel) (h' : path.length < fuel') :
    ancestorsFrom fuel path = ancestorsFrom fuel' path := by
  induction path using parentInduction generalizing fuel fuel' with
  | step path ih =>
      obtain ⟨fuel, rfl⟩ := Nat.exists_eq_add_one_of_ne_zero (Nat.ne_zero_of_lt h)
      obtain ⟨fuel', rfl⟩ := Nat.exists_eq_add_one_of_ne_zero (Nat.ne_zero_of_lt h')
      rw [ancestorsFrom, ancestorsFrom]
      cases hup : parent? path with
      | none => rfl
      | some up =>
          have hlength := length_lt_of_parent? hup
          exact congrArg _ (ih up hup (by omega) (by omega))

theorem exists_ancestors_eq_cons (path : String) : ∃ above, ancestors path = path :: above := by
  rw [ancestors, ancestorsFrom]
  exact ⟨_, rfl⟩

theorem self_mem_ancestors (path : String) : path ∈ ancestors path := by
  obtain ⟨above, habove⟩ := exists_ancestors_eq_cons path
  rw [habove]
  exact List.mem_cons_self

theorem ancestors_of_parent? (h : parent? path = some up) :
    ancestors path = path :: ancestors up := by
  rw [ancestors, ancestorsFrom, h]
  exact congrArg _ (ancestorsFrom_eq (length_lt_of_parent? h) (Nat.lt_succ_self _))

theorem ancestors_of_none (h : parent? path = none) : ancestors path = [path] := by
  rw [ancestors, ancestorsFrom, h]

end Path

namespace Disk

variable {d d' : Disk} {l l' : Location} {path up : String} {names more : List String}

/-! ## Walks -/

/-- Names that lead nowhere may be left out of a walk that ends somewhere. -/
theorem walk_filter_of_ok (h : d.walk l names = .ok l') :
    d.walk l (names.filter (!Path.isIdle ·)) = .ok l' := by
  fun_induction walk d l names with
  | case1 l => exact h
  | case2 l name rest hidle ih =>
      rw [List.filter_cons_of_neg (by simpa using hidle)]
      exact ih h
  | case3 l rest hidle ih =>
      rw [List.filter_cons_of_pos (by simpa using hidle), walk, if_neg hidle, if_pos rfl]
      exact ih h
  | case5 l name rest hidle hup hlong hlast =>
      obtain rfl := List.isEmpty_iff.mp hlast
      rw [List.filter_cons_of_pos (by simpa using hidle), walk, if_neg hidle, if_neg hup,
        if_neg hlong, if_pos (by simp)]
      exact h
  | case6 l name rest hidle hup hlong hlast hdir ih =>
      rw [List.filter_cons_of_pos (by simpa using hidle), walk, if_neg hidle, if_neg hup,
        if_neg hlong, hdir]
      have hrest := ih h
      split
      · next hnil =>
          rw [List.isEmpty_iff.mp hnil] at hrest
          exact hrest
      · exact hrest
  | case4 | case7 | case8 => cases h

/-- A walk that goes on has come to a directory. -/
theorem WellFormed.walk_append_directory (hd : d.WellFormed) (hl : d.node? l = some .directory)
    (hmore : more ≠ []) (h : d.walk l (names ++ more) = .ok l') :
    ∃ middle, d.walk l names = .ok middle ∧ d.node? middle = some .directory ∧
      d.walk middle more = .ok l' := by
  obtain ⟨middle, hmiddle, hwalk⟩ := walk_append h
  refine ⟨middle, hmiddle, ?_, hwalk⟩
  fun_induction walk d l names with
  | case1 l =>
      cases hmiddle
      exact hl
  | case2 l name rest hidle ih =>
      rw [List.cons_append, walk, if_pos hidle] at h
      exact ih hl h hmiddle
  | case3 l rest hidle ih =>
      rw [List.cons_append, walk, if_neg hidle, if_pos rfl] at h
      exact ih (hd.dropLast (by simp [hl])) h hmiddle
  | case5 l name rest hidle hup hlong hlast =>
      cases hmiddle
      obtain rfl := List.isEmpty_iff.mp hlast
      rw [List.cons_append, walk, if_neg hidle, if_neg hup, if_neg hlong, List.nil_append,
        if_neg (by simpa using hmore)] at h
      split at h
      · next hdir => exact hdir
      · cases h
      · cases h
  | case6 l name rest hidle hup hlong hlast hdir ih =>
      rw [List.cons_append, walk, if_neg hidle, if_neg hup, if_neg hlong,
        if_neg (by simp_all), hdir] at h
      exact ih hdir h hmiddle
  | case4 | case7 | case8 => cases hmiddle

/-! ## Paths -/

theorem ne_empty_of_locate (h : d.locate path = .ok l) : path ≠ "" :=
  (locate_eq_ok_iff.mp h).1.nonempty

/-- Following a path that leads somewhere is following its parts. -/
theorem walk_parts_of_locate (h : d.locate path = .ok l) :
    d.walk (d.origin (Path.isAbsolute path)) (Path.parts path) = .ok l := by
  obtain ⟨k, hsegments⟩ := Path.exists_segments_dropSlashes path
  have hparts : Path.parts path =
      (Path.segments (dropSlashes path)).filter (!Path.isIdle ·) := by
    have hidle : Path.isIdle "" = true := rfl
    rw [Path.parts, hsegments, List.filter_append, List.filter_replicate_of_neg (by simp [hidle]),
      List.append_nil]
  rw [hparts]
  exact walk_filter_of_ok (locate_eq_ok_iff.mp h).2

theorem isDirectoryAt_iff : d.isDirectoryAt path = true ↔
    ∃ l, d.locate path = .ok l ∧ d.node? l = some .directory := by
  simp only [isDirectoryAt, find, bind, Except.bind]
  cases hlocate : d.locate path with
  | error e => simp
  | ok l =>
      rcases hnode : d.node? l with - | (content | -)
      · simp [hnode, throw, throwThe, MonadExceptOf.throw]
      · cases hslash : endsInSlash path <;>
          simp [hnode, throw, throwThe, MonadExceptOf.throw, pure, Except.pure]
      · simp [hnode, pure, Except.pure]

theorem exists_node?_of_existsAt (h : d.existsAt path = true) :
    ∃ l, d.locate path = .ok l ∧ d.node? l ≠ none := by
  obtain ⟨l, hlocate⟩ := exists_locate_of_existsAt h
  refine ⟨l, hlocate, fun hnone ↦ ?_⟩
  simp [existsAt, find, hlocate, hnone, bind, Except.bind, throw, throwThe,
    MonadExceptOf.throw] at h

theorem existsAt_of_isDirectoryAt (h : d.isDirectoryAt path = true) : d.existsAt path = true := by
  obtain ⟨l, hlocate, hdir⟩ := isDirectoryAt_iff.mp h
  simp [existsAt, find, hlocate, hdir, bind, Except.bind, pure, Except.pure]

theorem Usable.of_parent? (h : Usable path) (hup : Path.parent? path = some up) (hne : up ≠ "") :
    Usable up :=
  ⟨fun hzero ↦ h.noZero (Path.subset_of_parent? hup hzero), hne,
    (Path.utf8ByteSize_le_of_parent? hup).trans_lt h.short⟩

theorem WellFormed.isDirectoryAt_parent (hd : d.WellFormed) (h : d.existsAt path = true)
    (hup : Path.parent? path = some up) (hne : up ≠ "") : d.isDirectoryAt up = true := by
  obtain ⟨l, hlocate⟩ := exists_locate_of_existsAt h
  obtain ⟨name, -, hparts⟩ := Path.exists_parts_concat hup hne
  have hwalk := walk_parts_of_locate hlocate
  rw [hparts] at hwalk
  obtain ⟨middle, hmiddle, hdir, -⟩ :=
    hd.walk_append_directory (hd.node?_origin _) (List.cons_ne_nil _ _) hwalk
  refine isDirectoryAt_iff.mpr ⟨middle, ?_, hdir⟩
  have hspells := Path.spells_parent? hup
  rw [locate_of_spells hspells, ← hspells.parts]
  exact ⟨(locate_eq_ok_iff.mp hlocate).1.of_parent? hup hne, hmiddle⟩

/-- A path to where nothing is ends in a name. -/
theorem WellFormed.exists_name_of_free (hd : d.WellFormed) (hlocate : d.locate path = .ok l)
    (hnone : d.node? l = none) : ∃ init name, Path.parts path = init ++ [name] ∧ name ≠ ".." := by
  have hwalk := walk_parts_of_locate hlocate
  rcases List.eq_nil_or_concat (Path.parts path) with hparts | ⟨init, name, hparts⟩
  · rw [hparts] at hwalk
    cases hwalk
    rw [hd.node?_origin] at hnone
    cases hnone
  · rw [List.concat_eq_append] at hparts
    refine ⟨init, name, hparts, ?_⟩
    rintro rfl
    rw [hparts] at hwalk
    obtain ⟨middle, hmiddle, hlast⟩ := walk_append hwalk
    cases hlast
    rw [walk_dropLast hd (hd.node?_origin _) hmiddle] at hnone
    cases hnone

/-- Where nothing is inside a directory, no path leads on from there, except for one up again. -/
theorem existsAt_eq_false_of_empty (hup : Path.parent? path = some up)
    (hlocate : d.locate up = .ok l) (hempty : ∀ l', Inside l' l → d.node? l' = none)
    (hlast : (Path.parts path).getLast? ≠ some "..") : d.existsAt path = false := by
  obtain ⟨name, hidle, hparts⟩ := Path.exists_parts_concat hup (ne_empty_of_locate hlocate)
  rw [Bool.eq_false_iff]
  intro hexists
  obtain ⟨l', hlocate', hsome⟩ := exists_node?_of_existsAt hexists
  have hwalk := walk_parts_of_locate hlocate'
  rw [hparts] at hwalk hlast
  obtain ⟨middle, hmiddle, hstep⟩ := walk_append hwalk
  have hspells := Path.spells_parent? hup
  rw [locate_of_spells hspells, ← hspells.parts, hmiddle] at hlocate
  cases hlocate.2
  have hname : ∀ s ∈ [name], IsName s := by
    intro s hs
    rw [List.mem_singleton.mp hs]
    exact ⟨hidle, fun heq ↦ hlast (by simp [heq])⟩
  refine hsome (hempty l' ?_)
  rw [eq_append_of_walk hname hstep]
  exact ⟨List.prefix_append _ _, by simp⟩

/-! ## Paths that fit -/

/-- A path short enough, of short names, that ends in the last of them. -/
structure Fits (path : String) : Prop where
  noZero : '\x00' ∉ path.toList
  short : path.utf8ByteSize < maxPath
  names : ∀ name ∈ Path.parts path, name.utf8ByteSize ≤ maxName
  tight : Path.Tight path

theorem Fits.of_parent? (h : Fits path) (hup : Path.parent? path = some up) : Fits up := by
  have hspells := Path.spells_parent? hup
  refine ⟨fun hzero ↦ h.noZero (Path.subset_of_parent? hup hzero),
    (Path.utf8ByteSize_le_of_parent? hup).trans_lt h.short, fun name hname ↦ h.names name ?_,
    hspells.tight⟩
  rw [hspells.parts] at hname
  exact List.dropLast_subset _ hname

theorem Fits.of_mem_ancestors (h : Fits path) : ∀ a ∈ Path.ancestors path, Fits a := by
  induction path using Path.parentInduction with
  | step path ih =>
      cases hup : Path.parent? path with
      | none => simpa [Path.ancestors_of_none hup] using h
      | some up =>
          rw [Path.ancestors_of_parent? hup]
          intro a ha
          rcases List.mem_cons.mp ha with rfl | ha
          · exact h
          · exact ih up hup (h.of_parent? hup) a ha

theorem Fits.endsInSlash (h : Fits path) (hparts : Path.parts path ≠ []) :
    endsInSlash path = false := by
  rw [Disk.endsInSlash, decide_eq_false_iff_not]
  intro hslash
  obtain ⟨init, hinit⟩ := List.getLast?_eq_some_iff.mp hslash
  have hpath : path = String.ofList init ++ "/" ++ "" := String.toList_inj.mp (by simp [hinit])
  refine hparts (h.tight "" ?_ rfl)
  have hempty : Path.segments "" = [""] := by decide
  rw [hpath, Path.segments_append_slash, hempty, List.getLast?_concat]
  rfl

/-- A path that fits leads somewhere if its parent leads to a directory. -/
theorem Fits.exists_locate (h : Fits path) (hup : Path.parent? path = some up)
    (hdir : d.isDirectoryAt up = true) : ∃ l, d.locate path = .ok l := by
  obtain ⟨middle, hlocate, hmiddle⟩ := isDirectoryAt_iff.mp hdir
  obtain ⟨name, hidle, hparts⟩ := Path.exists_parts_concat hup (ne_empty_of_locate hlocate)
  have hup' := Path.spells_parent? hup
  rw [locate_of_spells hup', ← hup'.parts] at hlocate
  have hlong : ¬ maxName < name.utf8ByteSize := Nat.not_lt.mpr (h.names name (by simp [hparts]))
  have hstep : ∃ l, d.walk middle [name] = .ok l := by
    rw [walk, if_neg (by simp [hidle])]
    by_cases hname : name = ".."
    · exact ⟨_, if_pos hname⟩
    · exact ⟨_, by rw [if_neg hname, if_neg hlong, if_pos List.isEmpty_nil]⟩
  obtain ⟨l, hstep⟩ := hstep
  have husable : Usable path := ⟨h.noZero, Path.ne_empty_of_parent? hup, h.short⟩
  refine ⟨l, (locate_of_spells ⟨hparts, rfl, h.tight⟩).mpr ⟨husable, ?_⟩⟩
  exact walk_append_of hlocate.2 hmiddle hstep

theorem Fits.exists_createDirectory (h : Fits path) (hup : Path.parent? path = some up)
    (hdir : d.isDirectoryAt up = true) (hmissing : d.existsAt path = false) :
    ∃ d', d.createDirectory path = .ok d' := by
  obtain ⟨l, hlocate⟩ := h.exists_locate hup hdir
  obtain ⟨middle, hmiddle, -⟩ := isDirectoryAt_iff.mp hdir
  have hslash := h.endsInSlash (Path.parts_ne_nil_of_parent? hup (ne_empty_of_locate hmiddle))
  refine ⟨_, createDirectory_eq_ok_iff.mpr ⟨l, hlocate, ?_, rfl⟩⟩
  rcases hnode : d.node? l with - | (content | -)
  · rfl
  · simp [existsAt, find, hlocate, hnode, hslash, bind, Except.bind, pure, Except.pure] at hmissing
  · simp [existsAt, find, hlocate, hnode, bind, Except.bind, pure, Except.pure] at hmissing

end Disk

end Scaffold

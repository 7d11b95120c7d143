import Mathlib.Data.List.Nodup
import Mathlib.Data.List.Perm.Subperm
import Scaffold.Proofs.Disk.Tree

/-!
# What operations do to a disk

Each operation is described by when it works and what it puts or takes away.  New names are made so
that no path leads to them.
-/

namespace Scaffold.Disk

variable {d d' : Disk} {l l' : Location} {path : String}

/-! ## Operations that work -/

theorem read_of (hlocate : d.locate path = .ok l) (hslash : endsInSlash path = false) :
    d.read path = match d.node? l with
      | some (.file content) => .ok content
      | some .directory => .error .isDirectory
      | none => .error .notFound := by
  simp only [Disk.read, find, bind, Except.bind, hlocate, hslash]
  rcases d.node? l with - | (_ | _) <;> rfl

theorem read_of_error {e : DiskError} (hlocate : d.locate path = .error e) :
    d.read path = .error e := by
  simp only [Disk.read, find, bind, Except.bind, hlocate]

theorem read_eq_ok_iff (hslash : endsInSlash path = false) {content : ByteArray} :
    d.read path = .ok content ↔
      ∃ l, d.locate path = .ok l ∧ d.node? l = some (.file content) := by
  cases hlocate : d.locate path with
  | error e => simp [read_of_error hlocate]
  | ok l =>
      rw [read_of hlocate hslash]
      rcases hnode : d.node? l with - | (_ | _) <;> simp [hnode]

theorem createDirectory_eq_ok_iff : d.createDirectory path = .ok d' ↔
    ∃ l, d.locate path = .ok l ∧ d.node? l = none ∧ d' = d.put l .directory := by
  simp only [createDirectory, bind, Except.bind]
  cases hlocate : d.locate path with
  | error e => simp
  | ok l =>
      cases hnode : d.node? l with
      | none => simp [hnode, pure, Except.pure, eq_comm]
      | some n => simp [hnode, throw, throwThe, MonadExceptOf.throw]

theorem extends_of_createDirectory (h : d.createDirectory path = .ok d') : d.Extends d' := by
  obtain ⟨l, -, hnone, rfl⟩ := createDirectory_eq_ok_iff.mp h
  exact extends_put hnone _

theorem removeDirectory_of (hlocate : d.locate path = .ok l)
    (hl : d.node? l = some .directory) :
    d.removeDirectory path = if d.isEmptyAt l then .ok (d.erase l) else .error .notEmpty := by
  simp only [removeDirectory, bind, Except.bind, hlocate, hl]
  rfl

theorem home_of_removeDirectory (h : d.removeDirectory path = .ok d') : d'.home = d.home := by
  simp only [removeDirectory, bind, Except.bind] at h
  split at h
  · cases h
  · split at h
    · split at h <;> cases h
      rfl
    · cases h
    · cases h

theorem removeFile_of (hlocate : d.locate path = .ok l) : d.removeFile path =
    match d.node? l with
    | some (.file _) => .ok (d.erase l)
    | some .directory => .error .isDirectory
    | none => .error .notFound := by
  simp only [removeFile, bind, Except.bind, hlocate]
  rfl

theorem write_of (hlocate : d.locate path = .ok l) (hl : d.node? l ≠ some .directory)
    (hslash : endsInSlash path = false) (content : ByteArray) :
    d.write path content = .ok (d.put l (.file content)) := by
  simp only [write, bind, Except.bind, hlocate, hslash]
  rcases hnode : d.node? l with - | (_ | _)
  · rfl
  · rfl
  · exact absurd hnode hl

theorem moveFile_eq_ok_iff {source : Location} : d.moveFile source path = .ok d' ↔
    endsInName path = true ∧ ∃ l n, d.locate path = .ok l ∧ d.node? l ≠ some .directory ∧
      d.node? source = some n ∧ d' = (d.erase source).put l n := by
  simp only [moveFile, bind, Except.bind]
  cases hlocate : d.locate path with
  | error e => simp
  | ok l =>
      cases hname : endsInName path with
      | false => simp [throw, throwThe, MonadExceptOf.throw]
      | true =>
          rcases hnode : d.node? l with - | (_ | _) <;> cases hsource : d.node? source <;>
            simp [hnode, throw, throwThe, MonadExceptOf.throw, pure, Except.pure, eq_comm]

/-- A temporary file is made in a directory that is there, under a name that is free. -/
theorem createTemporary_eq_ok_iff {content : ByteArray} {t : Location} :
    d.createTemporary path content = .ok (t, d') ↔ ∃ l, d.locate path = .ok l ∧
      d.node? l = some .directory ∧ t = l ++ [d.freshName l] ∧ d' = d.put t (.file content) := by
  simp only [createTemporary, bind, Except.bind]
  cases hlocate : d.locate path with
  | error e => simp
  | ok l =>
      rcases hnode : d.node? l with - | (_ | _)
      · simp [hnode, throw, throwThe, MonadExceptOf.throw]
      · simp [hnode, throw, throwThe, MonadExceptOf.throw]
      · simp only [hnode, pure, Except.pure]
        constructor
        · rintro ⟨⟩
          exact ⟨l, rfl, hnode, rfl, rfl⟩
        · rintro ⟨_, ⟨⟩, -, rfl, rfl⟩
          rfl

/-! ## New names -/

theorem temporaryName_injective : Function.Injective temporaryName := by
  intro m n h
  have hlength := congrArg List.length (String.ofList_injective h)
  simpa using hlength

theorem slash_mem_temporaryName (n : Nat) : '/' ∈ (temporaryName n).toList := by
  simp [temporaryName]

/-- There is always a free name for a temporary file, since more are tried than taken. -/
theorem exists_freshName (d : Disk) (l : Location) :
    (∃ n, d.freshName l = temporaryName n) ∧ d.node? (l ++ [d.freshName l]) = none := by
  set taken := d.entries.map Prod.fst with htaken
  have hfound : ((List.range (taken.length + 1)).map temporaryName).find?
      (fun name ↦ !taken.contains (l ++ [name])) ≠ none := by
    intro hnone
    -- More names than there are entries cannot all be taken.
    have hall : (List.range (taken.length + 1)).map (fun n ↦ l ++ [temporaryName n]) ⊆ taken := by
      intro t ht
      obtain ⟨n, hn, rfl⟩ := List.mem_map.mp ht
      simpa using List.find?_eq_none.mp hnone _ (List.mem_map_of_mem hn)
    have hinjective : Function.Injective fun n ↦ l ++ [temporaryName n] := fun m n h ↦
      temporaryName_injective (by simpa using h)
    have hle := (List.Nodup.subperm (List.Nodup.map hinjective List.nodup_range) hall).length_le
    rw [List.length_map, List.length_range] at hle
    omega
  obtain ⟨name, hname⟩ := Option.ne_none_iff_exists'.mp hfound
  have hfresh : d.freshName l = name := by
    rw [freshName, ← htaken, hname]
    rfl
  obtain ⟨n, -, hn⟩ := List.mem_map.mp (List.mem_of_find?_eq_some hname)
  refine ⟨⟨n, hfresh.trans hn.symm⟩, ?_⟩
  rw [hfresh, node?_eq_none_iff (by simp), ← htaken]
  simpa using List.find?_some hname

/-- Whether a path may lead to a location: it is above the working directory, or it is reached from
there by names without slashes. -/
def Visible (home l : Location) : Prop :=
  ∃ above names, above <+: home ∧ l = above ++ names ∧ ∀ name ∈ names, '/' ∉ name.toList

theorem Visible.dropLast {home : Location} (h : Visible home l) : Visible home l.dropLast := by
  obtain ⟨above, names, habove, rfl, hnames⟩ := h
  by_cases hnil : names = []
  · subst hnil
    refine ⟨above.dropLast, [], above.dropLast_prefix.trans habove, by simp, by simp⟩
  · refine ⟨above, names.dropLast, habove, List.dropLast_append_of_ne_nil hnil, fun name h ↦ ?_⟩
    exact hnames name (List.dropLast_subset names h)

theorem Visible.append {home : Location} (h : Visible home l) {name : String}
    (hname : '/' ∉ name.toList) : Visible home (l ++ [name]) := by
  obtain ⟨above, names, habove, rfl, hnames⟩ := h
  refine ⟨above, names ++ [name], habove, List.append_assoc .., fun s hs ↦ ?_⟩
  rcases List.mem_append.mp hs with hs | hs
  · exact hnames s hs
  · rw [List.mem_singleton.mp hs]
    exact hname

/-- Names without slashes lead only to where paths may lead. -/
theorem visible_walk {home : Location} {names : List String} (hl : Visible home l)
    (hnames : ∀ name ∈ names, '/' ∉ name.toList) (h : d.walk l names = .ok l') :
    Visible home l' := by
  fun_induction walk d l names with
  | case1 l =>
      cases h
      exact hl
  | case2 l name rest hidle ih => exact ih hl (fun s hs ↦ hnames s (List.mem_cons_of_mem _ hs)) h
  | case3 l rest hidle ih =>
      exact ih hl.dropLast (fun s hs ↦ hnames s (List.mem_cons_of_mem _ hs)) h
  | case5 l name rest hidle hup hlong hlast =>
      cases h
      exact hl.append (hnames name List.mem_cons_self)
  | case6 l name rest hidle hup hlong hlast hdir ih =>
      exact ih (hl.append (hnames name List.mem_cons_self))
        (fun s hs ↦ hnames s (List.mem_cons_of_mem _ hs)) h
  | case4 | case7 | case8 => cases h

theorem visible_of_locate (h : d.locate path = .ok l) : Visible d.home l := by
  have hstart : Visible d.home (d.origin (Path.isAbsolute path)) := by
    rw [origin]
    split
    · exact ⟨[], [], List.nil_prefix, rfl, by simp⟩
    · exact ⟨d.home, [], List.prefix_rfl, (List.append_nil _).symm, by simp⟩
  exact visible_walk hstart (fun _ ↦ Path.noSlash_of_mem_segments) (locate_eq_ok_iff.mp h).2

/-- No path leads to a new name. -/
theorem WellFormed.not_visible_freshName (hd : d.WellFormed) (l : Location) :
    ¬ Visible d.home (l ++ [d.freshName l]) := by
  obtain ⟨⟨n, hn⟩, hnone⟩ := d.exists_freshName l
  rintro ⟨above, names, habove, heq, hnames⟩
  rcases List.eq_nil_or_concat names with rfl | ⟨init, last, rfl⟩
  · rw [heq, List.append_nil, hd.above_prefix habove hd.home] at hnone
    cases hnone
  · rw [List.concat_eq_append, ← List.append_assoc] at heq
    have hlast : d.freshName l = last := by simpa using (List.append_inj' heq rfl).2
    refine hnames last (by simp) ?_
    rw [← hlast, hn]
    exact slash_mem_temporaryName n

/-- Moving a file that waits where no path leads to. -/
theorem moveFile_hidden {t : Location} {content : ByteArray} (hmove : d.moveFile t path = .ok d')
    (hhidden : ¬ Visible d.home t) (hwaits : d.node? t = some (.file content)) :
    ∃ l, d.locate path = .ok l ∧ l ≠ t ∧ d.Alike d' ∧ ∀ l', d'.node? l' =
      if l' = l then some (.file content) else if l' = t then none else d.node? l' := by
  obtain ⟨-, l, n, hlocate, hdir, hsource, rfl⟩ := moveFile_eq_ok_iff.mp hmove
  obtain rfl : n = .file content := Option.some.inj (hsource.symm.trans hwaits)
  have ht : d.node? t ≠ some .directory := by simp [hwaits]
  have hnode : ∀ l', ((d.erase t).put l (.file content)).node? l' =
      if l' = l then some (.file content) else if l' = t then none else d.node? l' := by
    intro l'
    rw [node?_put (ne_nil_of_node? hdir), node?_erase (ne_nil_of_node? ht)]
  refine ⟨l, hlocate, ?_, ⟨⟨rfl, fun l' hl' ↦ ?_⟩, ⟨rfl, fun l' hl' ↦ ?_⟩⟩, hnode⟩
  · rintro rfl
    exact hhidden (visible_of_locate hlocate)
  · rw [hnode, if_neg (ne_of_node? hdir hl'), if_neg (ne_of_node? ht hl'), hl']
  · rw [hnode] at hl'
    split at hl'
    · cases hl'
    · split at hl'
      · cases hl'
      · exact hl'

end Scaffold.Disk

import Scaffold.Proofs.Apply.Atomic
import Scaffold.Proofs.Disk.Ancestors

/-!
# Directories made for a path

A path and what is missing above it are made from the outermost directory inwards, each in the one
made before.  Removing them again gives back the disk.  The working directory cannot be made under
the empty path, and two dots behind a missing directory lead back to one that is there: in both
cases the path is not made.
-/

namespace Scaffold

namespace Disk

variable {d d' : Disk} {l : Location} {path up : String}

/-! ## One directory -/

theorem erase_put (h : d.node? l = none) (n : Node) : (d.put l n).erase l = d := by
  have hne : l ≠ [] := ne_nil_of_node? (d := d) (by simp [h])
  have hfilter : d.entries.filter (·.1 != l) = d.entries := by
    refine List.filter_eq_self.mpr fun e he ↦ ?_
    rw [bne_iff_ne]
    rintro rfl
    exact (node?_eq_none_iff hne).mp h (List.mem_map_of_mem he)
  rw [erase, put, List.filter_append, List.filter_filter]
  simp [hfilter]

/-- A disk with more directories on it, and nothing else. -/
structure Widens (d d' : Disk) : Prop where
  home : d'.home = d.home
  node : ∀ l, d'.node? l = d.node? l ∨ d.node? l = none ∧ d'.node? l = some .directory

theorem Widens.refl (d : Disk) : d.Widens d := ⟨rfl, fun _ ↦ .inl rfl⟩

theorem Widens.trans {d'' : Disk} (h : d.Widens d') (h' : d'.Widens d'') : d.Widens d'' := by
  refine ⟨h'.home.trans h.home, fun l ↦ ?_⟩
  rcases h'.node l with heq | ⟨hnone, hdir⟩
  · rw [heq]
    exact h.node l
  · rcases h.node l with heq | ⟨-, hsome⟩
    · exact .inr ⟨by rw [← heq, hnone], hdir⟩
    · rw [hnone] at hsome
      cases hsome

/-- A new directory is where nothing was, and its path leads there. -/
theorem createDirectory_new (h : d.createDirectory path = .ok d') :
    ∃ l, d'.locate path = .ok l ∧ d.node? l = none ∧
      ∀ l', d'.node? l' = if l' = l then some .directory else d.node? l' := by
  have hgrows := (extends_of_createDirectory h).grows
  obtain ⟨l, hlocate, hnone, rfl⟩ := createDirectory_eq_ok_iff.mp h
  have hne : l ≠ [] := ne_nil_of_node? (d := d) (by simp [hnone])
  exact ⟨l, locate_of_grows hgrows hlocate, hnone, node?_put hne _⟩

theorem widens_of_createDirectory (h : d.createDirectory path = .ok d') : d.Widens d' := by
  obtain ⟨l, -, hnone, hnode⟩ := createDirectory_new h
  refine ⟨(extends_of_createDirectory h).home, fun l' ↦ ?_⟩
  rw [hnode]
  split
  · next heq => exact .inr ⟨by rw [heq, hnone], rfl⟩
  · exact .inl rfl

theorem isDirectoryAt_of_createDirectory (h : d.createDirectory path = .ok d') :
    d'.isDirectoryAt path = true := by
  obtain ⟨l, hlocate, -, hnode⟩ := createDirectory_new h
  exact isDirectoryAt_iff.mpr ⟨l, hlocate, by rw [hnode, if_pos rfl]⟩

theorem WellFormed.createDirectory (hd : d.WellFormed) (h : d.createDirectory path = .ok d') :
    d'.WellFormed := by
  obtain ⟨l, hlocate, hnone, rfl⟩ := createDirectory_eq_ok_iff.mp h
  exact hd.put_new hnone (locate_dropLast hd hlocate) _

/-- Nothing is inside a new directory. -/
theorem WellFormed.node?_inside_new (hd : d.WellFormed) (h : d.createDirectory path = .ok d')
    (hlocate : d'.locate path = .ok l) {l' : Location} (hinside : Inside l' l) :
    d'.node? l' = none := by
  obtain ⟨m, hm, hnone, hnode⟩ := createDirectory_new h
  obtain rfl : m = l := Except.ok.inj (hm.symm.trans hlocate)
  rw [hnode, if_neg (Ne.symm hinside.2)]
  exact hd.node?_inside hinside (by simp [hnone])

/-- Removing a new directory gives back the disk. -/
theorem WellFormed.removeDirectory_new (hd : d.WellFormed)
    (h : d.createDirectory path = .ok d') : d'.removeDirectory path = .ok d := by
  have hgrows := (extends_of_createDirectory h).grows
  obtain ⟨l, hlocate, hnone, rfl⟩ := createDirectory_eq_ok_iff.mp h
  have hlocate' := locate_of_grows hgrows hlocate
  have hempty := isEmptyAt_iff.mpr fun _ ↦ hd.node?_inside_new h hlocate'
  have hdir : (d.put l .directory).node? l = some .directory := by
    rw [node?_put (ne_nil_of_node? (d := d) (by simp [hnone])), if_pos rfl]
  rw [removeDirectory_of hlocate' hdir, if_pos hempty, erase_put hnone]

/-! ## What is missing -/

/-- The paths at and above a path that lead nowhere, the innermost first.  The empty path stands for
the working directory, which is never missing. -/
def missing (d : Disk) (path : String) : List String :=
  (Path.ancestors path).filter fun a ↦ !a.isEmpty && !d.existsAt a

/-- The nearest of a path and its ancestors that leads somewhere leads to a directory.  A relative
path none of which leads anywhere stands in the working directory. -/
def Grounded (d : Disk) (path : String) : Prop :=
  match (Path.ancestors path).find? d.existsAt with
  | some base => d.isDirectoryAt base = true
  | none => Path.isAbsolute path = false ∧ d.isDirectoryAt "." = true

/-- However many directories are made, a directory that is not there can be made wherever the one
above it is there. -/
def Grants (d : Disk) (path : String) : Prop :=
  ∀ a ∈ Path.ancestors path, ∀ up, Path.parent? a = some up →
    ∀ d' : FileTree, d.Widens d' → d'.isDirectoryAt up = true → d'.existsAt a = false →
       ∃ d'', d'.createDirectory a = .ok d''

/-- Where a path leads somewhere, nothing above it is missing. -/
theorem WellFormed.missing_of_existsAt (hd : d.WellFormed) (h : d.existsAt path = true) :
    d.missing path = [] := by
  induction path using Path.parentInduction with
  | step path ih =>
      cases hup : Path.parent? path with
      | none => simp [missing, Path.ancestors_of_none hup, h]
      | some up =>
          rw [missing, Path.ancestors_of_parent? hup, List.filter_cons_of_neg (by simp [h])]
          by_cases hne : up = ""
          · subst hne
            rw [Path.ancestors_of_none Path.parent?_empty]
            rfl
          · exact ih up hup (existsAt_of_isDirectoryAt (hd.isDirectoryAt_parent h hup hne))

theorem missing_of_parent? (h : d.existsAt path = false) (hup : Path.parent? path = some up) :
    d.missing path = path :: d.missing up := by
  have hne := Path.ne_empty_of_parent? hup
  rw [missing, Path.ancestors_of_parent? hup, List.filter_cons_of_pos (by simp [h, hne])]
  rfl

theorem Grounded.isDirectoryAt (h : d.Grounded path) (hexists : d.existsAt path = true) :
    d.isDirectoryAt path = true := by
  obtain ⟨above, habove⟩ := Path.exists_ancestors_eq_cons path
  rwa [Grounded, habove, List.find?_cons_of_pos hexists] at h

theorem Grounded.of_parent? (h : d.Grounded path) (hmissing : d.existsAt path = false)
    (hup : Path.parent? path = some up) : d.Grounded up := by
  rw [Grounded, Path.ancestors_of_parent? hup, List.find?_cons_of_neg (by simp [hmissing]),
    ← (Path.spells_parent? hup).isAbsolute] at h
  exact h

/-- An absolute path stands on something that is there. -/
theorem Grounded.exists_of_isAbsolute (h : d.Grounded path)
    (habsolute : Path.isAbsolute path = true) :
    ∃ a ∈ Path.ancestors path, d.existsAt a = true := by
  cases hfind : (Path.ancestors path).find? d.existsAt with
  | none =>
      rw [Grounded, hfind] at h
      rw [h.1] at habsolute
      cases habsolute
  | some base => exact ⟨base, List.mem_of_find?_eq_some hfind, List.find?_some hfind⟩

/-- Directories are granted wherever they have short names. -/
theorem grants_of_fits (h : Fits path) : d.Grants path := by
  intro a ha up hup d' _ hdir hmissing
  exact (h.of_mem_ancestors a ha).exists_createDirectory hup hdir hmissing

theorem Grants.of_parent? (h : d.Grants path) (hup : Path.parent? path = some up) :
    d.Grants up := by
  intro a ha
  exact h a (by rw [Path.ancestors_of_parent? hup]; exact List.mem_cons_of_mem _ ha)

end Disk

open Disk

variable {p q : Progress} {path up : String}

/-! ## Making directories -/

namespace Progress

/-- Making directories goes on with the rest of a list where its first part has been made. -/
theorem createEach_append_of_ok {paths : List String} (h : p.createEach paths = (q, none))
    (more : List String) : p.createEach (paths ++ more) = q.createEach more := by
  induction paths generalizing p with
  | nil =>
      cases h
      rfl
  | cons path paths ih =>
      rw [List.cons_append]
      cases hcreate : p.disk.createDirectory path with
      | error e => simp [createEach, hcreate] at h
      | ok disk =>
          simp only [createEach, hcreate] at h ⊢
          exact ih h

/-- A directory that cannot be made ends the whole list. -/
theorem createEach_append_of_error {paths : List String} {e : DiskError}
    (h : p.createEach paths = (q, some e)) (more : List String) :
    p.createEach (paths ++ more) = (q, some e) := by
  induction paths generalizing p with
  | nil => cases h
  | cons path paths ih =>
      rw [List.cons_append]
      cases hcreate : p.disk.createDirectory path with
      | error e =>
          simp only [createEach, hcreate] at h ⊢
          exact h
      | ok disk =>
          simp only [createEach, hcreate] at h ⊢
          exact ih h

theorem createDirectories_of_existsAt (h : p.disk.existsAt path = true) :
    p.createDirectories path = (p, none) := by
  obtain ⟨above, habove⟩ := Path.exists_ancestors_eq_cons path
  rw [createDirectories, habove, List.takeWhile_cons_of_neg (by simp [h])]
  rfl

theorem createDirectories_of_none (h : p.disk.existsAt path = false)
    (hup : Path.parent? path = none) : p.createDirectories path = p.createEach [path] := by
  rw [createDirectories, Path.ancestors_of_none hup, List.takeWhile_cons_of_pos (by simp [h])]
  rfl

/-- A missing path is made once its parent is there. -/
theorem createDirectories_of_ok (h : p.disk.existsAt path = false)
    (hup : Path.parent? path = some up) (hparent : p.createDirectories up = (q, none)) :
    p.createDirectories path = q.createEach [path] := by
  rw [createDirectories, Path.ancestors_of_parent? hup, List.takeWhile_cons_of_pos (by simp [h]),
    List.reverse_cons]
  exact createEach_append_of_ok hparent [path]

theorem createDirectories_of_error (h : p.disk.existsAt path = false)
    (hup : Path.parent? path = some up) {e : DiskError}
    (hparent : p.createDirectories up = (q, some e)) :
    p.createDirectories path = (q, some e) := by
  rw [createDirectories, Path.ancestors_of_parent? hup, List.takeWhile_cons_of_pos (by simp [h]),
    List.reverse_cons]
  exact createEach_append_of_error hparent [path]

theorem createEach_singleton_eq_none_iff : p.createEach [path] = (q, none) ↔
    ∃ disk, p.disk.createDirectory path = .ok disk ∧ q = ⟨disk, p.created ++ [path]⟩ := by
  rw [createEach]
  cases hcreate : p.disk.createDirectory path with
  | error e => simp
  | ok disk => simp [createEach, eq_comm]

/-- Where directories have been made for a path, it was there before, or its parent is there by now
and it has been made in that. -/
theorem createDirectories_cases (hd : p.disk.WellFormed)
    (h : p.createDirectories path = (q, none)) :
    p.disk.existsAt path = true ∧ q = p ∨
      p.disk.existsAt path = false ∧ ∃ up r disk, Path.parent? path = some up ∧
        p.createDirectories up = (r, none) ∧ r.disk.createDirectory path = .ok disk ∧
        q = ⟨disk, r.created ++ [path]⟩ := by
  cases hexists : p.disk.existsAt path with
  | true =>
      rw [createDirectories_of_existsAt hexists] at h
      cases h
      exact .inl ⟨rfl, rfl⟩
  | false =>
      refine .inr ⟨rfl, ?_⟩
      cases hup : Path.parent? path with
      | none =>
          -- Without a parent a path has no parts, and is where work goes on or the root.
          rw [createDirectories_of_none hexists hup] at h
          obtain ⟨disk, hcreate, -⟩ := createEach_singleton_eq_none_iff.mp h
          obtain ⟨l, hlocate, hnone, -⟩ := createDirectory_eq_ok_iff.mp hcreate
          obtain ⟨init, name, hparts, -⟩ := hd.exists_name_of_free hlocate hnone
          exact absurd hup (Path.parent?_ne_none (by simp [hparts]))
      | some up =>
          rcases hparent : p.createDirectories up with ⟨r, - | e⟩
          · rw [createDirectories_of_ok hexists hup hparent] at h
            obtain ⟨disk, hcreate, rfl⟩ := createEach_singleton_eq_none_iff.mp h
            exact ⟨up, r, disk, rfl, hparent, hcreate, rfl⟩
          · rw [createDirectories_of_error hexists hup hparent] at h
            cases h

/-- What has been done where directories have been made for a path. -/
structure Builds (p : Progress) (path : String) (q : Progress) : Prop where
  wellFormed : q.disk.WellFormed
  widens : p.disk.Widens q.disk
  directory : q.disk.isDirectoryAt path = true
  created : q.created = p.created ++ (p.disk.missing path).reverse
  restored : removeCreated ⟨q.disk, (p.disk.missing path).reverse⟩ = p.disk

/-- Directories that have been made are the missing ones, and taking them away gives back the
disk. -/
theorem builds_of_createDirectories (hd : p.disk.WellFormed) (hground : p.disk.Grounded path)
    (h : p.createDirectories path = (q, none)) : Builds p path q := by
  induction path using Path.parentInduction generalizing q with
  | step path ih =>
      rcases createDirectories_cases hd h with
        ⟨hexists, rfl⟩ | ⟨hexists, up, r, disk, hup, hparent, hcreate, rfl⟩
      · have hnone := hd.missing_of_existsAt hexists
        refine ⟨hd, .refl _, hground.isDirectoryAt hexists, by simp [hnone], ?_⟩
        rw [hnone]
        rfl
      · have hr := ih up hup (hground.of_parent? hexists hup) hparent
        constructor
        case wellFormed => exact hr.wellFormed.createDirectory hcreate
        case widens => exact hr.widens.trans (widens_of_createDirectory hcreate)
        case directory => exact isDirectoryAt_of_createDirectory hcreate
        case created =>
          rw [hr.created, missing_of_parent? hexists hup, List.reverse_cons, List.append_assoc]
        case restored =>
          rw [missing_of_parent? hexists hup, List.reverse_cons,
            removeCreated_concat_ok (hr.wellFormed.removeDirectory_new hcreate), hr.restored]

/-- Once the parent of a missing path is there, the path is still missing, unless it leads up. -/
theorem existsAt_eq_false_of_parent (hd : p.disk.WellFormed) (hground : p.disk.Grounded path)
    (hmissing : p.disk.existsAt path = false) (hup : Path.parent? path = some up)
    (hlast : (Path.parts path).getLast? ≠ some "..") (h : p.createDirectories up = (q, none)) :
    q.disk.existsAt path = false := by
  rcases createDirectories_cases hd h with
    ⟨-, rfl⟩ | ⟨hexists, above, r, disk, habove, hparent, hcreate, rfl⟩
  · exact hmissing
  · have hr := builds_of_createDirectories hd
      ((hground.of_parent? hmissing hup).of_parent? hexists habove) hparent
    obtain ⟨l, hlocate, -, -⟩ := createDirectory_new hcreate
    exact existsAt_eq_false_of_empty hup hlocate
      (fun _ ↦ hr.wellFormed.node?_inside_new hcreate hlocate) hlast

/-- Where directories have been made for a path, part of it was there, and none of them leads up. -/
theorem grounds_of_createDirectories (hd : p.disk.WellFormed) (hground : p.disk.Grounded path)
    (h : p.createDirectories path = (q, none)) :
    (∃ a ∈ Path.ancestors path, p.disk.existsAt a = true) ∧
      ∀ a ∈ p.disk.missing path, (Path.parts a).getLast? ≠ some ".." := by
  induction path using Path.parentInduction generalizing q with
  | step path ih =>
      rcases createDirectories_cases hd h with
        ⟨hexists, -⟩ | ⟨hexists, up, r, disk, hup, hparent, hcreate, -⟩
      · exact ⟨⟨path, Path.self_mem_ancestors path, hexists⟩, by
          simp [hd.missing_of_existsAt hexists]⟩
      · have hground' := hground.of_parent? hexists hup
        obtain ⟨⟨a, ha, hthere⟩, hlast⟩ := ih up hup hground' hparent
        refine ⟨⟨a, ?_, hthere⟩, ?_⟩
        · rw [Path.ancestors_of_parent? hup]
          exact List.mem_cons_of_mem _ ha
        · rw [missing_of_parent? hexists hup]
          intro a ha
          rcases List.mem_cons.mp ha with rfl | ha
          · have hr := builds_of_createDirectories hd hground' hparent
            obtain ⟨l, hlocate, hnone, -⟩ := createDirectory_eq_ok_iff.mp hcreate
            obtain ⟨init, name, hparts, hname⟩ :=
              hr.wellFormed.exists_name_of_free hlocate hnone
            simpa [hparts] using hname
          · exact hlast a ha

/-- Where part of a path is there and none of what is missing leads up, directories are made. -/
theorem exists_createDirectories (hd : p.disk.WellFormed) (hground : p.disk.Grounded path)
    (hgrants : p.disk.Grants path) (hthere : ∃ a ∈ Path.ancestors path, p.disk.existsAt a = true)
    (hlast : ∀ a ∈ p.disk.missing path, (Path.parts a).getLast? ≠ some "..") :
    ∃ q, p.createDirectories path = (q, none) := by
  induction path using Path.parentInduction with
  | step path ih =>
      cases hexists : p.disk.existsAt path with
      | true => exact ⟨p, createDirectories_of_existsAt hexists⟩
      | false =>
          obtain ⟨a, ha, hthere⟩ := hthere
          cases hup : Path.parent? path with
          | none =>
              rw [Path.ancestors_of_none hup, List.mem_singleton] at ha
              rw [ha, hexists] at hthere
              cases hthere
          | some up =>
              have hground' := hground.of_parent? hexists hup
              rw [missing_of_parent? hexists hup] at hlast
              have ha' : a ∈ Path.ancestors up := by
                rw [Path.ancestors_of_parent? hup] at ha
                refine (List.mem_cons.mp ha).resolve_left ?_
                rintro rfl
                rw [hexists] at hthere
                cases hthere
              obtain ⟨r, hparent⟩ := ih up hup hground' (hgrants.of_parent? hup) ⟨a, ha', hthere⟩
                fun b hb ↦ hlast b (List.mem_cons_of_mem _ hb)
              have hr := builds_of_createDirectories hd hground' hparent
              have hfree := existsAt_eq_false_of_parent hd hground hexists hup
                (hlast path List.mem_cons_self) hparent
              obtain ⟨disk, hcreate⟩ := hgrants path (Path.self_mem_ancestors path) up hup
                ⟨r.disk, hr.wellFormed⟩ hr.widens hr.directory hfree
              rw [createDirectories_of_ok hexists hup hparent]
              exact ⟨_, createEach_singleton_eq_none_iff.mpr ⟨disk, hcreate, rfl⟩⟩

/-- Where nothing of a relative path is there, the first directory asked for is the empty path. -/
theorem createDirectories_of_relative (hrelative : Path.isAbsolute path = false)
    (hnone : ∀ a ∈ Path.ancestors path, p.disk.existsAt a = false) :
    p.createDirectories path = (p, some .notFound) := by
  induction path using Path.parentInduction with
  | step path ih =>
      have hmissing := hnone path (Path.self_mem_ancestors path)
      cases hup : Path.parent? path with
      | none =>
          obtain rfl := Path.eq_empty_of_parent?_none hup hrelative
          rw [createDirectories_of_none hmissing hup]
          rfl
      | some up =>
          rw [Path.ancestors_of_parent? hup] at hnone
          have hparent := ih up hup ((Path.spells_parent? hup).isAbsolute.trans hrelative)
            fun a ha ↦ hnone a (List.mem_cons_of_mem _ ha)
          exact createDirectories_of_error hmissing hup hparent

/-- Directories are made for a path exactly if it is absolute or part of it is there, and no path
that is missing ends in two dots.  Then the path leads to a directory, exactly what was missing is
on record, the outermost first, and removing that gives back the disk.  For a relative path of which
nothing is there, nothing is made. -/
theorem directories_made_iff {d : FileTree} {created : List String} (hground : d.Grounded path)
    (hgrants : d.Grants path) :
    ((createDirectories ⟨d, created⟩ path).2 = none ↔
      (Path.isAbsolute path = true ∨ ∃ a ∈ Path.ancestors path, d.existsAt a = true) ∧
        ∀ a ∈ d.missing path, (Path.parts a).getLast? ≠ some "..") ∧
    ((createDirectories ⟨d, created⟩ path).2 = none →
      (createDirectories ⟨d, created⟩ path).1.disk.isDirectoryAt path = true ∧
      (createDirectories ⟨d, created⟩ path).1.created = created ++ (d.missing path).reverse ∧
      removeCreated ⟨(createDirectories ⟨d, created⟩ path).1.disk, (d.missing path).reverse⟩ = d) ∧
    (Path.isAbsolute path = false → (∀ a ∈ Path.ancestors path, d.existsAt a = false) →
      createDirectories ⟨d, created⟩ path = (⟨d, created⟩, some .notFound)) := by
  rcases hcreate : createDirectories ⟨d, created⟩ path with ⟨q, failure⟩
  refine ⟨⟨?_, ?_⟩, ?_, fun hrelative hnone ↦ ?_⟩
  · rintro rfl
    obtain ⟨hthere, hlast⟩ :=
      grounds_of_createDirectories (p := ⟨d, created⟩) d.wellFormed hground hcreate
    exact ⟨.inr hthere, hlast⟩
  · rintro ⟨hthere, hlast⟩
    obtain ⟨q', hq'⟩ := exists_createDirectories (p := ⟨d, created⟩) d.wellFormed hground hgrants
      (hthere.elim hground.exists_of_isAbsolute id) hlast
    rw [hcreate] at hq'
    exact congrArg Prod.snd hq'
  · rintro rfl
    have hbuilds :=
      builds_of_createDirectories (p := ⟨d, created⟩) d.wellFormed hground hcreate
    exact ⟨hbuilds.directory, hbuilds.created, hbuilds.restored⟩
  · rw [← hcreate]
    exact createDirectories_of_relative hrelative hnone

def outDisk : FileTree where
  entries := [(["out"], .directory)]
  wellFormed := wellFormed_of_entries rfl (by simp [node?])

theorem directories_made_iff_outDisk :
    (createDirectories ⟨outDisk, ["kept"]⟩ "out/api/v1").2 = none ∧
      (createDirectories ⟨outDisk, ["kept"]⟩ "out/api/v1").1.disk.isDirectoryAt "out/api/v1" =
        true ∧
      (createDirectories ⟨outDisk, ["kept"]⟩ "out/api/v1").1.created =
        ["kept", "out/api", "out/api/v1"] ∧
      removeCreated ⟨(createDirectories ⟨outDisk, ["kept"]⟩ "out/api/v1").1.disk,
        ["out/api", "out/api/v1"]⟩ = outDisk := by
  have hmissing : outDisk.missing "out/api/v1" = ["out/api/v1", "out/api"] := by decide +kernel
  have hfind : (Path.ancestors "out/api/v1").find? outDisk.existsAt = some "out" := by
    decide +kernel
  have hground : outDisk.Grounded "out/api/v1" := by
    rw [Grounded, hfind]
    decide +kernel
  have hfits : Fits "out/api/v1" :=
    ⟨by decide, by decide, by decide, Path.tight_of_endsInName (by decide) (by decide) (by decide)⟩
  obtain ⟨hiff, hmade, -⟩ := directories_made_iff (d := outDisk)
    hground (grants_of_fits hfits)
  rw [hmissing] at hiff hmade
  have hok := hiff.mpr ⟨.inr ⟨"out", by decide +kernel, by decide +kernel⟩, by decide⟩
  exact ⟨hok, hmade hok⟩

/-- A relative path of which nothing is there is not made, nor is one in which two dots follow a
missing directory. -/
theorem directories_refused :
    Grounded {} "out" ∧ Grants {} "out" ∧
      (createDirectories ⟨{}, []⟩ "out").2 = some .notFound ∧
      Grounded {} "/x/../y" ∧ Grants {} "/x/../y" ∧
      (createDirectories ⟨{}, []⟩ "/x/../y").2 = some .exists := by
  have hout : Fits "out" :=
    ⟨by decide, by decide, by decide, Path.tight_of_endsInName (by decide) (by decide) (by decide)⟩
  have hdots : Fits "/x/../y" :=
    ⟨by decide, by decide, by decide, Path.tight_of_endsInName (by decide) (by decide) (by decide)⟩
  have hnone : (Path.ancestors "out").find? (existsAt {}) = none := by decide +kernel
  have hroot : (Path.ancestors "/x/../y").find? (existsAt {}) = some "/" := by decide +kernel
  refine ⟨?_, grants_of_fits hout, by decide +kernel, ?_, grants_of_fits hdots,
    by decide +kernel⟩
  · rw [Grounded, hnone]
    decide +kernel
  · rw [Grounded, hroot]
    decide +kernel

end Progress

end Scaffold

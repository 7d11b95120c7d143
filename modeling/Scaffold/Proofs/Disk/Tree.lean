import Scaffold.Proofs.Path

/-!
# Disks as trees

What an operation does to a disk is said by what `node?` gives afterwards.  On a well-formed disk
everything lies in directories, so that a path can only lead somewhere below directories, and more
directories never change where it leads.
-/

namespace Scaffold

variable {d d' : Disk} {l l' : Location} {n : Node} {path : String}

namespace Disk

/-! ## Single locations -/

theorem lookup_cons_eq (e : Location × Node) (entries : List (Location × Node)) (l : Location) :
    (e :: entries).lookup l = if l = e.1 then some e.2 else entries.lookup l := by
  rw [List.lookup_cons]
  by_cases hl : l = e.1
  · rw [if_pos hl, beq_iff_eq.mpr hl]
  · rw [if_neg hl, beq_eq_false_iff_ne.mpr hl]

theorem lookup_filter_ne (entries : List (Location × Node)) (l l' : Location) :
    (entries.filter (·.1 != l)).lookup l' = if l' = l then none else entries.lookup l' := by
  induction entries with
  | nil => simp
  | cons e entries ih =>
      rw [lookup_cons_eq]
      by_cases he : e.1 = l
      · rw [List.filter_cons_of_neg (by simp [he]), ih]
        split <;> simp_all
      · rw [List.filter_cons_of_pos (by simpa using he), lookup_cons_eq, ih]
        split <;> simp_all

theorem node?_of_ne_nil (d : Disk) (hl : l ≠ []) : d.node? l = d.entries.lookup l := by
  rw [node?, if_neg (by simpa using hl)]

theorem ne_nil_of_node? (h : d.node? l ≠ some .directory) : l ≠ [] := by
  rintro rfl
  exact h rfl

theorem node?_erase (hl : l ≠ []) (l' : Location) :
    (d.erase l).node? l' = if l' = l then none else d.node? l' := by
  by_cases hl' : l' = []
  · subst hl'
    rw [if_neg hl.symm]
    rfl
  · rw [node?_of_ne_nil _ hl', node?_of_ne_nil _ hl']
    exact lookup_filter_ne d.entries l l'

theorem node?_put (hl : l ≠ []) (n : Node) (l' : Location) :
    (d.put l n).node? l' = if l' = l then some n else d.node? l' := by
  by_cases hl' : l' = []
  · subst hl'
    rw [if_neg hl.symm]
    rfl
  · rw [node?_of_ne_nil _ hl', node?_of_ne_nil _ hl', put, List.lookup_append, lookup_filter_ne,
      lookup_cons_eq]
    split <;> simp_all

theorem home_put (d : Disk) (l : Location) (n : Node) : (d.put l n).home = d.home := rfl

theorem node?_eq_none_iff (hl : l ≠ []) : d.node? l = none ↔ l ∉ d.entries.map Prod.fst := by
  rw [node?_of_ne_nil d hl, List.lookup_eq_none_iff]
  simp only [List.mem_map, not_exists, not_and, bne_iff_ne]
  exact forall₂_congr fun e he ↦ ne_comm

/-- Whether one location lies properly inside another. -/
def Inside (l' l : Location) : Prop := l <+: l' ∧ l ≠ l'

theorem Inside.trans {l l' l'' : Location} (h : Inside l'' l') (h' : Inside l' l) :
    Inside l'' l := by
  refine ⟨h'.1.trans h.1, ?_⟩
  rintro rfl
  exact h.2 (h.1.eq_of_length (Nat.le_antisymm h.1.length_le h'.1.length_le))

/-- A location is empty exactly if nothing is inside of it. -/
theorem isEmptyAt_iff : d.isEmptyAt l = true ↔ ∀ l', Inside l' l → d.node? l' = none := by
  have hlength : ∀ l' : Location, Inside l' l ↔ l <+: l' ∧ l.length < l'.length := by
    intro l'
    refine and_congr_right fun hp ↦ ⟨fun hne ↦ ?_, fun hlt heq ↦ ?_⟩
    · exact Nat.lt_of_le_of_ne hp.length_le fun heq ↦ hne (hp.eq_of_length heq)
    · exact Nat.ne_of_lt hlt (congrArg List.length heq)
  have hne : ∀ l', Inside l' l → l' ≠ [] := by
    rintro l' ⟨hp, hne⟩ rfl
    exact hne (List.prefix_nil.mp hp)
  constructor
  · intro h l' hl'
    rw [node?_eq_none_iff (hne l' hl')]
    intro hmem
    obtain ⟨e, he, rfl⟩ := List.mem_map.mp hmem
    have htest := List.all_eq_true.mp h e he
    simp only [Bool.not_eq_true', Bool.and_eq_false_iff, decide_eq_false_iff_not] at htest
    have hinside := (hlength e.1).mp hl'
    rcases htest with hp | hlt
    · rw [List.isPrefixOf_iff_prefix.mpr hinside.1] at hp
      cases hp
    · exact hlt hinside.2
  · intro h
    refine List.all_eq_true.mpr fun e he ↦ ?_
    by_contra htest
    have hinside : Inside e.1 l := by
      rw [hlength]
      simpa using htest
    exact (node?_eq_none_iff (hne _ hinside)).mp (h _ hinside) (List.mem_map.mpr ⟨e, he, rfl⟩)

/-! ## Well-formed disks -/

/-- Everything lies in a directory, and so does the work. -/
structure WellFormed (d : Disk) : Prop where
  home : d.node? d.home = some .directory
  above : ∀ l name, d.node? (l ++ [name]) ≠ none → d.node? l = some .directory

/-- Everything above something is a directory. -/
theorem WellFormed.above_append (hd : d.WellFormed) {names : List String} (hnames : names ≠ [])
    (h : d.node? (l ++ names) ≠ none) : d.node? l = some .directory := by
  induction names using List.reverseRecOn with
  | nil => exact absurd rfl hnames
  | append_singleton names name ih =>
      rw [← List.append_assoc] at h
      have hup := hd.above _ _ h
      cases names with
      | nil => simpa using hup
      | cons => exact ih (List.cons_ne_nil _ _) (by rw [hup]; exact Option.some_ne_none _)

theorem WellFormed.above_prefix (hd : d.WellFormed) (hl : l <+: l')
    (h : d.node? l' = some .directory) : d.node? l = some .directory := by
  obtain ⟨names, rfl⟩ := hl
  cases names with
  | nil => simpa using h
  | cons => exact hd.above_append (List.cons_ne_nil _ _) (by rw [h]; exact Option.some_ne_none _)

/-- Nothing is inside a location where nothing is. -/
theorem WellFormed.node?_inside (hd : d.WellFormed) (hl : Inside l' l)
    (h : d.node? l ≠ some .directory) : d.node? l' = none := by
  obtain ⟨⟨names, rfl⟩, hne⟩ := hl
  by_contra hsome
  exact h (hd.above_append (by rintro rfl; exact hne (List.append_nil l).symm) hsome)

theorem WellFormed.dropLast (hd : d.WellFormed) (h : d.node? l ≠ none) :
    d.node? l.dropLast = some .directory := by
  rcases List.eq_nil_or_concat l with rfl | ⟨l, name, rfl⟩
  · rfl
  · rw [List.concat_eq_append] at h ⊢
    rw [List.dropLast_concat]
    exact hd.above l name h

theorem ne_of_node? (hl : d.node? l ≠ some .directory) (hl' : d.node? l' = some .directory) :
    l' ≠ l := by
  rintro rfl
  exact hl hl'

/-- A disk stays well-formed where something is put into a directory and not on one. -/
theorem WellFormed.put (hd : d.WellFormed) (hl : d.node? l ≠ some .directory)
    (hup : d.node? l.dropLast = some .directory) (n : Node) : (d.put l n).WellFormed := by
  have hne := ne_nil_of_node? hl
  refine ⟨?_, fun up name h ↦ ?_⟩
  · rw [home_put, node?_put hne, if_neg (ne_of_node? hl hd.home)]
    exact hd.home
  · rw [node?_put hne]
    rw [node?_put hne] at h
    split at h
    · next heq =>
        subst heq
        rw [List.dropLast_concat] at hup
        rw [if_neg (by simp), hup]
    · have hdir := hd.above up name h
      rw [if_neg (ne_of_node? hl hdir), hdir]

theorem WellFormed.put_new (hd : d.WellFormed) (hl : d.node? l = none)
    (hup : d.node? l.dropLast = some .directory) (n : Node) : (d.put l n).WellFormed :=
  hd.put (by simp [hl]) hup n

theorem wellFormed_of_entries (hhome : d.node? d.home = some .directory)
    (h : ∀ e ∈ d.entries, d.node? e.1.dropLast = some .directory) : d.WellFormed := by
  refine ⟨hhome, fun l name hsome ↦ ?_⟩
  have hentry : l ++ [name] ∈ d.entries.map Prod.fst := by
    by_contra hnone
    exact hsome ((node?_eq_none_iff (by simp)).mpr hnone)
  obtain ⟨e, he, heq⟩ := List.mem_map.mp hentry
  have hup := h e he
  rwa [heq, List.dropLast_concat] at hup

end Disk

/-- A disk that is well-formed. -/
structure FileTree extends Disk where
  wellFormed : toDisk.WellFormed

namespace FileTree

instance : Coe FileTree Disk := ⟨toDisk⟩

def empty : FileTree := ⟨{}, Disk.wellFormed_of_entries rfl (by simp)⟩

end FileTree

namespace Disk

/-! ## Following paths -/

/-- Every directory of one disk is one of another, on which work goes on in the same place. -/
structure Grows (d d' : Disk) : Prop where
  home : d'.home = d.home
  directory : ∀ l, d.node? l = some .directory → d'.node? l = some .directory

theorem Grows.refl (d : Disk) : d.Grows d := ⟨rfl, fun _ ↦ id⟩

theorem Grows.trans {d'' : Disk} (h : d.Grows d') (h' : d'.Grows d'') : d.Grows d'' :=
  ⟨h'.home.trans h.home, fun l hl ↦ h'.directory l (h.directory l hl)⟩

theorem grows_put (hl : d.node? l ≠ some .directory) (n : Node) : d.Grows (d.put l n) := by
  refine ⟨rfl, fun l' hl' ↦ ?_⟩
  rw [node?_put (ne_nil_of_node? hl), if_neg (ne_of_node? hl hl'), hl']

/-- Everything on one disk is on another, on which work goes on in the same place. -/
structure Extends (d d' : Disk) : Prop where
  home : d'.home = d.home
  keeps : ∀ l n, d.node? l = some n → d'.node? l = some n

theorem Extends.refl (d : Disk) : d.Extends d := ⟨rfl, fun _ _ ↦ id⟩

theorem Extends.trans (h : d.Extends d') (h' : d'.Extends d'') : d.Extends d'' :=
  ⟨h'.home.trans h.home, fun l n hl ↦ h'.keeps l n (h.keeps l n hl)⟩

theorem Extends.grows (h : d.Extends d') : d.Grows d' := ⟨h.home, fun l ↦ h.keeps l _⟩

theorem extends_put (hl : d.node? l = none) (n : Node) : d.Extends (d.put l n) := by
  have hne : l ≠ [] := ne_nil_of_node? (d := d) (by simp [hl])
  refine ⟨rfl, fun l' n' hl' ↦ ?_⟩
  rw [node?_put hne, if_neg, hl']
  rintro rfl
  rw [hl] at hl'
  cases hl'

/-- More directories never change where names lead. -/
theorem walk_of_grows (h : d.Grows d') {names : List String} (hwalk : d.walk l names = .ok l') :
    d'.walk l names = .ok l' := by
  fun_induction walk d l names with
  | case1 l => exact hwalk
  | case2 l name rest hidle ih => rw [walk, if_pos hidle]; exact ih hwalk
  | case3 l rest hidle ih => rw [walk, if_neg hidle, if_pos rfl]; exact ih hwalk
  | case4 l name rest hidle hup hlong => cases hwalk
  | case5 l name rest hidle hup hlong hlast =>
      rw [walk, if_neg hidle, if_neg hup, if_neg hlong, if_pos hlast]
      exact hwalk
  | case6 l name rest hidle hup hlong hlast hdir ih =>
      rw [walk, if_neg hidle, if_neg hup, if_neg hlong, if_neg hlast, h.directory _ hdir]
      exact ih hwalk
  | case7 | case8 => cases hwalk

structure Usable (path : String) : Prop where
  noZero : '\x00' ∉ path.toList
  nonempty : path ≠ ""
  short : path.utf8ByteSize < maxPath

def origin (d : Disk) (absolute : Bool) : Location := if absolute then [] else d.home

/-- A path that can be used leads where its parts lead. -/
theorem locate_eq_ok_iff : d.locate path = .ok l ↔ Usable path ∧
    d.walk (d.origin (Path.isAbsolute path)) (Path.segments (dropSlashes path)) = .ok l := by
  rw [locate]
  split
  · next hzero => exact ⟨nofun, fun h ↦ absurd (List.contains_iff_mem.mp hzero) h.1.noZero⟩
  · next hzero =>
    split
    · next hempty => exact ⟨nofun, fun h ↦ absurd (String.isEmpty_iff.mp hempty) h.1.nonempty⟩
    · next hempty =>
      split
      · next hlong => exact ⟨nofun, fun h ↦ absurd hlong (Nat.not_le_of_lt h.1.short)⟩
      · next hlong =>
        have husable : Usable path :=
          ⟨fun h ↦ hzero (List.contains_iff_mem.mpr h), fun h ↦ hempty (String.isEmpty_iff.mpr h),
            Nat.lt_of_not_le hlong⟩
        exact ⟨fun h ↦ ⟨husable, h⟩, fun h ↦ h.2⟩

theorem locate_of_grows (h : d.Grows d') (hlocate : d.locate path = .ok l) :
    d'.locate path = .ok l := by
  rw [locate_eq_ok_iff] at hlocate ⊢
  refine ⟨hlocate.1, ?_⟩
  rw [origin, h.home]
  exact walk_of_grows h hlocate.2

/-- Both disks have the same directories, and work goes on in the same place. -/
structure Alike (d d' : Disk) : Prop where
  there : d.Grows d'
  back : d'.Grows d

theorem Alike.refl (d : Disk) : d.Alike d := ⟨.refl d, .refl d⟩

theorem Alike.trans {d'' : Disk} (h : d.Alike d') (h' : d'.Alike d'') : d.Alike d'' :=
  ⟨h.there.trans h'.there, h'.back.trans h.back⟩

theorem Alike.locate_iff (h : d.Alike d') : d'.locate path = .ok l ↔ d.locate path = .ok l :=
  ⟨locate_of_grows h.back, locate_of_grows h.there⟩

/-- A walk ends in a directory. -/
theorem walk_dropLast (hd : d.WellFormed) {names : List String} (hl : d.node? l = some .directory)
    (hwalk : d.walk l names = .ok l') : d.node? l'.dropLast = some .directory := by
  fun_induction walk d l names with
  | case1 l =>
      cases hwalk
      exact hd.dropLast (by rw [hl]; exact Option.some_ne_none _)
  | case2 l name rest hidle ih => exact ih hl hwalk
  | case3 l rest hidle ih =>
      exact ih (hd.dropLast (by rw [hl]; exact Option.some_ne_none _)) hwalk
  | case5 l name rest hidle hup hlong hlast =>
      cases hwalk
      rwa [List.dropLast_concat]
  | case6 l name rest hidle hup hlong hlast hdir ih => exact ih hdir hwalk
  | case4 | case7 | case8 => cases hwalk

theorem WellFormed.node?_origin (hd : d.WellFormed) (absolute : Bool) :
    d.node? (d.origin absolute) = some .directory := by
  rw [origin]
  split
  · rfl
  · exact hd.home

theorem locate_dropLast (hd : d.WellFormed) (hlocate : d.locate path = .ok l) :
    d.node? l.dropLast = some .directory := by
  exact walk_dropLast hd (hd.node?_origin _) (locate_eq_ok_iff.mp hlocate).2

/-! ## Following names -/

theorem walk_of_idle {names : List String} (h : ∀ name ∈ names, Path.isIdle name = true) :
    d.walk l names = .ok l := by
  induction names with
  | nil => rfl
  | cons name names ih =>
      rw [walk, if_pos (h name List.mem_cons_self)]
      exact ih fun name hname ↦ h name (List.mem_cons_of_mem _ hname)

/-- Names that lead nowhere may be left out, except for the last. -/
theorem walk_filter {names : List String}
    (hlast : ∀ last ∈ names.getLast?, Path.isIdle last = false) :
    d.walk l (names.filter (!Path.isIdle ·)) = d.walk l names := by
  induction names generalizing l with
  | nil => rfl
  | cons name rest ih =>
      have hrest : ∀ last ∈ rest.getLast?, Path.isIdle last = false := by
        intro last h
        cases rest with
        | nil => cases h
        | cons => exact hlast last h
      by_cases hidle : Path.isIdle name = true
      · rw [List.filter_cons_of_neg (by simpa using hidle), ih hrest, walk, if_pos hidle]
      · have hempty : (rest.filter (!Path.isIdle ·)).isEmpty = rest.isEmpty := by
          rw [Bool.eq_iff_iff, List.isEmpty_iff, List.isEmpty_iff]
          refine ⟨fun h ↦ ?_, fun h ↦ by rw [h, List.filter_nil]⟩
          by_contra hne
          obtain ⟨last, hmem⟩ :=
            Option.ne_none_iff_exists'.mp (List.getLast?_eq_none_iff.not.mpr hne)
          have := List.filter_eq_nil_iff.mp h last (List.mem_of_getLast? hmem)
          simp [hrest last hmem] at this
        rw [List.filter_cons_of_pos (by simpa using hidle), walk, walk, hempty]
        simp only [ih hrest]

theorem locate_of_spells {absolute : Bool} {names : List String}
    (h : Path.Spells path absolute names) :
    d.locate path = .ok l ↔ Usable path ∧ d.walk (d.origin absolute) names = .ok l := by
  obtain ⟨rfl, rfl, htight⟩ := h
  have hwalk : ∀ l, d.walk l (Path.segments (dropSlashes path)) = d.walk l (Path.parts path) := by
    intro l
    by_cases hparts : Path.parts path = []
    · rw [hparts, walk_of_idle fun _ ↦ Path.isIdle_of_mem_dropSlashes hparts, walk]
    · rw [Path.dropSlashes_of_tight htight hparts, Path.parts, walk_filter]
      intro last hlast
      exact Bool.eq_false_iff.mpr fun hidle ↦ hparts (htight last hlast hidle)
  rw [locate_eq_ok_iff, hwalk]

theorem exists_locate_of_existsAt (h : d.existsAt path = true) : ∃ l, d.locate path = .ok l := by
  cases hlocate : d.locate path with
  | ok l => exact ⟨l, rfl⟩
  | error e => simp [existsAt, find, hlocate, bind, Except.bind] at h

/-- A walk along several names leads by way of the first of them. -/
theorem walk_append {names more : List String} (h : d.walk l (names ++ more) = .ok l') :
    ∃ middle, d.walk l names = .ok middle ∧ d.walk middle more = .ok l' := by
  fun_induction walk d l names with
  | case1 l => exact ⟨l, rfl, h⟩
  | case2 l name rest hidle ih =>
      rw [List.cons_append, walk, if_pos hidle] at h
      exact ih h
  | case3 l rest hidle ih =>
      rw [List.cons_append, walk, if_neg hidle, if_pos rfl] at h
      exact ih h
  | case4 l name rest hidle hup hlong =>
      rw [List.cons_append, walk, if_neg hidle, if_neg hup, if_pos hlong] at h
      cases h
  | case5 l name rest hidle hup hlong hlast =>
      obtain rfl := List.isEmpty_iff.mp hlast
      rw [List.cons_append, walk, if_neg hidle, if_neg hup, if_neg hlong, List.nil_append] at h
      refine ⟨_, rfl, ?_⟩
      split at h
      · next hmore =>
          obtain rfl := List.isEmpty_iff.mp hmore
          exact h
      · split at h
        · exact h
        · cases h
        · cases h
  | case6 l name rest hidle hup hlong hlast hdir ih =>
      rw [List.cons_append, walk, if_neg hidle, if_neg hup, if_neg hlong,
        if_neg (by simp_all), hdir] at h
      exact ih h
  | case7 l name rest hidle hup hlong hlast content hfile =>
      rw [List.cons_append, walk, if_neg hidle, if_neg hup, if_neg hlong,
        if_neg (by simp_all), hfile] at h
      cases h
  | case8 l name rest hidle hup hlong hlast hnone =>
      rw [List.cons_append, walk, if_neg hidle, if_neg hup, if_neg hlong,
        if_neg (by simp_all), hnone] at h
      cases h

/-- Two walks are one where the first one ends in a directory. -/
theorem walk_append_of {names more : List String} {middle : Location}
    (h : d.walk l names = .ok middle) (hmiddle : d.node? middle = some .directory)
    (hmore : d.walk middle more = .ok l') : d.walk l (names ++ more) = .ok l' := by
  fun_induction walk d l names with
  | case1 l =>
      cases h
      exact hmore
  | case2 l name rest hidle ih =>
      rw [List.cons_append, walk, if_pos hidle]
      exact ih h
  | case3 l rest hidle ih =>
      rw [List.cons_append, walk, if_neg hidle, if_pos rfl]
      exact ih h
  | case5 l name rest hidle hup hlong hlast =>
      cases h
      obtain rfl := List.isEmpty_iff.mp hlast
      rw [List.cons_append, walk, if_neg hidle, if_neg hup, if_neg hlong, List.nil_append, hmiddle]
      cases more with
      | nil => exact hmore
      | cons => exact hmore
  | case6 l name rest hidle hup hlong hlast hdir ih =>
      rw [List.cons_append, walk, if_neg hidle, if_neg hup, if_neg hlong,
        if_neg (by simp_all), hdir]
      exact ih h
  | case4 | case7 | case8 => cases h

structure IsName (name : String) : Prop where
  notIdle : Path.isIdle name = false
  notUp : name ≠ ".."

/-- Names lead down. -/
theorem eq_append_of_walk {names : List String} (hnames : ∀ name ∈ names, IsName name)
    (h : d.walk l names = .ok l') : l' = l ++ names := by
  fun_induction walk d l names with
  | case1 l =>
      cases h
      exact (List.append_nil _).symm
  | case2 l name rest hidle =>
      rw [(hnames name List.mem_cons_self).notIdle] at hidle
      cases hidle
  | case3 l rest => exact absurd rfl (hnames ".." List.mem_cons_self).notUp
  | case5 l name rest hidle hup hlong hlast =>
      cases h
      rw [List.isEmpty_iff.mp hlast]
  | case6 l name rest hidle hup hlong hlast hdir ih =>
      rw [ih (fun name hname ↦ hnames name (List.mem_cons_of_mem _ hname)) h, List.append_assoc]
      rfl
  | case4 | case7 | case8 => cases h

/-- What is there below a location can be walked to, if it can on a disk with more directories. -/
theorem WellFormed.walk_append_self (hd : d.WellFormed) {names : List String}
    (hnames : ∀ name ∈ names, IsName name) (h : d'.walk l names = .ok l')
    (hsome : d.node? (l ++ names) ≠ none) : d.walk l names = .ok (l ++ names) := by
  induction names generalizing l with
  | nil => rw [walk, List.append_nil]
  | cons name rest ih =>
      have hname := hnames name List.mem_cons_self
      rw [walk, if_neg (by simp [hname.notIdle]), if_neg hname.notUp] at h ⊢
      split at h
      · cases h
      · next hlong =>
        rw [if_neg hlong]
        cases rest with
        | nil => rfl
        | cons next rest =>
            have heq : l ++ name :: next :: rest = (l ++ [name]) ++ next :: rest :=
              List.append_cons l name (next :: rest)
            rw [heq] at hsome ⊢
            have hdir := hd.above_append (List.cons_ne_nil _ _) hsome
            rw [if_neg (by simp)] at h ⊢
            rw [hdir]
            split at h
            · exact ih (fun name hmem ↦ hnames name (List.mem_cons_of_mem _ hmem)) h hsome
            · cases h
            · cases h

/-- Where a path ends in a name that leads nowhere, there is a directory. -/
theorem WellFormed.walk_concat_idle (hd : d.WellFormed) {names : List String} {name : String}
    {l' : Location} (hidle : Path.isIdle name = true) (hl : d.node? l = some .directory)
    (hwalk : d.walk l (names ++ [name]) = .ok l') : d.node? l' = some .directory := by
  induction names generalizing l with
  | nil =>
      rw [List.nil_append, walk, if_pos hidle] at hwalk
      cases hwalk
      exact hl
  | cons first names ih =>
      rw [List.cons_append, walk] at hwalk
      split at hwalk
      · exact ih hl hwalk
      · split at hwalk
        · exact ih (hd.dropLast (by simp [hl])) hwalk
        · split at hwalk
          · cases hwalk
          · rw [if_neg (by simp)] at hwalk
            split at hwalk
            · next hdir => exact ih hdir hwalk
            · cases hwalk
            · cases hwalk

/-- A path to where nothing is ends in a name, and without it leads to the directory above. -/
theorem WellFormed.walk_dropLast_of_none (hd : d.WellFormed) {absolute : Bool} {names : List String}
    (hspells : Path.Spells path absolute names)
    (hwalk : d.walk (d.origin absolute) names = .ok l) (hnone : d.node? l = none) :
    d.walk (d.origin absolute) names.dropLast = .ok l.dropLast := by
  rcases List.eq_nil_or_concat names with rfl | ⟨up, name, rfl⟩
  · cases hwalk
    rw [hd.node?_origin] at hnone
    cases hnone
  · rw [List.concat_eq_append] at hspells hwalk ⊢
    have hidle : Path.isIdle name = false := by
      have hmem : name ∈ Path.parts path := by simp [hspells.parts]
      simpa using (List.mem_filter.mp hmem).2
    obtain ⟨middle, hmiddle, hlast⟩ := walk_append hwalk
    rw [List.dropLast_concat, hmiddle]
    rw [walk, if_neg (by simp [hidle])] at hlast
    split at hlast
    · -- One step up from a place that has been walked to there is a directory.
      cases hlast
      rw [walk_dropLast hd (hd.node?_origin absolute) hmiddle] at hnone
      cases hnone
    · split at hlast
      · cases hlast
      · cases hlast
        rw [List.dropLast_concat]

end Disk

end Scaffold

import Mathlib.Data.List.DropRight
import Mathlib.Data.List.Induction
import Scaffold.Disk.Basic

/-!
# Paths and their parts

A path is followed by its parts.  The parts of a joined path are those of both paths one after the
other, and the parents of a path have its parts but for the last ones.
-/

namespace Scaffold

namespace Text

variable {c : Char} {cs : List Char}

theorem splitOn_ne_nil (c : Char) (cs : List Char) : splitOn c cs ≠ [] := by
  cases cs with
  | nil => simp [splitOn]
  | cons d cs =>
      rw [splitOn]
      split
      · simp
      · split <;> simp

theorem splitOn_cons_of_ne {d : Char} (hd : d ≠ c) (cs : List Char) :
    ∃ part parts, splitOn c cs = part :: parts ∧ splitOn c (d :: cs) = (d :: part) :: parts := by
  obtain ⟨part, parts, h⟩ := List.exists_cons_of_ne_nil (splitOn_ne_nil c cs)
  exact ⟨part, parts, h, by rw [splitOn, if_neg hd, h]⟩

/-- No part of a split text contains the separator. -/
theorem notMem_of_mem_splitOn {part : List Char} (h : part ∈ splitOn c cs) : c ∉ part := by
  induction cs generalizing part with
  | nil => simp_all [splitOn]
  | cons d cs ih =>
      by_cases hd : d = c
      · rw [splitOn, if_pos hd] at h
        rcases List.mem_cons.mp h with rfl | h
        · exact List.not_mem_nil
        · exact ih h
      · obtain ⟨first, parts, hcs, hd'⟩ := splitOn_cons_of_ne hd cs
        rw [hd'] at h
        rcases List.mem_cons.mp h with rfl | h
        · simp only [List.mem_cons, not_or]
          exact ⟨fun heq ↦ hd heq.symm, ih (hcs ▸ List.mem_cons_self)⟩
        · exact ih (hcs ▸ List.mem_cons_of_mem _ h)

theorem splitOn_append (c : Char) (cs ds : List Char) :
    splitOn c (cs ++ c :: ds) = splitOn c cs ++ splitOn c ds := by
  induction cs with
  | nil => simp [splitOn]
  | cons e cs ih =>
      by_cases he : e = c
      · simp [splitOn, he, ih]
      · obtain ⟨part, parts, hcs, he'⟩ := splitOn_cons_of_ne he cs
        rw [List.cons_append, splitOn, if_neg he, ih, hcs, he']
        rfl

theorem splitOn_eq_singleton (h : c ∉ cs) : splitOn c cs = [cs] := by
  induction cs with
  | nil => rfl
  | cons d cs ih =>
      simp only [List.mem_cons, not_or] at h
      rw [splitOn, if_neg fun heq ↦ h.1 heq.symm, ih h.2]

theorem intercalate_splitOn (c : Char) (cs : List Char) : [c].intercalate (splitOn c cs) = cs := by
  induction cs with
  | nil => rfl
  | cons d cs ih =>
      obtain ⟨part, parts, hcs⟩ := List.exists_cons_of_ne_nil (splitOn_ne_nil c cs)
      by_cases hd : d = c
      · rw [splitOn, if_pos hd, hcs, List.intercalate_cons_cons, ← hcs, ih, hd]
        rfl
      · rw [splitOn, if_neg hd, hcs]
        rw [hcs] at ih
        cases parts <;> simp_all [List.intercalate_cons_cons, List.intercalate_singleton]

theorem splitOn_intercalate {parts : List (List Char)} (hne : parts ≠ [])
    (h : ∀ part ∈ parts, c ∉ part) : splitOn c ([c].intercalate parts) = parts := by
  induction parts with
  | nil => exact absurd rfl hne
  | cons part parts ih =>
      have hpart := splitOn_eq_singleton (h part List.mem_cons_self)
      cases parts with
      | nil => rw [List.intercalate_singleton, hpart]
      | cons next parts =>
          rw [List.intercalate_cons_cons, List.append_assoc, List.singleton_append, splitOn_append,
            hpart, ih (List.cons_ne_nil _ _) fun p hp ↦ h p (List.mem_cons_of_mem _ hp)]
          rfl

/-- Parts that hold something are no more than there are characters. -/
theorem countP_splitOn_le (c : Char) (cs : List Char) :
    (splitOn c cs).countP (· ≠ []) ≤ cs.length := by
  induction cs with
  | nil => simp [splitOn]
  | cons d cs ih =>
      by_cases hd : d = c
      · rw [splitOn, if_pos hd, List.countP_cons_of_neg (by simp), List.length_cons]
        omega
      · obtain ⟨part, parts, hcs, hd'⟩ := splitOn_cons_of_ne hd cs
        rw [hcs, List.countP_cons] at ih
        rw [hd', List.countP_cons_of_pos (by simp), List.length_cons]
        omega

end Text

namespace Path

variable {path : String}

/-! ## Segments -/

theorem noSlash_of_mem_segments {s : String} (h : s ∈ segments path) : '/' ∉ s.toList := by
  obtain ⟨part, hpart, rfl⟩ := List.mem_map.mp h
  rw [String.toList_ofList]
  exact Text.notMem_of_mem_splitOn hpart

theorem segments_ne_nil (path : String) : segments path ≠ [] := by
  simpa [segments] using Text.splitOn_ne_nil '/' path.toList

theorem segments_append_slash (a b : String) :
    segments (a ++ "/" ++ b) = segments a ++ segments b := by
  rw [segments, String.toList_append, String.toList_append, List.append_assoc]
  exact (congrArg _ (Text.splitOn_append '/' a.toList b.toList)).trans List.map_append

theorem intercalate_segments (path : String) : "/".intercalate (segments path) = path := by
  apply String.toList_inj.mp
  rw [String.toList_intercalate, segments, List.map_map]
  have hid : String.toList ∘ String.ofList = id := funext fun _ ↦ String.toList_ofList
  rw [hid, List.map_id]
  exact Text.intercalate_splitOn '/' path.toList

theorem segments_intercalate {segs : List String} (hne : segs ≠ [])
    (h : ∀ s ∈ segs, '/' ∉ s.toList) : segments ("/".intercalate segs) = segs := by
  have hsplit : Text.splitOn '/' (['/'].intercalate (segs.map String.toList)) =
      segs.map String.toList := by
    refine Text.splitOn_intercalate (by simpa using hne) fun part hpart ↦ ?_
    obtain ⟨s, hs, rfl⟩ := List.mem_map.mp hpart
    exact h s hs
  rw [segments, String.toList_intercalate]
  refine (congrArg _ hsplit).trans ?_
  have hid : String.ofList ∘ String.toList = id := funext fun _ ↦ String.ofList_toList
  rw [List.map_map, hid, List.map_id]

/-! ## Parts -/

theorem parts_empty : parts "" = [] := by decide

theorem parts_append_slash (a b : String) : parts (a ++ "/" ++ b) = parts a ++ parts b := by
  rw [parts, segments_append_slash, List.filter_append]
  rfl

theorem parts_intercalate {segs : List String} (h : ∀ s ∈ segs, '/' ∉ s.toList) :
    parts ("/".intercalate segs) = segs.filter (!isIdle ·) := by
  by_cases hne : segs = []
  · subst hne
    exact parts_empty
  · rw [parts, segments_intercalate hne h]

/-- Whether a path ends in its last part, so that following its parts is following the path. -/
def Tight (path : String) : Prop :=
  ∀ last ∈ (segments path).getLast?, isIdle last = true → parts path = []

theorem tight_intercalate {segs : List String} (h : ∀ s ∈ segs, '/' ∉ s.toList)
    (hlast : ∀ last ∈ segs.getLast?, isIdle last = false) : Tight ("/".intercalate segs) := by
  by_cases hne : segs = []
  · subst hne
    exact fun _ _ _ ↦ parts_empty
  · intro last hmem hidle
    rw [segments_intercalate hne h] at hmem
    rw [hlast last hmem] at hidle
    cases hidle

/-- A path that does not end in a slash ends in a segment that is not empty. -/
theorem getLast?_segments_ne_empty (hne : path ≠ "") (hslash : path.toList.getLast? ≠ some '/') :
    (segments path).getLast? ≠ some "" := by
  intro h
  obtain ⟨init, hinit⟩ := List.getLast?_eq_some_iff.mp h
  have hpath := intercalate_segments path
  rw [hinit] at hpath
  by_cases hnil : init = []
  · subst hnil
    exact hne (by rw [← hpath]; rfl)
  · rw [String.intercalate_append_of_ne_nil hnil (by simp), String.intercalate_singleton] at hpath
    exact hslash (by rw [← hpath]; simp)

theorem exists_getLast?_of_endsInName (hne : path ≠ "")
    (hslash : path.toList.getLast? ≠ some '/') (hname : Disk.endsInName path = true) :
    ∃ last, (segments path).getLast? = some last ∧ isIdle last = false := by
  have hempty := getLast?_segments_ne_empty hne hslash
  rw [Disk.endsInName] at hname
  split at hname
  · next last hlast =>
      simp only [Bool.and_eq_true, bne_iff_ne] at hname
      refine ⟨last, hlast, ?_⟩
      rw [isIdle, Bool.or_eq_false_iff, beq_eq_false_iff_ne, beq_eq_false_iff_ne]
      exact ⟨fun heq ↦ hempty (heq ▸ hlast), hname.1⟩
  · cases hname

theorem tight_of_endsInName (hne : path ≠ "") (hslash : path.toList.getLast? ≠ some '/')
    (hname : Disk.endsInName path = true) : Tight path := by
  obtain ⟨last, hlast, hidle⟩ := exists_getLast?_of_endsInName hne hslash hname
  intro last' hlast' hidle'
  rw [hlast, Option.mem_some_iff] at hlast'
  rw [← hlast', hidle] at hidle'
  cases hidle'

theorem parts_ne_nil_of_endsInName (hne : path ≠ "") (hslash : path.toList.getLast? ≠ some '/')
    (hname : Disk.endsInName path = true) : parts path ≠ [] := by
  obtain ⟨last, hlast, hidle⟩ := exists_getLast?_of_endsInName hne hslash hname
  refine List.ne_nil_of_mem (List.mem_filter.mpr ⟨List.mem_of_getLast? hlast, ?_⟩)
  simp [hidle]

/-! ## Output paths -/

theorem checkRelative_eq_ok_iff : checkRelative path = .ok () ↔
    path ≠ "" ∧ path.toList.getLast? ≠ some '/' ∧ isAbsolute path = false ∧ ".." ∉ parts path := by
  simp only [checkRelative]
  split
  · simp_all
  split
  · simp_all
  split
  · simp_all
  split
  · simp_all
  · simp_all

variable (output : String)

/-- A relative path is put behind the output directory with one slash between them. -/
theorem join_of_relative (h : isAbsolute path = false) : output = "" ∧ join output path = path ∨
    (∃ directory, output = directory ++ "/" ∧ join output path = directory ++ "/" ++ path) ∨
    output ≠ "" ∧ join output path = output ++ "/" ++ path := by
  simp only [join, h, Bool.false_or, String.isEmpty_iff]
  split
  · next hempty => exact .inl ⟨hempty, rfl⟩
  · next hempty =>
    split
    · next hslash =>
        obtain ⟨directory, hdirectory⟩ := List.getLast?_eq_some_iff.mp hslash
        have houtput : output = String.ofList directory ++ "/" := by
          apply String.toList_inj.mp
          simp [hdirectory]
        exact .inr (.inl ⟨_, houtput, by rw [houtput]⟩)
    · exact .inr (.inr ⟨hempty, rfl⟩)

theorem parts_join (h : isAbsolute path = false) :
    parts (join output path) = parts output ++ parts path := by
  rcases join_of_relative output h with ⟨rfl, hjoin⟩ | ⟨directory, rfl, hjoin⟩ | ⟨-, hjoin⟩
  · rw [hjoin, parts_empty, List.nil_append]
  · have hdirectory : parts (directory ++ "/") = parts directory := by
      rw [← String.append_empty (s := directory ++ "/"), parts_append_slash, parts_empty,
        List.append_nil]
    rw [hjoin, parts_append_slash, hdirectory]
  · rw [hjoin, parts_append_slash]

theorem isAbsolute_append {directory : String} (hne : directory ≠ "") (path : String) :
    isAbsolute (directory ++ path) = isAbsolute directory := by
  obtain ⟨c, cs, hcs⟩ := List.exists_cons_of_ne_nil (String.toList_eq_nil_iff.not.mpr hne)
  simp [isAbsolute, hcs]

theorem isAbsolute_join (h : isAbsolute path = false) :
    isAbsolute (join output path) = isAbsolute output := by
  rcases join_of_relative output h with ⟨rfl, hjoin⟩ | ⟨directory, rfl, hjoin⟩ | ⟨hne, hjoin⟩
  · rw [hjoin, h]
    rfl
  · rw [hjoin, isAbsolute_append (by simp)]
  · rw [hjoin, String.append_assoc, isAbsolute_append hne]

theorem getLast?_join (hne : path ≠ "") (h : isAbsolute path = false) :
    (join output path).toList.getLast? = path.toList.getLast? := by
  have hsome : ∀ cs : List Char, (cs ++ path.toList).getLast? = path.toList.getLast? := by
    intro cs
    rw [List.getLast?_append_of_ne_nil _ (String.toList_eq_nil_iff.not.mpr hne)]
  rcases join_of_relative output h with ⟨rfl, hjoin⟩ | ⟨directory, rfl, hjoin⟩ | ⟨-, hjoin⟩
  · rw [hjoin]
  · rw [hjoin, String.toList_append, hsome]
  · rw [hjoin, String.toList_append, hsome]

theorem getLast?_segments_join (h : isAbsolute path = false) :
    (segments (join output path)).getLast? = (segments path).getLast? := by
  rcases join_of_relative output h with ⟨rfl, hjoin⟩ | ⟨directory, rfl, hjoin⟩ | ⟨-, hjoin⟩
  · rw [hjoin]
  · rw [hjoin, segments_append_slash, List.getLast?_append_of_ne_nil _ (segments_ne_nil path)]
  · rw [hjoin, segments_append_slash, List.getLast?_append_of_ne_nil _ (segments_ne_nil path)]

theorem join_ne_empty (hne : path ≠ "") (h : isAbsolute path = false) : join output path ≠ "" := by
  intro hempty
  have hlast := getLast?_join output hne h
  rw [hempty] at hlast
  exact hne (String.toList_eq_nil_iff.mp (List.getLast?_eq_none_iff.mp hlast.symm))

/-! ## Slashes at the end -/

/-- Slashes at the end of a text add empty parts. -/
theorem segments_append_slashes {slashes : List Char} (h : ∀ c ∈ slashes, c = '/')
    (directory : String) : segments (directory ++ String.ofList slashes) =
      segments directory ++ List.replicate slashes.length "" := by
  induction slashes generalizing directory with
  | nil => simp
  | cons c slashes ih =>
      have hcons : directory ++ String.ofList (c :: slashes) =
          directory ++ "/" ++ String.ofList slashes := by
        rw [h c List.mem_cons_self]
        apply String.toList_inj.mp
        simp
      have hslash : segments (directory ++ "/") = segments directory ++ [""] := by
        have h := segments_append_slash directory ""
        rwa [String.append_empty] at h
      rw [hcons, ih (fun c hc ↦ h c (List.mem_cons_of_mem _ hc)), hslash, List.append_assoc]
      rfl

theorem exists_segments_dropSlashes (path : String) :
    ∃ k, segments path = segments (Disk.dropSlashes path) ++ List.replicate k "" := by
  have hslashes : ∀ c ∈ (path.toList.reverse.takeWhile (· = '/')).reverse, c = '/' := by
    intro c hc
    simpa using List.mem_takeWhile_imp (List.mem_reverse.mp hc)
  refine ⟨_, (congrArg segments ?_).trans (segments_append_slashes hslashes _)⟩
  apply String.toList_inj.mp
  rw [Disk.dropSlashes, String.toList_append, String.toList_ofList, String.toList_ofList,
    ← List.reverse_append, List.takeWhile_append_dropWhile, List.reverse_reverse]

theorem dropSlashes_of_noSlash (h : path.toList.getLast? ≠ some '/') :
    Disk.dropSlashes path = path := by
  have hdrop : path.toList.reverse.dropWhile (· = '/') = path.toList.reverse := by
    cases hreverse : path.toList.reverse with
    | nil => rfl
    | cons c cs =>
        rw [← List.head?_reverse, hreverse, List.head?_cons] at h
        exact List.dropWhile_cons_of_neg (by simpa using h)
  rw [Disk.dropSlashes, hdrop, List.reverse_reverse, String.ofList_toList]

theorem dropSlashes_of_tight (h : Tight path) (hparts : parts path ≠ []) :
    segments (Disk.dropSlashes path) = segments path := by
  obtain ⟨k, hk⟩ := exists_segments_dropSlashes path
  cases k with
  | zero => simpa using hk.symm
  | succ k =>
      have hlast : (segments path).getLast? = some "" := by
        rw [hk, List.replicate_succ', ← List.append_assoc, List.getLast?_concat]
      exact absurd (h _ hlast rfl) hparts

theorem isIdle_of_mem_dropSlashes (hparts : parts path = []) {s : String}
    (hs : s ∈ segments (Disk.dropSlashes path)) : isIdle s = true := by
  obtain ⟨k, hk⟩ := exists_segments_dropSlashes path
  rw [parts, hk, List.filter_eq_nil_iff] at hparts
  simpa using hparts s (List.mem_append_left _ hs)

/-! ## Parents -/

theorem filter_dropIdle (segs : List String) :
    (dropIdle segs).filter (!isIdle ·) = segs.filter (!isIdle ·) := by
  induction segs using List.reverseRecOn with
  | nil => rfl
  | append_singleton segs s ih =>
      have hconcat : dropIdle (segs ++ [s]) = if isIdle s then dropIdle segs else segs ++ [s] :=
        List.rdropWhile_concat isIdle segs s
      rw [hconcat]
      split
      · next hs => simp [hs, ih]
      · rfl

theorem isIdle_getLast?_dropIdle (segs : List String) :
    ∀ last ∈ (dropIdle segs).getLast?, isIdle last = false := by
  intro last hlast
  obtain ⟨hne, rfl⟩ := List.mem_getLast?_eq_getLast hlast
  exact Bool.eq_false_iff.mpr (List.rdropWhile_last_not isIdle segs hne)

theorem dropIdle_dropLast_isPrefix (segs : List String) :
    dropIdle (dropIdle segs).dropLast <+: segs :=
  ((List.rdropWhile_prefix isIdle _).trans (List.dropLast_prefix (dropIdle segs))).trans
    (List.rdropWhile_prefix isIdle _)

/-- What a path is made of: what stays in front of its parents, and the rest. -/
theorem splitRoot_cases (path : String) :
    (∃ body, splitRoot path = ("/", body) ∧ path = "" ++ "/" ++ body) ∨
    (splitRoot path = (".", "") ∧ path = ".") ∨
    (∃ body, splitRoot path = (".", "/" ++ body) ∧ path = "." ++ "/" ++ body) ∨
    splitRoot path = ("", path) ∧ isAbsolute path = false := by
  rw [splitRoot]
  split
  · next rest h =>
      exact .inl ⟨_, rfl, String.toList_inj.mp (by simp [h])⟩
  · next h =>
      exact .inr (.inl ⟨rfl, String.toList_inj.mp (by simp [h])⟩)
  · next rest h =>
      refine .inr (.inr (.inl ⟨String.ofList rest, ?_, String.toList_inj.mp (by simp [h])⟩))
      rw [Prod.mk.injEq]
      exact ⟨rfl, String.toList_inj.mp (by simp)⟩
  · next hslash _ _ =>
      refine .inr (.inr (.inr ⟨by rw [String.ofList_toList], ?_⟩))
      rw [isAbsolute, decide_eq_false_iff_not]
      intro hhead
      obtain ⟨rest, hrest⟩ := List.head?_eq_some_iff.mp hhead
      exact hslash rest hrest

theorem parts_splitRoot (path : String) : parts (splitRoot path).2 = parts path := by
  rcases splitRoot_cases path with ⟨body, h, hpath⟩ | ⟨h, rfl⟩ | ⟨body, h, hpath⟩ | ⟨h, -⟩
  · rw [h, hpath, parts_append_slash, parts_empty, List.nil_append]
  · rw [h]
    decide
  · have hdot : parts "." = [] := by decide
    have hbody : "/" ++ body = "" ++ "/" ++ body := by rw [String.empty_append]
    rw [h, hpath, parts_append_slash, hdot, List.nil_append, hbody, parts_append_slash,
      parts_empty, List.nil_append]
  · rw [h]

theorem tight_append_slash {a b : String} (ha : parts a = []) (hb : Tight b) :
    Tight (a ++ "/" ++ b) := by
  intro last hlast hidle
  rw [segments_append_slash, List.getLast?_append_of_ne_nil _ (segments_ne_nil b)] at hlast
  rw [parts_append_slash, ha, hb last hlast hidle, List.nil_append]

/-- The first segments of a text are at its start. -/
theorem exists_intercalate_append {segs : List String} (h : segs <+: segments path) :
    ∃ rest, "/".intercalate segs ++ rest = path := by
  obtain ⟨more, hmore⟩ := h
  have hpath := intercalate_segments path
  rw [← hmore] at hpath
  by_cases hsegs : segs = []
  · rw [hsegs, String.intercalate_nil]
    exact ⟨path, String.empty_append⟩
  · by_cases hnil : more = []
    · rw [hnil, List.append_nil] at hpath
      exact ⟨"", by rw [String.append_empty, hpath]⟩
    · rw [String.intercalate_append_of_ne_nil hsegs hnil, String.append_assoc] at hpath
      exact ⟨_, hpath⟩

theorem isAbsolute_intercalate {segs : List String} (hsegs : segs <+: segments path)
    (h : isAbsolute path = false) : isAbsolute ("/".intercalate segs) = false := by
  by_cases hempty : "/".intercalate segs = ""
  · rw [hempty]
    rfl
  · obtain ⟨rest, hrest⟩ := exists_intercalate_append hsegs
    rw [← isAbsolute_append hempty rest, hrest, h]

/-- A path that spells out names, from the root or from the working directory. -/
structure Spells (path : String) (absolute : Bool) (names : List String) : Prop where
  parts : parts path = names
  isAbsolute : isAbsolute path = absolute
  tight : Tight path

theorem spells_dot : Spells "." false [] :=
  ⟨by decide, by decide, fun _ _ _ ↦ by decide⟩

theorem spells_empty : Spells "" false [] :=
  ⟨parts_empty, by decide, fun _ _ _ ↦ parts_empty⟩

/-- A dot in front of parts names the same as the parts. -/
theorem spells_dot_append {segs rest : List String} (hsegs : segs <+: "" :: rest)
    (hslash : ∀ s ∈ segs, '/' ∉ s.toList) (hlast : ∀ last ∈ segs.getLast?, isIdle last = false) :
    Spells ("." ++ "/".intercalate segs) false (segs.filter (!isIdle ·)) := by
  rcases List.prefix_cons_iff.mp hsegs with rfl | ⟨more, rfl, -⟩
  · exact spells_dot
  · have hne : more ≠ [] := by
      rintro rfl
      cases hlast "" rfl
    have hup : "." ++ "/".intercalate ("" :: more) = "." ++ "/" ++ "/".intercalate more := by
      rw [String.append_assoc]
      simp [String.intercalate_cons_of_ne_nil hne]
    have hmore : ∀ s ∈ more, '/' ∉ s.toList := fun s hs ↦ hslash s (List.mem_cons_of_mem _ hs)
    rw [List.getLast?_cons_of_ne_nil hne] at hlast
    rw [hup]
    refine ⟨?_, by simp [isAbsolute], tight_append_slash spells_dot.parts
      (tight_intercalate hmore hlast)⟩
    rw [parts_append_slash, spells_dot.parts, parts_intercalate hmore]
    rfl

/-- The root of a path and some of its first segments make a path of the same kind. -/
theorem spells_root_append {segs : List String} (hsegs : segs <+: segments (splitRoot path).2)
    (hlast : ∀ last ∈ segs.getLast?, isIdle last = false) :
    Spells ((splitRoot path).1 ++ "/".intercalate segs) (isAbsolute path)
      (segs.filter (!isIdle ·)) := by
  have hslash : ∀ s ∈ segs, '/' ∉ s.toList := fun s hs ↦
    noSlash_of_mem_segments (hsegs.subset hs)
  have hparts := parts_intercalate hslash
  have htight := tight_intercalate hslash hlast
  rcases splitRoot_cases path with ⟨body, h, hpath⟩ | ⟨h, hpath⟩ | ⟨body, h, hpath⟩ | ⟨h, hpath⟩
  · have hup : "/" ++ "/".intercalate segs = "" ++ "/" ++ "/".intercalate segs := by simp
    rw [h, hpath, hup]
    refine ⟨?_, by simp [isAbsolute], tight_append_slash parts_empty htight⟩
    rw [parts_append_slash, parts_empty, hparts, List.nil_append]
  · have hbody : segments (splitRoot path).2 = "" :: [] := by
      rw [h]
      decide
    rw [h, hpath]
    exact spells_dot_append (hbody ▸ hsegs) hslash hlast
  · have hbody : segments (splitRoot path).2 = "" :: segments body := by
      have hslash := segments_append_slash "" body
      rw [String.empty_append] at hslash
      rw [h, hslash]
      rfl
    have hrelative : isAbsolute ("." ++ "/" ++ body) = false := by simp [isAbsolute]
    rw [h, hpath, hrelative]
    exact spells_dot_append (hbody ▸ hsegs) hslash hlast
  · rw [h] at hsegs ⊢
    rw [String.empty_append, hpath]
    exact ⟨hparts, isAbsolute_intercalate hsegs hpath, htight⟩

/-- A parent spells out all parts but the last. -/
theorem spells_parent? {up : String} (h : parent? path = some up) :
    Spells up (isAbsolute path) (parts path).dropLast := by
  have hparts : parts path = (dropIdle (segments (splitRoot path).2)).filter (!isIdle ·) := by
    rw [filter_dropIdle, ← parts_splitRoot]
    rfl
  simp only [parent?] at h
  split at h
  · next hnone =>
      split at h
      · next hroot =>
          cases h
          have hrelative : isAbsolute path = false := by
            rcases splitRoot_cases path with ⟨body, h, -⟩ | ⟨-, rfl⟩ | ⟨body, -, rfl⟩ | ⟨-, h⟩
            · simp [h] at hroot
            · rfl
            · simp [isAbsolute]
            · exact h
          rw [hparts, hnone, hrelative]
          exact spells_empty
      · cases h
  · next hsome =>
      cases h
      set segs := dropIdle (segments (splitRoot path).2) with hsegs
      have hspells := spells_root_append (dropIdle_dropLast_isPrefix _)
        (isIdle_getLast?_dropIdle segs.dropLast)
      obtain ⟨init, last, hlast⟩ := (List.eq_nil_or_concat segs).resolve_left hsome
      rw [List.concat_eq_append] at hlast
      have hidle : isIdle last = false :=
        isIdle_getLast?_dropIdle _ last (by rw [← hsegs, hlast, List.getLast?_concat]; rfl)
      have hdropLast : (parts path).dropLast = segs.dropLast.filter (!isIdle ·) := by
        rw [hparts, hlast, List.dropLast_concat, List.filter_append,
          List.filter_cons_of_pos (by simp [hidle]), List.filter_nil, List.dropLast_concat]
      rw [hdropLast, ← filter_dropIdle]
      exact hspells

theorem dropIdle_eq_nil_iff : dropIdle (segments (splitRoot path).2) = [] ↔ parts path = [] := by
  rw [← parts_splitRoot, parts, List.filter_eq_nil_iff]
  exact List.rdropWhile_eq_nil_iff.trans (by simp)

theorem parent?_ne_none (h : parts path ≠ []) : parent? path ≠ none := by
  simp only [parent?]
  split
  · next hnone => exact absurd (dropIdle_eq_nil_iff.mp hnone) h
  · simp

theorem length_parts_le (path : String) : (parts path).length ≤ path.length := by
  rw [parts, ← List.countP_eq_length_filter, segments, List.countP_map, ← String.length_toList]
  refine (List.countP_mono_left fun part _ h ↦ ?_).trans (Text.countP_splitOn_le '/' path.toList)
  simp only [decide_eq_true_eq]
  rintro rfl
  cases h

/-- Looking for an ancestor that passes a test, one either finds one that spells out at least the
given names, or goes past one that spells out just these. -/
theorem ancestorsFrom_cases (test : String → Bool) {fuel : Nat} {absolute : Bool}
    {names first : List String} (h : Spells path absolute names) (hfuel : names.length < fuel)
    (hfirst : first <+: names) :
    (∃ a ∈ (ancestorsFrom fuel path).takeWhile (!test ·), Spells a absolute first) ∨
      ∃ a more, test a = true ∧ Spells a absolute (first ++ more) := by
  induction fuel generalizing path names with
  | zero => cases hfuel
  | succ fuel ih =>
      by_cases htest : test path = true
      · obtain ⟨more, rfl⟩ := hfirst
        exact .inr ⟨path, more, htest, h⟩
      · rw [ancestorsFrom, List.takeWhile_cons_of_pos (by simpa using htest)]
        by_cases hall : first = names
        · exact .inl ⟨path, List.mem_cons_self, hall ▸ h⟩
        · -- The names end in one more, so there is a parent to go on with.
          obtain ⟨more, rfl⟩ := hfirst
          have hmore : more ≠ [] := by
            rintro rfl
            exact hall (List.append_nil first).symm
          have hnames : parts path ≠ [] := by
            rw [h.parts]
            exact List.append_ne_nil_of_right_ne_nil _ hmore
          obtain ⟨up, hup⟩ := Option.ne_none_iff_exists'.mp (parent?_ne_none hnames)
          have hspells := spells_parent? hup
          rw [h.parts, h.isAbsolute, List.dropLast_append_of_ne_nil hmore] at hspells
          rw [hup]
          have hlength : (first ++ more.dropLast).length < fuel := by
            have := List.length_pos_of_ne_nil hmore
            simp only [List.length_append, List.length_dropLast] at hfuel ⊢
            omega
          rcases ih hspells hlength (List.prefix_append _ _) with ⟨a, ha, hspells⟩ | hfound
          · exact .inl ⟨a, List.mem_cons_of_mem _ ha, hspells⟩
          · exact .inr hfound

theorem ancestors_cases (test : String → Bool) {absolute : Bool} {names first : List String}
    (h : Spells path absolute names) (hfirst : first <+: names) :
    (∃ a ∈ (ancestors path).takeWhile (!test ·), Spells a absolute first) ∨
      ∃ a more, test a = true ∧ Spells a absolute (first ++ more) := by
  refine ancestorsFrom_cases test h ?_ hfirst
  rw [← h.parts]
  exact Nat.lt_succ_of_le (length_parts_le path)

end Path

end Scaffold

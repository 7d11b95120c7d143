import Mathlib.Data.List.Sections
import Scaffold.Manifest.Derived

/-!
# The words of plain names

A name made of ASCII letters and digits has no separators, so that its words put together are the
name again.  Its storage form is made of small letters, digits and underscores, and where there is
no underscore, it is the name in lower case.
-/

namespace Scaffold

namespace Naming

variable {c : Char} {cs : List Char}

/-! ## Letters and digits -/

theorem isAlphanumeric_iff : isAlphanumeric c = true ↔
    (65 ≤ c.toNat ∧ c.toNat ≤ 90) ∨ (97 ≤ c.toNat ∧ c.toNat ≤ 122) ∨
      (48 ≤ c.toNat ∧ c.toNat ≤ 57) := by
  simp [isAlphanumeric, isCapital, isSmall, Char.le_def, UInt32.le_iff_toNat_le, or_assoc]

/-- Small letters are 32 code points behind the capital ones. -/
theorem toNat_toLower (c : Char) :
    c.toLower.toNat = if 65 ≤ c.toNat ∧ c.toNat ≤ 90 then c.toNat + 32 else c.toNat := by
  have hcapital : c.val ≥ 'A'.val ∧ c.val ≤ 'Z'.val ↔ 65 ≤ c.toNat ∧ c.toNat ≤ 90 := by
    simp [UInt32.le_iff_toNat_le]
  unfold Char.toLower
  split
  · next h =>
      rw [hcapital] at h
      rw [if_pos h]
      change (c.val + ('a'.val - 'A'.val)).toNat = _
      rw [UInt32.toNat_add]
      have hdistance : ('a'.val - 'A'.val).toNat = 32 := rfl
      rw [hdistance, Char.toNat_val]
      omega
  · next h => rw [if_neg (hcapital.not.mp h)]

theorem isAlphanumeric_toLower (h : isAlphanumeric c = true) : isAlphanumeric c.toLower = true := by
  rw [isAlphanumeric_iff] at h ⊢
  rw [toNat_toLower]
  split <;> omega

theorem isAlphanumeric_of_isPascal {name : String} (h : isPascal name = true) :
    ∀ c ∈ name.toList, isAlphanumeric c = true := by
  rw [isPascal] at h
  split at h
  · cases h
  · next c cs hname =>
      rw [Bool.and_eq_true, List.all_eq_true] at h
      rw [hname]
      refine List.forall_mem_cons.mpr ⟨?_, h.2⟩
      simp [isAlphanumeric, h.1]

/-! ## Clusters and words -/

theorem graphemeBreak_of_isAlphanumeric (h : isAlphanumeric c = true) :
    Text.graphemeBreak c = .other := by
  rw [isAlphanumeric_iff] at h
  unfold Text.graphemeBreak
  rw [if_neg (by omega), if_neg (by omega), if_neg (by omega), if_pos (by omega)]

theorem clustersFrom_of_other (h : ∀ c ∈ cs, Text.graphemeBreak c = .other)
    {state : Text.ClusterState} (hstate : state.last = .other) (current : List Char) :
    Text.clustersFrom state current cs = current.reverse :: cs.map ([·]) := by
  induction cs generalizing state current with
  | nil => rfl
  | cons c cs ih =>
      obtain ⟨hc, hcs⟩ := List.forall_mem_cons.mp h
      have hjoins : state.joins (Text.graphemeBreak c) = false := by
        rw [hc]
        simp only [Text.ClusterState.joins, hstate]
      rw [Text.clustersFrom, hjoins, if_neg Bool.false_ne_true, ih hcs hc [c]]
      rfl

/-- Characters that do not combine are clusters of their own. -/
theorem clusters_of_other (h : ∀ c ∈ cs, Text.graphemeBreak c = .other) :
    Text.clusters cs = cs.map ([·]) := by
  cases cs with
  | nil => rfl
  | cons c cs =>
      obtain ⟨hc, hcs⟩ := List.forall_mem_cons.mp h
      exact clustersFrom_of_other hcs hc [c]

theorem flatten_wordsFrom {clusters : List Cluster}
    (h : ∀ c ∈ clusters, isSeparator c = false) (before : Option Cluster) (word : List Char) :
    (wordsFrom before word clusters).flatten = word ++ clusters.flatten := by
  induction clusters generalizing before word with
  | nil => simp [wordsFrom]
  | cons c clusters ih =>
      obtain ⟨hc, hrest⟩ := List.forall_mem_cons.mp h
      rw [wordsFrom, hc, if_neg Bool.false_ne_true]
      split
      · rw [List.flatten_cons, ih hrest, List.flatten_cons]
      · rw [ih hrest, List.flatten_cons, List.append_assoc]

theorem isSeparator_of_isAlphanumeric (h : isAlphanumeric c = true) :
    isSeparator [c] = false := by
  rw [isSeparator, Bool.eq_false_iff]
  intro hseparator
  simp only [Bool.or_eq_true, beq_iff_eq, List.cons.injEq, and_true] at hseparator
  rcases hseparator with (rfl | rfl) | rfl <;> cases h

/-- The words of a plain name are the name, cut into pieces. -/
theorem flatten_words (h : ∀ c ∈ cs, isAlphanumeric c = true) : (words cs).flatten = cs := by
  have hseparator : ∀ c ∈ cs.map ([·]), isSeparator c = false := by
    intro cluster hcluster
    obtain ⟨c, hc, rfl⟩ := List.mem_map.mp hcluster
    exact isSeparator_of_isAlphanumeric (h c hc)
  rw [words, List.flatten_filter_not_isEmpty,
    clusters_of_other fun c hc ↦ graphemeBreak_of_isAlphanumeric (h c hc),
    flatten_wordsFrom hseparator, List.nil_append]
  exact List.flatMap_singleton' cs

/-! ## Storage forms -/

theorem lowerAfter_of_ascii (h : ∀ c ∈ cs, c.toNat < 128) (before : List Char) :
    Text.lowerAfter before cs = cs.map Char.toLower := by
  induction cs generalizing before with
  | nil => rfl
  | cons c cs ih =>
      obtain ⟨hc, hcs⟩ := List.forall_mem_cons.mp h
      have hsigma : c ≠ 'Σ' := by
        rintro rfl
        exact absurd hc (by decide)
      have hlower : Text.lowerForm c = [c.toLower] := if_pos hc
      rw [Text.lowerAfter, if_neg hsigma, hlower, ih hcs]
      rfl

theorem isAlphanumeric_of_mem_words (h : ∀ c ∈ cs, isAlphanumeric c = true) {word : List Char}
    (hword : word ∈ words cs) : ∀ c ∈ word, isAlphanumeric c = true := by
  intro c hc
  refine h c ?_
  rw [← flatten_words h]
  exact List.mem_flatten.mpr ⟨word, hword, hc⟩

theorem joinLower_of_isAlphanumeric (h : ∀ c ∈ cs, isAlphanumeric c = true) (separator : Char) :
    joinLower separator cs = [separator].intercalate ((words cs).map (List.map Char.toLower)) := by
  rw [joinLower]
  congr 1
  refine List.map_congr_left fun word hword ↦ lowerAfter_of_ascii (fun c hc ↦ ?_) []
  have hplain := isAlphanumeric_iff.mp (isAlphanumeric_of_mem_words h hword c hc)
  omega

/-- Every character between separators belongs to a part. -/
theorem mem_intercalate_singleton {separator x : Char} {parts : List (List Char)}
    (h : x ∈ [separator].intercalate parts) : x = separator ∨ ∃ part ∈ parts, x ∈ part := by
  induction parts with
  | nil => cases h
  | cons part parts ih =>
      cases parts with
      | nil =>
          rw [List.intercalate_singleton] at h
          exact .inr ⟨part, List.mem_cons_self, h⟩
      | cons next parts =>
          rw [List.intercalate_cons_cons, List.mem_append, List.mem_append,
            List.mem_singleton] at h
          rcases h with (h | rfl) | h
          · exact .inr ⟨part, List.mem_cons_self, h⟩
          · exact .inl rfl
          · refine (ih h).imp_right ?_
            rintro ⟨p, hp, hx⟩
            exact ⟨p, List.mem_cons_of_mem _ hp, hx⟩

/-- The storage form of a plain name is made of letters, digits and underscores. -/
theorem mem_snake {name : String} (h : ∀ c ∈ name.toList, isAlphanumeric c = true)
    (hc : c ∈ (snake name).toList) : c = '_' ∨ isAlphanumeric c = true := by
  rw [snake, String.toList_ofList, joinLower_of_isAlphanumeric h] at hc
  refine (mem_intercalate_singleton hc).imp_right ?_
  rintro ⟨part, hpart, hc⟩
  obtain ⟨word, hword, rfl⟩ := List.mem_map.mp hpart
  obtain ⟨d, hd, rfl⟩ := List.mem_map.mp hc
  exact isAlphanumeric_toLower (isAlphanumeric_of_mem_words h hword d hd)

/-- A storage form without underscores is that of a single word. -/
theorem words_of_joinLower (h : ∀ c ∈ cs, isAlphanumeric c = true) (separator : Char)
    (hseparator : separator ∉ joinLower separator cs) (hne : joinLower separator cs ≠ []) :
    words cs = [cs] ∧ joinLower separator cs = cs.map Char.toLower := by
  have hflatten := flatten_words h
  rw [joinLower_of_isAlphanumeric h] at hseparator hne ⊢
  rcases hwords : words cs with - | ⟨word, - | ⟨next, rest⟩⟩
  · rw [hwords] at hne
    exact absurd rfl hne
  · rw [hwords, List.flatten_singleton] at hflatten
    rw [hflatten]
    exact ⟨rfl, List.intercalate_singleton⟩
  · rw [hwords, List.map_cons, List.map_cons, List.intercalate_cons_cons] at hseparator
    simp at hseparator

/-- A character is its lower case or the capital of that. -/
theorem mem_cases_toLower (c : Char) : c ∈ [c.toLower, c.toLower.toUpper] := by
  have hcapitals : ∀ n < 91, 65 ≤ n → (Char.ofNat n).toLower.toUpper = Char.ofNat n := by decide
  by_cases hcapital : 65 ≤ c.toNat ∧ c.toNat ≤ 90
  · have hupper := hcapitals c.toNat (by omega) hcapital.1
    rw [Char.ofNat_toNat] at hupper
    simp [hupper]
  · have hlower : c = c.toLower := by
      rw [← Char.toNat_inj, toNat_toLower, if_neg hcapital]
    exact List.mem_cons.mpr (.inl hlower)

/-- The spellings of a text in lower case. -/
theorem mem_sections_toLower (cs : List Char) :
    cs ∈ ((cs.map Char.toLower).map fun small ↦ [small, small.toUpper]).sections := by
  rw [List.mem_sections]
  induction cs with
  | nil => exact .nil
  | cons c cs ih => exact .cons (mem_cases_toLower c) ih

/-- Two entity names have the storage form `index`: any other spelling of it is cut into words. -/
theorem snake_eq_index_iff {name : String} (h : isPascal name = true) :
    snake name = "index" ↔ name = "Index" ∨ name = "INDEX" := by
  constructor
  · intro hsnake
    have hjoin : joinLower '_' name.toList = "index".toList := String.ofList_injective hsnake
    obtain ⟨hwords, hlower⟩ := words_of_joinLower (isAlphanumeric_of_isPascal h) '_'
      (by rw [hjoin]; decide) (by rw [hjoin]; decide)
    have hmem := mem_sections_toLower name.toList
    rw [← hlower, hjoin] at hmem
    have hall : (("index".toList.map fun small ↦ [small, small.toUpper]).sections.all
        fun spelling ↦ !(words spelling == [spelling] && isPascal (String.ofList spelling)) ||
          spelling == "Index".toList || spelling == "INDEX".toList) = true := by
      decide +kernel
    have hspelling := List.all_eq_true.mp hall _ hmem
    rw [hwords, String.ofList_toList, h] at hspelling
    simpa only [BEq.rfl, Bool.and_self, Bool.not_true, Bool.false_or, Bool.or_eq_true, beq_iff_eq,
      String.toList_inj] using hspelling
  · rintro (rfl | rfl) <;> decide +kernel

end Naming

end Scaffold

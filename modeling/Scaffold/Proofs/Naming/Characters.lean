import Scaffold.Naming.Plural
import Scaffold.Proofs.Naming

/-!
# The characters of derived names

A name made of ASCII letters, digits, underscores and hyphens stays one in every way to write it,
and so does its plural.
-/

namespace Scaffold.Naming

variable {c : Char} {cs : List Char}

def isNameCharacter (c : Char) : Bool := isAlphanumeric c || c = '_' || c = '-'

def IsName (s : String) : Prop := ∀ c ∈ s.toList, isNameCharacter c = true

instance (s : String) : Decidable (IsName s) := List.decidableBAll _ _

theorem isName_of_isPascal {name : String} (h : isPascal name = true) : IsName name := by
  intro c hc
  simp [isNameCharacter, isAlphanumeric_of_isPascal h c hc]

theorem isAscii_of_isNameCharacter (h : isNameCharacter c = true) : c.toNat < 128 := by
  simp only [isNameCharacter, Bool.or_eq_true, decide_eq_true_eq, isAlphanumeric_iff] at h
  rcases h with (h | rfl) | rfl
  · omega
  · decide
  · decide

/-! ## Case -/

theorem isNameCharacter_cases (h : isNameCharacter c = true) :
    isNameCharacter c.toLower = true ∧ isNameCharacter c.toUpper = true := by
  have hall : ∀ n < 128, isNameCharacter (Char.ofNat n) = true →
      isNameCharacter (Char.ofNat n).toLower = true ∧
        isNameCharacter (Char.ofNat n).toUpper = true := by
    decide
  have hc := hall c.toNat (isAscii_of_isNameCharacter h)
  rw [Char.ofNat_toNat] at hc
  exact hc h

theorem isNameCharacter_toLower (h : ∀ c ∈ cs, isNameCharacter c = true) :
    ∀ c ∈ Text.toLower cs, isNameCharacter c = true := by
  rw [Text.toLower, lowerAfter_of_ascii fun c hc ↦ isAscii_of_isNameCharacter (h c hc)]
  intro c hc
  obtain ⟨d, hd, rfl⟩ := List.mem_map.mp hc
  exact (isNameCharacter_cases (h d hd)).1

theorem isNameCharacter_capitalize (h : ∀ c ∈ cs, isNameCharacter c = true) :
    ∀ c ∈ capitalize cs, isNameCharacter c = true := by
  cases cs with
  | nil => exact h
  | cons d cs =>
      obtain ⟨hd, hcs⟩ := List.forall_mem_cons.mp h
      have hupper : Text.upperForm d = [d.toUpper] := if_pos (isAscii_of_isNameCharacter hd)
      rw [capitalize, hupper]
      exact List.forall_mem_cons.mpr
        ⟨(isNameCharacter_cases hd).2, isNameCharacter_toLower hcs⟩

/-! ## Words -/

theorem flatten_clustersFrom (state : Text.ClusterState) (current cs : List Char) :
    (Text.clustersFrom state current cs).flatten = current.reverse ++ cs := by
  induction cs generalizing state current with
  | nil => simp [Text.clustersFrom]
  | cons c cs ih =>
      rw [Text.clustersFrom]
      split
      · rw [ih, List.reverse_cons, List.append_assoc, List.singleton_append]
      · rw [List.flatten_cons, ih]
        rfl

theorem flatten_clusters (cs : List Char) : (Text.clusters cs).flatten = cs := by
  cases cs with
  | nil => rfl
  | cons c cs => exact flatten_clustersFrom _ [c] cs

/-- Characters of words are characters of the name. -/
theorem mem_of_mem_wordsFrom {clusters : List Cluster} {before : Option Cluster}
    {start word : List Char} (hword : word ∈ wordsFrom before start clusters) (hc : c ∈ word) :
    c ∈ start ++ clusters.flatten := by
  induction clusters generalizing before start with
  | nil =>
      obtain rfl := List.mem_singleton.mp hword
      exact List.mem_append_left _ hc
  | cons d clusters ih =>
      rw [wordsFrom] at hword
      rw [List.flatten_cons]
      split at hword
      · rcases List.mem_cons.mp hword with rfl | hrest
        · exact List.mem_append_left _ hc
        · exact List.mem_append_right _ (List.mem_append_right _ (ih hrest))
      · split at hword
        · rcases List.mem_cons.mp hword with rfl | hrest
          · exact List.mem_append_left _ hc
          · exact List.mem_append_right _ (ih hrest)
        · rw [← List.append_assoc]
          exact ih hword

/-- Words are made of characters of the name. -/
theorem mem_of_mem_words {word : List Char} (hword : word ∈ words cs) (hc : c ∈ word) : c ∈ cs := by
  have hmem := mem_of_mem_wordsFrom (List.mem_of_mem_filter hword) hc
  rwa [flatten_clusters] at hmem

/-! ## Ways to write a name -/

variable {name : String}

theorem isName_joinLower {separator : Char} (hseparator : isNameCharacter separator = true)
    (h : IsName name) : IsName (String.ofList (joinLower separator name.toList)) := by
  intro c hc
  rw [String.toList_ofList] at hc
  rcases mem_intercalate_singleton hc with rfl | ⟨part, hpart, hc⟩
  · exact hseparator
  · obtain ⟨word, hword, rfl⟩ := List.mem_map.mp hpart
    exact isNameCharacter_toLower (fun d hd ↦ h d (mem_of_mem_words hword hd)) c hc

theorem isName_snake (h : IsName name) : IsName (snake name) := isName_joinLower (by decide) h

theorem isName_kebab (h : IsName name) : IsName (kebab name) := isName_joinLower (by decide) h

/-! ## Plurals -/

/-- A regular plural adds no letters but e, s, i and v. -/
theorem mem_regularPlural (h : c ∈ regularPlural cs) : c ∈ cs ∨ c ∈ "esiv".toList := by
  have hending : ∀ {front ending : List Char}, front ⊆ cs → ending ⊆ "esiv".toList →
      c ∈ front ++ ending → c ∈ cs ∨ c ∈ "esiv".toList := fun hfront hending hc ↦
    (List.mem_append.mp hc).imp (fun h ↦ hfront h) (fun h ↦ hending h)
  have hdrop : cs.dropLast ⊆ cs := cs.dropLast_subset
  simp only [regularPlural] at h
  split at h
  · exact hending (List.Subset.refl cs) (by decide) h
  · split at h
    · split at h
      · exact hending (List.Subset.refl cs) (by decide) h
      · exact hending hdrop (by decide) h
    · exact hending (List.Subset.trans cs.dropLast.dropLast_subset hdrop) (by decide) h
    · exact hending (List.Subset.refl cs) (by decide) h

/-- The plural of a word is made of characters of names. -/
theorem isNameCharacter_pluralWord (h : ∀ c ∈ cs, isNameCharacter c = true) :
    ∀ c ∈ pluralWord cs, isNameCharacter c = true := by
  have hirregular : ∀ entry ∈ irregular, IsName entry.2 := by decide
  have hletters : IsName "esiv" := by decide
  simp only [pluralWord]
  split
  · exact h
  · split
    · next plural hlookup =>
        obtain ⟨front, back, hentries, -⟩ := List.lookup_eq_some_iff.mp hlookup
        have hmem : (String.ofList (cs.map Char.toLower), plural) ∈ irregular := by simp [hentries]
        exact hirregular _ hmem
    · intro c hc
      exact (mem_regularPlural hc).elim (h c) (hletters c)

theorem isName_pluralize (h : IsName name) : IsName (pluralize name) := by
  intro c hc
  simp only [pluralize, splitLastWord, String.toList_ofList, List.mem_append] at hc
  rcases hc with hc | hc
  · exact h c (List.mem_of_mem_take hc)
  · refine isNameCharacter_pluralWord (fun d hd ↦ h d ?_) c hc
    have hd := List.mem_reverse.mp hd
    exact List.mem_reverse.mp ((List.takeWhile_subset _) hd)

end Scaffold.Naming

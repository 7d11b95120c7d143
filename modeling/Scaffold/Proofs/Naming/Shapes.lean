import Scaffold.Proofs.Naming.Plurals

/-!
# The shape of derived names

A declared name is made of words of letters and words of digits.  Whichever way it is written from
them, it stays an identifier: small letters and digits with single separators, starting with a
letter, or a name in camel case again.  So does its plural, in which only the last word is another.
-/

namespace Scaffold.Naming

variable {c : Char} {cs w : List Char} {ws : List (List Char)} {separator : Char} {name : String}

def IsLowerWord (w : List Char) : Prop := w ≠ [] ∧ ∀ c ∈ w, isSmall c = true ∨ isDecimal c = true

/-- A text of one or more words with single separators between them that starts with a letter. -/
structure WordShape (separator : Char) (s : String) : Prop where
  joined : ∃ ws, ws ≠ [] ∧ (∀ w ∈ ws, IsLowerWord w) ∧ s.toList = [separator].intercalate ws
  letter : ∃ c ∈ s.toList.head?, isSmall c = true

/-! ## Declared names -/

/-- A name in one of the two forms that declared names have to take. -/
theorem exists_cons_of_declared (h : isPascal name = true ∨ isCamel name = true) :
    ∃ c cs, name.toList = c :: cs ∧ isSmall c.toLower = true ∧
      ∀ d ∈ c :: cs, isAlphanumeric d = true := by
  cases hname : name.toList with
  | nil => simp [isPascal, isCamel, hname] at h
  | cons c cs =>
      simp only [isPascal, isCamel, hname, Bool.and_eq_true, List.all_eq_true] at h
      have hrest : ∀ d ∈ cs, isAlphanumeric d = true := h.elim And.right And.right
      have hfirst : isAlphanumeric c = true ∧ isSmall c.toLower = true := by
        rcases h with ⟨hc, -⟩ | ⟨hc, -⟩
        · refine ⟨by simp [isAlphanumeric, hc], ?_⟩
          rw [isCapital_iff] at hc
          rw [isSmall_iff, toNat_toLower, if_pos hc]
          omega
        · refine ⟨isAlphanumeric_of_isSmall hc, ?_⟩
          rw [isSmall_iff] at hc
          rw [isSmall_iff, toNat_toLower, if_neg (by omega)]
          exact hc
      exact ⟨c, cs, rfl, hfirst.2, List.forall_mem_cons.mpr ⟨hfirst.1, hrest⟩⟩

/-! ## The first word -/

theorem exists_wordsFrom_eq (before : Option Cluster) (w : List Char) (clusters : List Cluster) :
    ∃ more rest, wordsFrom before w clusters = (w ++ more) :: rest := by
  induction clusters generalizing before w with
  | nil => exact ⟨[], [], by rw [wordsFrom, List.append_nil]⟩
  | cons c clusters ih =>
      rw [wordsFrom]
      split
      · exact ⟨[], _, by rw [List.append_nil]⟩
      · split
        · exact ⟨[], _, by rw [List.append_nil]⟩
        · obtain ⟨more, rest, heq⟩ := ih (some c) (w ++ c)
          exact ⟨c ++ more, rest, by rw [heq, List.append_assoc]⟩

/-- The first word starts as the name does. -/
theorem exists_words_eq (hc : isAlphanumeric c = true)
    (h : ∀ d ∈ c :: cs, isNameCharacter d = true) :
    ∃ more rest, words (c :: cs) = (c :: more) :: rest := by
  have hother : ∀ d ∈ c :: cs, Text.graphemeBreak d = .other :=
    fun d hd ↦ (cluster_of_isNameCharacter (h d hd)).2.2.2.2
  have hfrom : wordsFrom none [] ((c :: cs).map ([·])) =
      wordsFrom (some [c]) [c] (cs.map ([·])) := by
    rw [List.map_cons, wordsFrom, isSeparator_of_isAlphanumeric hc]
    rfl
  obtain ⟨more, rest, heq⟩ := exists_wordsFrom_eq (some [c]) [c] (cs.map ([·]))
  refine ⟨more, rest.filter (!·.isEmpty), ?_⟩
  rw [words, clusters_of_other hother, hfrom, heq]
  rfl

/-! ## Words with separators between them -/

theorem IsWord.isLowerWord {k : Bool} (h : IsWord k w) : IsLowerWord w := by
  refine ⟨h.1, fun c hc ↦ ?_⟩
  cases k with
  | false => exact .inl (h.2 c hc)
  | true => exact .inr (h.2 c hc)

theorem Worded.isLowerWord (h : Worded ws) : ∀ w ∈ ws, IsLowerWord w := by
  intro w hw
  obtain ⟨k, hk⟩ := h.words w hw
  exact hk.isLowerWord

theorem exists_intercalate_eq (separator c : Char) (cs : List Char) (ws : List (List Char)) :
    ∃ tail, [separator].intercalate ((c :: cs) :: ws) = c :: tail := by
  cases ws with
  | nil => exact ⟨cs, List.intercalate_singleton⟩
  | cons v ws => exact ⟨_, by rw [List.intercalate_cons_cons]; rfl⟩

theorem wordShape_of_toList (hname : name.toList = [separator].intercalate ((c :: cs) :: ws))
    (hws : ∀ w ∈ (c :: cs) :: ws, IsLowerWord w) (hc : isSmall c = true) :
    WordShape separator name where
  joined := ⟨_, by simp, hws, hname⟩
  letter := by
    obtain ⟨tail, htail⟩ := exists_intercalate_eq separator c cs ws
    exact ⟨c, by rw [hname, htail]; rfl, hc⟩

/-- Without its separators, a joined text is that of its words. -/
theorem filter_intercalate (h : ∀ w ∈ ws, separator ∉ w) :
    ([separator].intercalate ws).filter (· ≠ separator) = ws.flatten := by
  have hkept : ∀ w ∈ ws, w.filter (· ≠ separator) = w := by
    intro w hw
    refine List.filter_eq_self.mpr fun d hd ↦ ?_
    rw [decide_eq_true_eq]
    rintro rfl
    exact h w hw hd
  rcases List.eq_nil_or_concat' ws with rfl | ⟨front, last, rfl⟩
  · rfl
  · obtain ⟨hfront, hlast⟩ := List.forall_mem_append.mp hkept
    rw [intercalate_concat, List.filter_append, hlast last List.mem_cons_self, List.flatten_append,
      List.flatten_singleton]
    congr 1
    rw [List.filter_flatMap, List.flatten_eq_flatMap]
    refine List.flatMap_congr fun w hw ↦ ?_
    rw [List.filter_append, hfront w hw]
    simp

/-- Words are found again between the underscores. -/
theorem words_intercalate (h : Worded ws) : words (['_'].intercalate ws) = ws := by
  rcases List.eq_nil_or_concat' ws with rfl | ⟨front, last, rfl⟩
  · rfl
  · have hmem : last ∈ front ++ [last] := List.mem_append_right _ List.mem_cons_self
    obtain ⟨k, hlast⟩ := h.words last hmem
    rw [intercalate_concat]
    refine words_joined h.init.words (fun c hc ↦ ?_) (fun _ ↦ wordsFrom_isWord hlast) ?_
    · exact isNameCharacter_of_isAlphanumeric (h.isAlphanumeric hmem c hc)
    · exact List.forall_mem_singleton.mpr hlast.1

/-! ## The storage form -/

/-- The words of a declared name in lower case, which its storage form is made of. -/
theorem exists_lowerWords (h : isPascal name = true ∨ isCamel name = true) :
    ∃ c cs rest, Worded ((c :: cs) :: rest) ∧ isSmall c = true ∧
      ((c :: cs) :: rest).flatten = name.toList.map Char.toLower ∧
      (snake name).toList = ['_'].intercalate ((c :: cs) :: rest) := by
  obtain ⟨c, cs, hname, hsmall, hplain⟩ := exists_cons_of_declared h
  obtain ⟨more, rest, hwords⟩ := exists_words_eq (hplain c List.mem_cons_self)
    fun d hd ↦ isNameCharacter_of_isAlphanumeric (hplain d hd)
  have hworded := worded_words hplain
  have hflatten := congrArg (List.map Char.toLower) (flatten_words hplain)
  rw [hwords, List.map_cons, List.map_cons] at hworded
  rw [hwords, List.map_flatten, List.map_cons, List.map_cons] at hflatten
  refine ⟨c.toLower, more.map Char.toLower, rest.map (List.map Char.toLower), hworded, hsmall,
    hname ▸ hflatten, ?_⟩
  rw [snake, String.toList_ofList, hname, joinLower_of_isAlphanumeric hplain, hwords,
    List.map_cons, List.map_cons]

/-! ## Camel case -/

theorem isAlphanumeric_toUpper (h : isAlphanumeric c = true) :
    isAlphanumeric c.toUpper = true := by
  have hall : ∀ n < 128, isAlphanumeric (Char.ofNat n) = true →
      isAlphanumeric (Char.ofNat n).toUpper = true := by
    decide
  have hc := hall c.toNat (isAscii_of_isNameCharacter (isNameCharacter_of_isAlphanumeric h))
  rw [Char.ofNat_toNat] at hc
  exact hc h

theorem isCapital_toUpper (h : isSmall c = true) : isCapital c.toUpper = true := by
  have hall : ∀ n < 128, isSmall (Char.ofNat n) = true →
      isCapital (Char.ofNat n).toUpper = true := by
    decide
  have hc := hall c.toNat
    (isAscii_of_isNameCharacter (isNameCharacter_of_isAlphanumeric (isAlphanumeric_of_isSmall h)))
  rw [Char.ofNat_toNat] at hc
  exact hc h

/-- Words with capitals in front are made of letters and digits. -/
theorem isAlphanumeric_flatMap_capitalize (h : Worded ws) :
    ∀ c ∈ ws.flatMap capitalize, isAlphanumeric c = true := by
  intro c hc
  obtain ⟨w, hw, hc⟩ := List.mem_flatMap.mp hc
  obtain ⟨k, hk⟩ := h.words w hw
  cases w with
  | nil => exact absurd rfl hk.1
  | cons d ds =>
      obtain ⟨hd, hds⟩ := List.forall_mem_cons.mp hk.2
      rw [capitalize_of_isWord hk] at hc
      rcases List.mem_cons.mp hc with rfl | hc
      · exact isAlphanumeric_toUpper (isAlphanumeric_of_isOfKind hd)
      · exact isAlphanumeric_of_isOfKind (hds c hc)

section

variable (hwords : words name.toList = (c :: cs) :: ws) (hworded : Worded ((c :: cs) :: ws))
  (hc : isSmall c = true)

include hwords hworded hc

theorem isCamel_camel : isCamel (camel name) = true := by
  obtain ⟨k, hfirst⟩ := hworded.words _ List.mem_cons_self
  have hcs := hworded.isAlphanumeric List.mem_cons_self
  have hrest := isAlphanumeric_flatMap_capitalize hworded.tail
  rw [camel, hwords]
  simp only [toLower_of_isOfKind hfirst.2, isCamel, String.toList_ofList, List.cons_append, hc,
    Bool.true_and, List.all_eq_true, List.forall_mem_append]
  exact ⟨(List.forall_mem_cons.mp hcs).2, hrest⟩

theorem isPascal_pascal : isPascal (pascal name) = true := by
  obtain ⟨k, hfirst⟩ := hworded.words _ List.mem_cons_self
  have hcs := hworded.isAlphanumeric List.mem_cons_self
  have hrest := isAlphanumeric_flatMap_capitalize hworded.tail
  rw [pascal, hwords, List.flatMap_cons, capitalize_of_isWord hfirst]
  simp only [isPascal, String.toList_ofList, List.cons_append, isCapital_toUpper hc,
    Bool.true_and, List.all_eq_true, List.forall_mem_append]
  exact ⟨(List.forall_mem_cons.mp hcs).2, hrest⟩

end

/-! ## Plurals -/

/-- The plural of a word is a word, and one of letters stays one. -/
theorem isLowerWord_pluralWord {k : Bool} (h : IsWord k w) : IsLowerWord (pluralWord w) := by
  cases k with
  | false => exact (isWord_pluralWord h).1.isLowerWord
  | true =>
      rw [pluralWord_of_isDecimal h]
      refine ⟨by simp, fun c hc ↦ ?_⟩
      rcases List.mem_append.mp hc with hc | hc
      · exact .inr (h.2 c hc)
      · rw [List.mem_singleton.mp hc]
        exact .inl (by decide)

theorem isName_of_worded (hname : name.toList = ['_'].intercalate ws) (h : Worded ws) :
    IsName name := by
  intro c hc
  rw [hname] at hc
  rcases mem_intercalate_singleton hc with rfl | ⟨w, hw, hc⟩
  · decide
  · exact isNameCharacter_of_isAlphanumeric (h.isAlphanumeric hw c hc)

/-- The plural has the words of the name but for the last, and starts with a letter as well. -/
theorem exists_pluralize_eq (hname : name.toList = ['_'].intercalate ((c :: cs) :: ws))
    (hworded : Worded ((c :: cs) :: ws)) (hc : isSmall c = true) :
    ∃ d ds vs, (pluralize name).toList = ['_'].intercalate ((d :: ds) :: vs) ∧
      (∀ w ∈ (d :: ds) :: vs, IsLowerWord w) ∧ isSmall d = true ∧
      Worded (words (pluralize name).toList) := by
  obtain ⟨front, last, heq⟩ := (List.eq_nil_or_concat' ((c :: cs) :: ws)).resolve_left (by simp)
  rw [heq] at hname hworded
  have hmem : last ∈ front ++ [last] := List.mem_append_right _ List.mem_cons_self
  obtain ⟨k, hlast⟩ := hworded.words last hmem
  have hunderscore : '_' ∉ last := fun hin ↦
    absurd (hworded.isAlphanumeric hmem '_' hin) (by decide)
  have hplural : (pluralize name).toList = front.flatMap (· ++ ['_']) ++ pluralWord last := by
    rw [pluralize, hname, intercalate_concat, splitLastWord_joined front hunderscore,
      String.toList_ofList]
  have hlower : ∀ w ∈ front ++ [pluralWord last], IsLowerWord w := by
    refine List.forall_mem_append.mpr ⟨fun w hw ↦ ?_, ?_⟩
    · exact hworded.isLowerWord w (List.mem_append_left _ hw)
    · exact List.forall_mem_singleton.mpr (isLowerWord_pluralWord hlast)
  have hfirst : ∃ d ds vs, front ++ [pluralWord last] = (d :: ds) :: vs ∧ isSmall d = true := by
    cases front with
    | cons w front =>
        obtain ⟨rfl, -⟩ := List.cons.inj heq
        exact ⟨c, cs, _, rfl, hc⟩
    | nil =>
        obtain ⟨rfl, -⟩ := List.cons.inj heq
        -- the only word starts with a letter, so that it is one of letters
        have hk : k = false := by
          rw [← isDecimal_of_isOfKind (hlast.2 c List.mem_cons_self), not_isDecimal_of_isSmall hc]
        obtain ⟨hword, -⟩ := isWord_pluralWord (hk ▸ hlast)
        obtain ⟨d, ds, hds⟩ := List.exists_cons_of_ne_nil hword.1
        exact ⟨d, ds, [], by rw [hds, List.nil_append],
          hword.2 d (by rw [hds]; exact List.mem_cons_self)⟩
  obtain ⟨d, ds, vs, hvs, hd⟩ := hfirst
  refine ⟨d, ds, vs, ?_, hvs ▸ hlower, hd, ?_⟩
  · rw [hplural, ← hvs, intercalate_concat]
  · rw [hplural]
    exact (words_plural hworded).1

/-- The plural of a name has the shape of a name, with underscores and with hyphens. -/
theorem wordShape_pluralize (hname : name.toList = ['_'].intercalate ((c :: cs) :: ws))
    (hworded : Worded ((c :: cs) :: ws)) (hc : isSmall c = true) :
    WordShape '_' (pluralize name) ∧ WordShape '-' (kebab (pluralize name)) := by
  obtain ⟨d, ds, vs, hplural, hlower, hd, hwords⟩ := exists_pluralize_eq hname hworded hc
  refine ⟨wordShape_of_toList hplural hlower hd, ?_⟩
  -- behind digits the ending of the plural is one more word, but the start is the same
  obtain ⟨tail, htail⟩ := exists_intercalate_eq '_' d ds vs
  rw [htail] at hplural
  have hisName : IsName (pluralize name) := isName_pluralize (isName_of_worded hname hworded)
  obtain ⟨more, rest, heq⟩ := exists_words_eq (isAlphanumeric_of_isSmall hd)
    fun e he ↦ hisName e (hplural ▸ he)
  rw [hplural, heq] at hwords
  refine wordShape_of_toList ?_ hwords.isLowerWord hd
  rw [kebab, String.toList_ofList, joinLower, hplural, heq, map_toLower_of_worded hwords]

/-- Every name that is derived from a declared one is an identifier. -/
theorem derived_names_shaped (name : String) (h : isPascal name = true ∨ isCamel name = true) :
    WordShape '_' (snake name) ∧
      (snake name).toList.filter (· ≠ '_') = name.toList.map Char.toLower ∧
      snake (snake name) = snake name ∧
      isCamel (camel (snake name)) = true ∧
      isPascal (pascal (snake name)) = true ∧
      WordShape '_' (pluralize (snake name)) ∧
      WordShape '-' (kebab (pluralize (snake name))) := by
  obtain ⟨c, cs, rest, hworded, hc, hflatten, hsnake⟩ := exists_lowerWords h
  have hwords : words (snake name).toList = (c :: cs) :: rest := by
    rw [hsnake, words_intercalate hworded]
  have hunderscore : ∀ w ∈ (c :: cs) :: rest, '_' ∉ w := fun w hw hmem ↦
    absurd (hworded.isAlphanumeric hw '_' hmem) (by decide)
  refine ⟨wordShape_of_toList hsnake hworded.isLowerWord hc, ?_, ?_,
    isCamel_camel hwords hworded hc, isPascal_pascal hwords hworded hc,
    wordShape_pluralize hsnake hworded hc⟩
  · rw [hsnake, filter_intercalate hunderscore, hflatten]
  · rw [snake, joinLower, hwords, map_toLower_of_worded hworded, ← hsnake, String.ofList_toList]

/-- A name with an acronym and with a number at its end. -/
theorem derived_names_shaped_route :
    isPascal "HTTPRoute66" = true ∧ WordShape '_' "http_route_66" ∧
      snake "http_route_66" = "http_route_66" ∧ isCamel "httpRoute66" = true ∧
      isPascal "HttpRoute66" = true ∧ WordShape '_' "http_route_66s" ∧
      WordShape '-' "http-route-66-s" := by
  have hpascal : isPascal "HTTPRoute66" = true := by decide
  have hsnake : snake "HTTPRoute66" = "http_route_66" := by decide +kernel
  have hcamel : camel "http_route_66" = "httpRoute66" := by decide +kernel
  have hupper : pascal "http_route_66" = "HttpRoute66" := by decide +kernel
  have hplural : pluralize "http_route_66" = "http_route_66s" := by decide +kernel
  have hkebab : kebab "http_route_66s" = "http-route-66-s" := by decide +kernel
  have hderived := derived_names_shaped "HTTPRoute66" (.inl hpascal)
  rw [hsnake, hcamel, hupper, hplural, hkebab] at hderived
  exact ⟨hpascal, hderived.1, hderived.2.2⟩

end Scaffold.Naming

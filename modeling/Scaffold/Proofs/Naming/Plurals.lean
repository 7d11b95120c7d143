import Scaffold.Manifest.Derived
import Scaffold.Proofs.Naming.Words

/-!
# The words of plurals

The plural of a name has the words of the name but for the last one.  A last word of letters gives
way to its plural, which is one word; a last word of digits stays and is followed by an `s`, which
is a word of its own.  A plural by itself is never that `s`, so a plural is told by its words, and
hyphens and camel case keep different plurals apart.
-/

namespace Scaffold

open Naming

namespace Naming

variable {c : Char} {w last : List Char} {front : List (List Char)}

instance (k : Bool) (w : List Char) : Decidable (IsWord k w) :=
  decidable_of_iff (w ≠ [] ∧ w.all (isOfKind k) = true)
    (and_congr_right fun _ ↦ List.all_eq_true)

/-! ## Plurals of words -/

theorem IsWord.map_toLower {k : Bool} (h : IsWord k w) : w.map Char.toLower = w := by
  have hsame : ∀ c ∈ w, c.toLower = id c := fun c hc ↦ (toUpper_of_isOfKind (h.2 c hc)).2.1
  rw [List.map_congr_left hsame, List.map_id]

/-- The words that have to be learned, and their plurals. -/
theorem isWord_exceptions :
    (∀ s ∈ uncountable, IsWord false s.toList ∧ 2 ≤ s.toList.length) ∧
      ∀ e ∈ irregular, IsWord false e.1.toList ∧
        IsWord false e.2.toList ∧ 2 ≤ e.2.toList.length := by
  decide

/-- The plural of a word is the word, an irregular form or a regular one. -/
theorem pluralWord_cases (w : List Char) :
    ((w = [] ∨ String.ofList (w.map Char.toLower) ∈ uncountable) ∧ pluralWord w = w) ∨
      (∃ plural, (String.ofList (w.map Char.toLower), plural) ∈ irregular ∧
        pluralWord w = plural.toList) ∨
      pluralWord w = regularPlural w := by
  simp only [pluralWord]
  split
  · next h =>
      refine .inl ⟨?_, rfl⟩
      simpa using h
  · split
    · next plural hlookup =>
        obtain ⟨before, after, hentries, -⟩ := List.lookup_eq_some_iff.mp hlookup
        refine .inr (.inl ⟨plural, ?_, rfl⟩)
        rw [hentries]
        exact List.mem_append_right _ List.mem_cons_self
    · exact .inr (.inr rfl)

theorem two_le_length_regularPlural (h : w ≠ []) : 2 ≤ (regularPlural w).length := by
  have hlength : 1 ≤ w.length := List.length_pos_of_ne_nil h
  simp only [regularPlural]
  split
  · simp
  · split
    · split
      · simpa using hlength
      · simp
    · simp
    · simpa using hlength

/-- The plural of a word of letters is one, and longer than a single `s`. -/
theorem isWord_pluralWord (h : IsWord false w) :
    IsWord false (pluralWord w) ∧ 2 ≤ (pluralWord w).length := by
  obtain ⟨huncountable, hirregular⟩ := isWord_exceptions
  rcases pluralWord_cases w with ⟨hempty | hmem, heq⟩ | ⟨plural, hmem, heq⟩ | heq
  · exact absurd hempty h.1
  · rw [h.map_toLower] at hmem
    rw [heq]
    simpa using huncountable _ hmem
  · rw [heq]
    exact (hirregular _ hmem).2
  · rw [heq]
    have hlength := two_le_length_regularPlural h.1
    refine ⟨⟨?_, fun c hc ↦ ?_⟩, hlength⟩
    · rintro hnil
      rw [hnil] at hlength
      cases hlength
    · have hletters : ∀ c ∈ "esiv".toList, isOfKind false c = true :=
        List.all_eq_true.mp (by decide)
      exact (mem_regularPlural hc).elim (h.2 c) (hletters c)

/-- A word of digits gets an s. -/
theorem regularPlural_of_isDecimal (h : IsWord true w) : regularPlural w = w ++ ['s'] := by
  have hlower := h.map_toLower
  obtain ⟨front, d, rfl⟩ := (List.eq_nil_or_concat' w).resolve_left h.1
  have hd : isDecimal d = true := h.2 d (by simp)
  have hne : ∀ {e}, isDecimal e = false → d ≠ e := by
    rintro e he rfl
    rw [hd] at he
    cases he
  have hreversed : (List.map Char.toLower (front ++ [d])).reverse = d :: front.reverse := by
    rw [hlower, List.reverse_append, List.reverse_singleton, List.singleton_append]
  have hhissing : endsHissing (d :: front.reverse) = false := by
    rw [endsHissing] <;> intros <;> exact absurd (List.cons.inj ‹_›).1 (hne (by decide))
  simp only [regularPlural, hreversed, hhissing, if_neg Bool.false_ne_true]
  split
  · exact absurd (List.cons.inj ‹_›).1 (hne (by decide))
  · exact absurd (List.cons.inj ‹_›).1 (hne (by decide))
  · rfl

/-- The plural of a number. -/
theorem pluralWord_of_isDecimal (h : IsWord true w) : pluralWord w = w ++ ['s'] := by
  obtain ⟨huncountable, hirregular⟩ := isWord_exceptions
  have hletters : ¬ IsWord false w := fun hword ↦ absurd (hword.kind_eq h) (by decide)
  rcases pluralWord_cases w with ⟨hempty | hmem, -⟩ | ⟨plural, hmem, -⟩ | heq
  · exact absurd hempty h.1
  · rw [h.map_toLower] at hmem
    exact absurd (by simpa using (huncountable _ hmem).1) hletters
  · rw [h.map_toLower] at hmem
    exact absurd (by simpa using (hirregular _ hmem).1) hletters
  · rw [heq, regularPlural_of_isDecimal h]

/-! ## Plurals of names -/

/-- The last word is what follows the last underscore. -/
theorem splitLastWord_joined (front : List (List Char)) (hlast : '_' ∉ last) :
    splitLastWord (front.flatMap (· ++ ['_']) ++ last) = (front.flatMap (· ++ ['_']), last) := by
  have hstop : (front.flatMap (· ++ ['_'])).reverse.takeWhile (· ≠ '_') = [] := by
    rcases List.eq_nil_or_concat' front with rfl | ⟨front, w, rfl⟩
    · rfl
    · simp
  have hgo : ∀ c ∈ last.reverse, decide (c ≠ '_') = true := by
    intro c hc
    rw [decide_eq_true_eq]
    rintro rfl
    exact hlast (List.mem_reverse.mp hc)
  have htake : ((front.flatMap (· ++ ['_']) ++ last).reverse.takeWhile (· ≠ '_')).reverse =
      last := by
    rw [List.reverse_append, List.takeWhile_append_of_pos hgo, hstop, List.append_nil,
      List.reverse_reverse]
  simp only [splitLastWord, htake]
  rw [List.length_append, Nat.add_sub_cancel, List.take_left]

theorem Worded.init (h : Worded (front ++ [last])) : Worded front :=
  ⟨fun w hw ↦ h.words w (List.mem_append_left _ hw), (List.isChain_append.mp h.apart).1⟩

theorem Worded.concat (h : Worded front) (hw : IsWord false w) : Worded (front ++ [w]) := by
  refine ⟨List.forall_mem_append.mpr ⟨h.words, List.forall_mem_singleton.mpr ⟨false, hw⟩⟩, ?_⟩
  refine List.isChain_append.mpr ⟨h.apart, .singleton w, ?_⟩
  rintro v - w' hw' ⟨-, hnumbered⟩
  obtain rfl : w = w' := by simpa using hw'
  exact absurd (hw.kind_eq hnumbered) (by decide)

def joinPlural (ws : List (List Char)) : List Char :=
  if ws.getLast? = some ['s'] then ['_'].intercalate ws.dropLast ++ ['s']
  else ['_'].intercalate ws

theorem wordsFrom_isWord {k : Bool} (hw : IsWord k w) {before : Option Cluster}
    (hbefore : IsFresh before) : wordsFrom before [] (w.map ([·])) = [w] := by
  obtain ⟨d, -, heq⟩ := wordsFrom_word hw hbefore []
  rwa [List.append_nil] at heq

theorem wordsFrom_isDecimal (hw : IsWord true w) {before : Option Cluster}
    (hbefore : IsFresh before) : wordsFrom before [] ((w ++ ['s']).map ([·])) = [w, ['s']] := by
  obtain ⟨d, hd, heq⟩ := wordsFrom_word hw hbefore [['s']]
  have hstarts : startsWord (some [d]) ['s'] none = true := by
    refine startsWord_of_isDecimal_ne (isAlphanumeric_of_isDecimal hd) (by decide) ?_ none
    rw [show isDecimal d = true from hd]
    decide
  have hseparator : isSeparator ['s'] = false := by decide
  rw [List.map_append, List.map_singleton, heq, wordsFrom, hseparator, if_neg Bool.false_ne_true,
    List.head?_nil, if_pos hstarts]
  rfl

/-- The words of the plural of a name, and the plural as they give it. -/
theorem words_plural (h : Worded (front ++ [last])) :
    Worded (words (front.flatMap (· ++ ['_']) ++ pluralWord last)) ∧
      words (front.flatMap (· ++ ['_']) ++ pluralWord last) ≠ [] ∧
      joinPlural (words (front.flatMap (· ++ ['_']) ++ pluralWord last)) =
        front.flatMap (· ++ ['_']) ++ pluralWord last := by
  have hname : ∀ c ∈ pluralWord last, isNameCharacter c = true :=
    isNameCharacter_pluralWord fun c hc ↦ isNameCharacter_of_isAlphanumeric
      (h.isAlphanumeric (List.mem_append_right _ List.mem_cons_self) c hc)
  obtain ⟨k, hlast⟩ := h.words last (List.mem_append_right _ List.mem_cons_self)
  cases k with
  | false =>
      obtain ⟨hplural, hlength⟩ := isWord_pluralWord hlast
      have hwords : words (front.flatMap (· ++ ['_']) ++ pluralWord last) =
          front ++ [pluralWord last] :=
        words_joined h.init.words hname (fun _ ↦ wordsFrom_isWord hplural)
          (List.forall_mem_singleton.mpr hplural.1)
      have hne : pluralWord last ≠ ['s'] := by
        intro heq
        rw [heq] at hlength
        exact absurd hlength (by decide)
      rw [hwords]
      refine ⟨h.init.concat hplural, by simp, ?_⟩
      rw [joinPlural, List.getLast?_concat, if_neg (mt Option.some.inj hne), intercalate_concat]
  | true =>
      -- behind a number the letter of the plural is a word of its own
      have hplural := pluralWord_of_isDecimal hlast
      have hwords : words (front.flatMap (· ++ ['_']) ++ pluralWord last) =
          (front ++ [last]) ++ [['s']] := by
        rw [List.append_assoc]
        refine words_joined h.init.words hname (fun _ hbefore ↦ ?_) ?_
        · rw [hplural]
          exact wordsFrom_isDecimal hlast hbefore
        · exact List.forall_mem_cons.mpr ⟨hlast.1, by simp⟩
      rw [hwords]
      refine ⟨h.concat (by decide), by simp, ?_⟩
      rw [joinPlural, List.getLast?_concat, if_pos rfl, List.dropLast_concat, intercalate_concat,
        hplural, List.append_assoc]

end Naming

/-- The plural of an entity is told by its words. -/
theorem words_pluralOf {name : String} (h : isPascal name = true) :
    Worded (words (pluralOf name).toList) ∧ words (pluralOf name).toList ≠ [] ∧
      joinPlural (words (pluralOf name).toList) = (pluralOf name).toList := by
  have hplain := isAlphanumeric_of_isPascal h
  have hworded := worded_words hplain
  have hne : words name.toList ≠ [] := by
    intro hnil
    have hflatten := flatten_words hplain
    rw [hnil] at hflatten
    rw [isPascal, ← hflatten] at h
    cases h
  obtain ⟨front, last, heq⟩ :=
    (List.eq_nil_or_concat' ((words name.toList).map (List.map Char.toLower))).resolve_left
      (by simpa using hne)
  rw [heq] at hworded
  have hunderscore : '_' ∉ last := fun hmem ↦ absurd
    (hworded.isAlphanumeric (List.mem_append_right _ List.mem_cons_self) '_' hmem) (by decide)
  have hplural : (pluralOf name).toList = front.flatMap (· ++ ['_']) ++ pluralWord last := by
    rw [pluralOf, singularOf, snake, pluralize, String.toList_ofList,
      joinLower_of_isAlphanumeric hplain, heq, intercalate_concat, String.toList_ofList,
      splitLastWord_joined front hunderscore]
  rw [hplural]
  exact words_plural hworded

variable {a b : String} (ha : isPascal a = true) (hb : isPascal b = true)

include ha hb

theorem pluralOf_eq_of_words_eq (h : words (pluralOf a).toList = words (pluralOf b).toList) :
    pluralOf a = pluralOf b := by
  rw [← String.toList_inj, ← (words_pluralOf ha).2.2, h, (words_pluralOf hb).2.2]

theorem kebab_pluralOf_inj : kebab (pluralOf a) = kebab (pluralOf b) ↔ pluralOf a = pluralOf b := by
  obtain ⟨hworded, hne, -⟩ := words_pluralOf ha
  obtain ⟨hworded', hne', -⟩ := words_pluralOf hb
  refine ⟨fun h ↦ pluralOf_eq_of_words_eq ha hb ?_, congrArg kebab⟩
  exact words_eq_of_kebab_eq hworded hworded' hne hne' h

theorem camel_pluralOf_inj : camel (pluralOf a) = camel (pluralOf b) ↔ pluralOf a = pluralOf b := by
  obtain ⟨hworded, hne, -⟩ := words_pluralOf ha
  obtain ⟨hworded', hne', -⟩ := words_pluralOf hb
  refine ⟨fun h ↦ pluralOf_eq_of_words_eq ha hb ?_, congrArg camel⟩
  exact words_eq_of_camel_eq hworded hworded' hne hne' h

end Scaffold

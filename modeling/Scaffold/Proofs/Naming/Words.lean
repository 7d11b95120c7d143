import Mathlib.Data.List.Chain
import Scaffold.Proofs.Naming.Characters
import Scaffold.Proofs.Path

/-!
# Words and the ways to join them

Cutting a plain name gives words of letters and words of digits, and never two words of digits in a
row.  Words of this kind are found again in the text that joins them, and each of the ways to write
a name from its words tells the words apart: hyphens because no word contains one, and camel case
because the first word of such a text is told by the text alone.
-/

namespace Scaffold.Naming

variable {b c : Char} {cs v w : List Char} {vs ws : List (List Char)}

/-! ## Single characters -/

def isDecimal (c : Char) : Bool := '0' ≤ c && c ≤ '9'

theorem isDecimal_iff : isDecimal c = true ↔ 48 ≤ c.toNat ∧ c.toNat ≤ 57 := by
  simp [isDecimal, Char.le_def, UInt32.le_iff_toNat_le]

theorem isSmall_iff : isSmall c = true ↔ 97 ≤ c.toNat ∧ c.toNat ≤ 122 := by
  simp [isSmall, Char.le_def, UInt32.le_iff_toNat_le]

theorem isCapital_iff : isCapital c = true ↔ 65 ≤ c.toNat ∧ c.toNat ≤ 90 := by
  simp [isCapital, Char.le_def, UInt32.le_iff_toNat_le]

theorem isNameCharacter_of_isAlphanumeric (h : isAlphanumeric c = true) :
    isNameCharacter c = true := by
  simp [isNameCharacter, h]

theorem isAlphanumeric_of_isSmall (h : isSmall c = true) : isAlphanumeric c = true := by
  simp [isAlphanumeric, h]

theorem isAlphanumeric_of_isDecimal (h : isDecimal c = true) : isAlphanumeric c = true := by
  rw [isAlphanumeric_iff]
  rw [isDecimal_iff] at h
  omega

theorem not_isDecimal_of_isSmall (h : isSmall c = true) : isDecimal c = false := by
  rw [Bool.eq_false_iff, ne_eq, isDecimal_iff]
  rw [isSmall_iff] at h
  omega

/-- What the division into words sees of a character. -/
theorem cluster_of_isNameCharacter (h : isNameCharacter c = true) :
    isUpper [c] = isCapital c ∧ isLower [c] = isSmall c ∧ isDigit [c] = isDecimal c ∧
      isSeparator [c] = !isAlphanumeric c ∧ Text.graphemeBreak c = .other := by
  have hall : ∀ n < 128, isNameCharacter (Char.ofNat n) = true →
      isUpper [Char.ofNat n] = isCapital (Char.ofNat n) ∧
        isLower [Char.ofNat n] = isSmall (Char.ofNat n) ∧
        isDigit [Char.ofNat n] = isDecimal (Char.ofNat n) ∧
        isSeparator [Char.ofNat n] = !isAlphanumeric (Char.ofNat n) ∧
        Text.graphemeBreak (Char.ofNat n) = .other := by
    decide
  have hc := hall c.toNat (isAscii_of_isNameCharacter h)
  rw [Char.ofNat_toNat] at hc
  exact hc h

/-- Between letters and digits a word starts. -/
theorem startsWord_of_isDecimal_ne (hb : isAlphanumeric b = true) (hc : isAlphanumeric c = true)
    (h : isDecimal b ≠ isDecimal c) (after : Option Cluster) :
    startsWord (some [b]) [c] after = true := by
  obtain ⟨hbupper, hblower, hbdigit, -⟩ :=
    cluster_of_isNameCharacter (isNameCharacter_of_isAlphanumeric hb)
  obtain ⟨hcupper, hclower, hcdigit, -⟩ :=
    cluster_of_isNameCharacter (isNameCharacter_of_isAlphanumeric hc)
  have hbclass : (isCapital b || isSmall b || isDecimal b) = true := hb
  have hcclass : (isCapital c || isSmall c || isDecimal c) = true := hc
  simp only [startsWord, isBoundary, hbupper, hblower, hbdigit, hcupper, hclower, hcdigit]
  cases hbd : isDecimal b <;> cases hcd : isDecimal c <;> simp_all <;> tauto

/-! ## Letters and digits -/

def isOfKind (numbered : Bool) : Char → Bool := if numbered then isDecimal else isSmall

theorem isAlphanumeric_of_isOfKind {k : Bool} (h : isOfKind k c = true) :
    isAlphanumeric c = true := by
  cases k
  · exact isAlphanumeric_of_isSmall h
  · exact isAlphanumeric_of_isDecimal h

theorem isDecimal_of_isOfKind {k : Bool} (h : isOfKind k c = true) : isDecimal c = k := by
  cases k
  · exact not_isDecimal_of_isSmall h
  · exact h

theorem isOfKind_toLower (h : isAlphanumeric c = true) :
    isOfKind (isDecimal c) c.toLower = true := by
  rw [isAlphanumeric_iff] at h
  cases hd : isDecimal c
  · rw [Bool.eq_false_iff, ne_eq, isDecimal_iff] at hd
    change isSmall c.toLower = true
    rw [isSmall_iff, toNat_toLower]
    split <;> omega
  · rw [isDecimal_iff] at hd
    change isDecimal c.toLower = true
    rw [isDecimal_iff, toNat_toLower]
    split <;> omega

/-- Between two digits no word starts, and neither does one between two small letters. -/
theorem startsWord_of_isOfKind {k : Bool} (hb : isOfKind k b = true) (hc : isOfKind k c = true)
    (after : Option Cluster) : startsWord (some [b]) [c] after = false := by
  have hcluster : ∀ {d}, isOfKind k d = true →
      isUpper [d] = false ∧ isLower [d] = !k ∧ isDigit [d] = k := by
    intro d hd
    obtain ⟨hupper, hlower, hdigit, -⟩ := cluster_of_isNameCharacter
      (isNameCharacter_of_isAlphanumeric (isAlphanumeric_of_isOfKind hd))
    rw [hupper, hlower, hdigit, isDecimal_of_isOfKind hd]
    cases k
    · have hsmall := isSmall_iff.mp hd
      refine ⟨?_, hd, rfl⟩
      rw [Bool.eq_false_iff, ne_eq, isCapital_iff]
      omega
    · have hdecimal := isDecimal_iff.mp hd
      refine ⟨?_, ?_, rfl⟩
      · rw [Bool.eq_false_iff, ne_eq, isCapital_iff]
        omega
      · change isSmall d = false
        rw [Bool.eq_false_iff, ne_eq, isSmall_iff]
        omega
  have hacronym : after.any (isAcronymEnd [b] [c]) = false := by
    cases after <;> simp [isAcronymEnd, hcluster hb]
  simp [startsWord, isBoundary, hacronym, hcluster hb, hcluster hc]

theorem startsWord_underscore (c : Cluster) (after : Option Cluster) :
    startsWord (some ['_']) c after = false := by
  obtain ⟨hupper, hlower, hdigit, -⟩ := cluster_of_isNameCharacter (c := '_') (by decide)
  have hacronym : after.any (isAcronymEnd ['_'] c) = false := by
    cases after <;> simp [isAcronymEnd, hupper, isCapital]
  simp [startsWord, isBoundary, hacronym, hupper, hlower, hdigit, isCapital, isSmall, isDecimal]

/-! ## Words -/

/-- Digits and nothing else, or small letters and nothing else. -/
def IsWord (numbered : Bool) (w : List Char) : Prop :=
  w ≠ [] ∧ ∀ c ∈ w, isOfKind numbered c = true

theorem IsWord.kind_eq {k k' : Bool} (h : IsWord k w) (h' : IsWord k' w) : k = k' := by
  obtain ⟨c, hc⟩ := List.exists_mem_of_ne_nil w h.1
  rw [← isDecimal_of_isOfKind (h.2 c hc), isDecimal_of_isOfKind (h'.2 c hc)]

/-- The words of a name: letters or digits, and no two of digits in a row. -/
structure Worded (ws : List (List Char)) : Prop where
  words : ∀ w ∈ ws, ∃ k, IsWord k w
  apart : ws.IsChain fun v w ↦ ¬ (IsWord true v ∧ IsWord true w)

theorem Worded.tail (h : Worded (w :: ws)) : Worded ws :=
  ⟨(List.forall_mem_cons.mp h.words).2, h.apart.tail⟩

theorem Worded.isAlphanumeric (h : Worded ws) (hw : w ∈ ws) :
    ∀ c ∈ w, isAlphanumeric c = true := by
  obtain ⟨k, hk⟩ := h.words w hw
  exact fun c hc ↦ isAlphanumeric_of_isOfKind (hk.2 c hc)

/-- The word in front of the characters goes on with what is of its kind. -/
theorem worded_wordsFrom (hcs : ∀ c ∈ cs, isAlphanumeric c = true) (hb : isAlphanumeric b = true)
    (hword : IsWord (isDecimal b) (w.map Char.toLower)) :
    ∃ first rest, (wordsFrom (some [b]) w (cs.map ([·]))).map (List.map Char.toLower) =
      first :: rest ∧ Worded (first :: rest) ∧ IsWord (isDecimal b) first := by
  induction cs generalizing b w with
  | nil =>
      refine ⟨w.map Char.toLower, [], rfl, ⟨?_, .singleton _⟩, hword⟩
      exact List.forall_mem_singleton.mpr ⟨_, hword⟩
  | cons c cs ih =>
      obtain ⟨hc, hcs⟩ := List.forall_mem_cons.mp hcs
      have hlower : ∀ d ∈ [c].map Char.toLower, isOfKind (isDecimal c) d = true := by
        simpa using isOfKind_toLower hc
      rw [List.map_cons, wordsFrom, isSeparator_of_isAlphanumeric hc, if_neg Bool.false_ne_true]
      split
      · next hstarts =>
          obtain ⟨first, rest, heq, hworded, hfirst⟩ := ih hcs hc ⟨by simp, hlower⟩
          refine ⟨w.map Char.toLower, first :: rest, by rw [List.map_cons, heq], ⟨?_, ?_⟩, hword⟩
          · exact List.forall_mem_cons.mpr ⟨⟨_, hword⟩, hworded.words⟩
          · refine List.isChain_cons_cons.mpr ⟨fun hboth ↦ ?_, hworded.apart⟩
            have hno := startsWord_of_isOfKind (k := true) (hword.kind_eq hboth.1)
              (hfirst.kind_eq hboth.2) (cs.map ([·])).head?
            rw [hno] at hstarts
            cases hstarts
      · next hgoes =>
          have hsame : isDecimal b = isDecimal c := by
            by_contra hne
            exact hgoes (startsWord_of_isDecimal_ne hb hc hne _)
          rw [hsame] at hword ⊢
          refine ih hcs hc ⟨by simp, ?_⟩
          rw [List.map_append, List.forall_mem_append]
          exact ⟨hword.2, hlower⟩

/-- The words of a plain name, in lower case. -/
theorem worded_words (hcs : ∀ c ∈ cs, isAlphanumeric c = true) :
    Worded ((words cs).map (List.map Char.toLower)) := by
  cases cs with
  | nil => exact ⟨by simp [words, Text.clusters, wordsFrom], .nil⟩
  | cons c cs =>
      have hother := fun d hd ↦ graphemeBreak_of_isAlphanumeric (hcs d hd)
      obtain ⟨hc, hcs⟩ := List.forall_mem_cons.mp hcs
      obtain ⟨first, rest, heq, hworded, -⟩ := worded_wordsFrom (w := [c]) hcs hc
        ⟨by simp, by simpa using isOfKind_toLower hc⟩
      have hfrom : wordsFrom none [] ((c :: cs).map ([·])) =
          wordsFrom (some [c]) [c] (cs.map ([·])) := by
        rw [List.map_cons, wordsFrom, isSeparator_of_isAlphanumeric hc]
        rfl
      have hkept : ∀ w ∈ wordsFrom (some [c]) [c] (cs.map ([·])), (!w.isEmpty) = true := by
        intro w hw
        have hmem := List.mem_map_of_mem (f := List.map Char.toLower) hw
        rw [heq] at hmem
        obtain ⟨k, hk⟩ := hworded.words _ hmem
        have hne := hk.1
        simpa using hne
      rw [words, clusters_of_other hother, hfrom, List.filter_eq_self.mpr hkept, heq]
      exact hworded

/-! ## Joined words -/

theorem intercalate_concat (separator : Char) (front : List (List Char)) (last : List Char) :
    [separator].intercalate (front ++ [last]) = front.flatMap (· ++ [separator]) ++ last := by
  induction front with
  | nil => exact List.intercalate_singleton
  | cons w front ih =>
      have hne : front ++ [last] ≠ [] := by simp
      rw [List.cons_append, List.intercalate_cons_of_ne_nil hne, ih, List.flatMap_cons,
        List.append_assoc (w ++ [separator])]

/-- Where a word starts anew: at the start of a text and behind an underscore. -/
def IsFresh (before : Option Cluster) : Prop := before = none ∨ before = some ['_']

theorem startsWord_of_isFresh {before : Option Cluster} (h : IsFresh before) (c : Cluster)
    (after : Option Cluster) : startsWord before c after = false := by
  rcases h with rfl | rfl
  · rfl
  · exact startsWord_underscore c after

theorem wordsFrom_append {k : Bool} (hb : isOfKind k b = true) (hw : ∀ c ∈ w, isOfKind k c = true)
    (v : List Char) (rest : List Cluster) :
    ∃ d, isOfKind k d = true ∧
      wordsFrom (some [b]) v (w.map ([·]) ++ rest) = wordsFrom (some [d]) (v ++ w) rest := by
  induction w generalizing b v with
  | nil => exact ⟨b, hb, by rw [List.map_nil, List.nil_append, List.append_nil]⟩
  | cons c w ih =>
      obtain ⟨hc, hw⟩ := List.forall_mem_cons.mp hw
      obtain ⟨d, hd, heq⟩ := ih hc hw (v ++ [c])
      refine ⟨d, hd, ?_⟩
      rw [List.map_cons, List.cons_append, wordsFrom, startsWord_of_isOfKind hb hc,
        isSeparator_of_isAlphanumeric (isAlphanumeric_of_isOfKind hc), if_neg Bool.false_ne_true,
        if_neg Bool.false_ne_true, heq, List.append_assoc, List.singleton_append]

/-- A word that starts anew is read up to what follows it. -/
theorem wordsFrom_word {k : Bool} (hw : IsWord k w) {before : Option Cluster}
    (hbefore : IsFresh before) (rest : List Cluster) :
    ∃ d, isOfKind k d = true ∧
      wordsFrom before [] (w.map ([·]) ++ rest) = wordsFrom (some [d]) w rest := by
  obtain ⟨hne, hw⟩ := hw
  cases w with
  | nil => exact absurd rfl hne
  | cons c w =>
      obtain ⟨hc, hw⟩ := List.forall_mem_cons.mp hw
      obtain ⟨d, hd, heq⟩ := wordsFrom_append hc hw [c] rest
      refine ⟨d, hd, ?_⟩
      rw [List.map_cons, List.cons_append, wordsFrom, startsWord_of_isFresh hbefore,
        isSeparator_of_isAlphanumeric (isAlphanumeric_of_isOfKind hc), if_neg Bool.false_ne_true,
        if_neg Bool.false_ne_true]
      exact heq

/-- Words with underscores between them are found again, in front of whatever words the text ends
in. -/
theorem wordsFrom_joined {front pieces : List (List Char)} {last : List Char}
    (hfront : ∀ w ∈ front, ∃ k, IsWord k w)
    (hlast : ∀ before, IsFresh before → wordsFrom before [] (last.map ([·])) = pieces)
    {before : Option Cluster} (hbefore : IsFresh before) :
    wordsFrom before [] ((front.flatMap (· ++ ['_']) ++ last).map ([·])) = front ++ pieces := by
  induction front generalizing before with
  | nil => exact hlast before hbefore
  | cons w front ih =>
      obtain ⟨⟨k, hw⟩, hfront⟩ := List.forall_mem_cons.mp hfront
      have hrest := ih hfront (.inr rfl)
      obtain ⟨d, -, heq⟩ := wordsFrom_word hw hbefore
        (['_'] :: (front.flatMap (· ++ ['_']) ++ last).map ([·]))
      have hseparator : isSeparator ['_'] = true := rfl
      rw [wordsFrom, hseparator, if_pos rfl, hrest] at heq
      simpa using heq

/-- The words of a joined text are the words in front and those of the last part. -/
theorem words_joined {front pieces : List (List Char)} {last : List Char}
    (hfront : ∀ w ∈ front, ∃ k, IsWord k w) (hname : ∀ c ∈ last, isNameCharacter c = true)
    (hlast : ∀ before, IsFresh before → wordsFrom before [] (last.map ([·])) = pieces)
    (hpieces : ∀ w ∈ pieces, w ≠ []) :
    words (front.flatMap (· ++ ['_']) ++ last) = front ++ pieces := by
  have hother : ∀ c ∈ front.flatMap (· ++ ['_']) ++ last, Text.graphemeBreak c = .other := by
    intro c hc
    refine (cluster_of_isNameCharacter ?_).2.2.2.2
    rcases List.mem_append.mp hc with hc | hc
    · obtain ⟨w, hw, hc⟩ := List.mem_flatMap.mp hc
      obtain ⟨k, hk⟩ := hfront w hw
      rcases List.mem_append.mp hc with hc | hc
      · exact isNameCharacter_of_isAlphanumeric (isAlphanumeric_of_isOfKind (hk.2 c hc))
      · rw [List.mem_singleton.mp hc]
        decide
    · exact hname c hc
  have hkept : ∀ w ∈ front ++ pieces, (!w.isEmpty) = true := by
    intro w hw
    have hne : w ≠ [] := by
      rcases List.mem_append.mp hw with hw | hw
      · obtain ⟨k, hk⟩ := hfront w hw
        exact hk.1
      · exact hpieces w hw
    simpa using hne
  rw [words, clusters_of_other hother, wordsFrom_joined hfront hlast (.inl rfl),
    List.filter_eq_self.mpr hkept]

/-! ## Telling words apart -/

/-- What becomes of the first character of a word in camel case. -/
theorem toUpper_of_isOfKind {k : Bool} (h : isOfKind k c = true) :
    Text.upperForm c = [c.toUpper] ∧ c.toLower = c ∧ c.toUpper.toLower = c ∧
      isDecimal c.toUpper = k ∧ isSmall c.toUpper = false := by
  have hall : ∀ n < 128, ∀ k, isOfKind k (Char.ofNat n) = true →
      Text.upperForm (Char.ofNat n) = [(Char.ofNat n).toUpper] ∧
        (Char.ofNat n).toLower = Char.ofNat n ∧
        (Char.ofNat n).toUpper.toLower = Char.ofNat n ∧
        isDecimal (Char.ofNat n).toUpper = k ∧ isSmall (Char.ofNat n).toUpper = false := by
    decide
  have hascii : c.toNat < 128 := isAscii_of_isNameCharacter
    (isNameCharacter_of_isAlphanumeric (isAlphanumeric_of_isOfKind h))
  have hc := hall c.toNat hascii k
  rw [Char.ofNat_toNat] at hc
  exact hc h

theorem toLower_of_isOfKind {k : Bool} (h : ∀ c ∈ w, isOfKind k c = true) :
    Text.toLower w = w := by
  have hascii : ∀ c ∈ w, c.toNat < 128 := fun c hc ↦ isAscii_of_isNameCharacter
    (isNameCharacter_of_isAlphanumeric (isAlphanumeric_of_isOfKind (h c hc)))
  have hsame : ∀ c ∈ w, c.toLower = id c := fun c hc ↦ (toUpper_of_isOfKind (h c hc)).2.1
  rw [Text.toLower, lowerAfter_of_ascii hascii, List.map_congr_left hsame, List.map_id]

theorem map_toLower_of_worded (h : Worded ws) : ws.map Text.toLower = ws := by
  refine (List.map_congr_left fun w hw ↦ ?_).trans (List.map_id _)
  obtain ⟨k, hk⟩ := h.words w hw
  exact toLower_of_isOfKind hk.2

theorem capitalize_of_isWord {k : Bool} (h : IsWord k (c :: cs)) :
    capitalize (c :: cs) = c.toUpper :: cs := by
  obtain ⟨hc, hcs⟩ := List.forall_mem_cons.mp h.2
  rw [capitalize, (toUpper_of_isOfKind hc).1, toLower_of_isOfKind hcs, List.singleton_append]

/-- The first word of a text in camel case, in lower case. -/
def firstWord : List Char → List Char
  | [] => []
  | c :: cs => c.toLower :: cs.takeWhile (isOfKind (isDecimal c))

/-- What follows a word in camel case does not go on it. -/
theorem takeWhile_flatMap_capitalize {k : Bool} (hw : IsWord k w) (h : Worded (w :: ws)) :
    (ws.flatMap capitalize).takeWhile (isOfKind k) = [] := by
  cases ws with
  | nil => rfl
  | cons v ws =>
      obtain ⟨k', hv⟩ := h.tail.words v List.mem_cons_self
      cases v with
      | nil => exact absurd rfl hv.1
      | cons d ds =>
          obtain ⟨-, -, -, hdecimal, hsmall⟩ := toUpper_of_isOfKind (hv.2 d List.mem_cons_self)
          have hstops : isOfKind k d.toUpper = false := by
            cases k
            · exact hsmall
            · -- after digits there are letters
              have hnext : k' = false := by
                by_contra hnumbered
                rw [Bool.not_eq_false] at hnumbered
                exact (List.isChain_cons_cons.mp h.apart).1 ⟨hw, hnumbered ▸ hv⟩
              exact hdecimal.trans hnext
          rw [List.flatMap_cons, capitalize_of_isWord hv, List.cons_append, List.takeWhile_cons,
            hstops, if_neg Bool.false_ne_true]

/-- The first word is told by the text, whether or not it is written with a capital. -/
theorem firstWord_append (h : Worded ((c :: cs) :: ws)) (hb : b = c ∨ b = c.toUpper) :
    firstWord (b :: (cs ++ ws.flatMap capitalize)) = c :: cs := by
  obtain ⟨k, hw⟩ := h.words _ List.mem_cons_self
  obtain ⟨hc, hcs⟩ := List.forall_mem_cons.mp hw.2
  obtain ⟨-, hlower, hupper, hdecimal, -⟩ := toUpper_of_isOfKind hc
  have hfirst : b.toLower = c ∧ isDecimal b = k := by
    rcases hb with rfl | rfl
    · exact ⟨hlower, isDecimal_of_isOfKind hc⟩
    · exact ⟨hupper, hdecimal⟩
  rw [firstWord, hfirst.1, hfirst.2, List.takeWhile_append_of_pos hcs,
    takeWhile_flatMap_capitalize hw h, List.append_nil]

theorem words_eq_of_text_eq {b' c' : Char} {cs' : List Char} (hvs : Worded ((c :: cs) :: vs))
    (hws : Worded ((c' :: cs') :: ws)) (hb : b = c ∨ b = c.toUpper)
    (hb' : b' = c' ∨ b' = c'.toUpper)
    (h : b :: (cs ++ vs.flatMap capitalize) = b' :: (cs' ++ ws.flatMap capitalize)) :
    c :: cs = c' :: cs' ∧ vs.flatMap capitalize = ws.flatMap capitalize := by
  have hfirst : c :: cs = c' :: cs' := by
    rw [← firstWord_append hvs hb, h, firstWord_append hws hb']
  obtain ⟨-, rfl⟩ := List.cons.inj hfirst
  exact ⟨hfirst, List.append_cancel_left (List.cons.inj h).2⟩

/-- Words can be told from their text with capitals in front. -/
theorem flatMap_capitalize_inj (hvs : Worded vs) (hws : Worded ws)
    (h : vs.flatMap capitalize = ws.flatMap capitalize) : vs = ws := by
  have hcons : ∀ {w ws}, Worded (w :: ws) → ∃ c cs, w = c :: cs ∧
      (w :: ws).flatMap capitalize = c.toUpper :: (cs ++ ws.flatMap capitalize) := by
    intro w ws h
    obtain ⟨k, hw⟩ := h.words w List.mem_cons_self
    obtain ⟨c, cs, rfl⟩ := List.exists_cons_of_ne_nil hw.1
    exact ⟨c, cs, rfl, by rw [List.flatMap_cons, capitalize_of_isWord hw, List.cons_append]⟩
  induction vs generalizing ws with
  | nil =>
      cases ws with
      | nil => rfl
      | cons w ws =>
          obtain ⟨c, cs, -, heq⟩ := hcons hws
          rw [heq] at h
          cases h
  | cons v vs ih =>
      obtain ⟨c, cs, rfl, heq⟩ := hcons hvs
      cases ws with
      | nil =>
          rw [heq] at h
          cases h
      | cons w ws =>
          obtain ⟨c', cs', rfl, heq'⟩ := hcons hws
          rw [heq, heq'] at h
          obtain ⟨hfirst, hrest⟩ := words_eq_of_text_eq hvs hws (.inr rfl) (.inr rfl) h
          rw [hfirst, ih hvs.tail hws.tail hrest]

variable {s t : String} (hs : Worded (words s.toList)) (ht : Worded (words t.toList))
  (hsne : words s.toList ≠ []) (htne : words t.toList ≠ [])

include hs ht hsne htne

/-- Camel case tells names with different words apart. -/
theorem words_eq_of_camel_eq (h : camel s = camel t) : words s.toList = words t.toList := by
  have hcamel : ∀ {s : String}, Worded (words s.toList) → words s.toList ≠ [] →
      ∃ c cs ws, words s.toList = (c :: cs) :: ws ∧
        camel s = String.ofList (c :: (cs ++ ws.flatMap capitalize)) := by
    intro s hs hne
    obtain ⟨w, ws, heq⟩ := List.exists_cons_of_ne_nil hne
    rw [heq] at hs
    obtain ⟨k, hw⟩ := hs.words w List.mem_cons_self
    obtain ⟨c, cs, rfl⟩ := List.exists_cons_of_ne_nil hw.1
    refine ⟨c, cs, ws, heq, ?_⟩
    simp only [camel, heq, toLower_of_isOfKind hw.2, List.cons_append]
  obtain ⟨c, cs, vs, heq, hcs⟩ := hcamel hs hsne
  obtain ⟨c', cs', ws, heq', hct⟩ := hcamel ht htne
  rw [hcs, hct] at h
  rw [heq] at hs ⊢
  rw [heq'] at ht ⊢
  obtain ⟨hfirst, hrest⟩ := words_eq_of_text_eq hs ht (.inl rfl) (.inl rfl)
    (String.ofList_injective h)
  rw [hfirst, flatMap_capitalize_inj hs.tail ht.tail hrest]

/-- Hyphens tell names with different words apart. -/
theorem words_eq_of_kebab_eq (h : kebab s = kebab t) : words s.toList = words t.toList := by
  have hkebab : ∀ {s : String}, Worded (words s.toList) → words s.toList ≠ [] →
      Text.splitOn '-' (kebab s).toList = words s.toList := by
    intro s hs hne
    rw [kebab, String.toList_ofList, joinLower, map_toLower_of_worded hs]
    refine Text.splitOn_intercalate hne fun w hw hmem ↦ ?_
    exact absurd (hs.isAlphanumeric hw '-' hmem) (by decide)
  rw [← hkebab hs hsne, h, hkebab ht htne]

end Scaffold.Naming

import Scaffold.Proofs.Version
import Scaffold.Template.Registry

/-!
# Selecting templates

A reference is a name, or a name and a version behind the first `@`.  A template suits it if it has
the name and can stand in for the version.  What is selected is the newest of the templates that
suit, and of equally new ones the last; where none suits, or where there is no version behind the
`@`, nothing is.
-/

namespace Scaffold

/-! ## White space around a text -/

namespace Text

variable {cs : List Char}

theorem trimChars_eq_self (hfirst : ∀ c ∈ cs.head?, isBlank c = false)
    (hlast : ∀ c ∈ cs.getLast?, isBlank c = false) : trimChars cs = cs := by
  have hdrop : ∀ {ds : List Char}, (∀ c ∈ ds.head?, isBlank c = false) →
      ds.dropWhile isBlank = ds := by
    intro ds hds
    cases ds with
    | nil => rfl
    | cons d ds => rw [List.dropWhile_cons, hds d rfl, if_neg Bool.false_ne_true]
  rw [trimChars, hdrop hfirst, hdrop (by rwa [List.head?_reverse]), List.reverse_reverse]

/-- A text without white space at its ends starts with a character that is none. -/
theorem isBlank_of_trimChars_eq_self (h : trimChars cs = cs) :
    ∀ c ∈ cs.head?, isBlank c = false := by
  cases cs with
  | nil => simp
  | cons d ds =>
      rintro c hc
      obtain rfl : d = c := by simpa using hc
      by_contra hblank
      rw [Bool.not_eq_false] at hblank
      -- without its first character the text is shorter
      have hlength := congrArg List.length h
      rw [trimChars, List.dropWhile_cons, if_pos hblank, List.length_reverse,
        List.length_cons] at hlength
      have hend := ((ds.dropWhile isBlank).reverse.dropWhile_sublist isBlank).length_le
      have hstart := (ds.dropWhile_sublist isBlank).length_le
      rw [List.length_reverse] at hend
      omega

end Text

/-! ## Reading references -/

namespace TemplateReference

variable {text name version : String} {wanted : TemplateReference}

/-- What the text of a reference asks for. -/
inductive Asks (text : String) : TemplateReference → Prop
  | bare (hbare : '@' ∉ text.toList) : Asks text ⟨text, none⟩
  | versioned {name version : String} {v : Version} (htext : text = name ++ "@" ++ version)
      (hname : '@' ∉ name.toList) (hversion : Version.parse version = .ok v) :
      Asks text ⟨name, some v⟩

theorem parse_of_notMem (h : '@' ∉ text.toList) : parse text = .ok ⟨text, none⟩ := by
  have hgo : ∀ c ∈ text.toList, decide (c ≠ '@') = true := by
    intro c hc
    rw [decide_eq_true_eq]
    rintro rfl
    exact h hc
  simp only [parse, List.dropWhile_eq_nil_iff.mpr hgo, List.takeWhile_eq_self_iff.mpr hgo,
    String.ofList_toList]

/-- A reference is read as the name in front of the mark and the version behind it. -/
theorem parse_append (h : '@' ∉ name.toList) (version : String) :
    parse (name ++ "@" ++ version) =
      (Version.parse version).map fun v ↦ ⟨name, some v⟩ := by
  have hgo : ∀ c ∈ name.toList, decide (c ≠ '@') = true := by
    intro c hc
    rw [decide_eq_true_eq]
    rintro rfl
    exact h hc
  have hsplit : (name ++ "@" ++ version).toList = name.toList ++ '@' :: version.toList := by simp
  have hfront : (name.toList ++ '@' :: version.toList).takeWhile (· ≠ '@') = name.toList := by
    rw [List.takeWhile_append_of_pos hgo]
    simp
  have hback : (name.toList ++ '@' :: version.toList).dropWhile (· ≠ '@') =
      '@' :: version.toList := by
    rw [List.dropWhile_append_of_pos hgo]
    simp
  simp only [parse, hsplit, hfront, hback, String.ofList_toList]

theorem eq_append_of_mem (h : '@' ∈ text.toList) :
    ∃ name version : String, text = name ++ "@" ++ version ∧ '@' ∉ name.toList := by
  obtain ⟨front, back, heq, hfront⟩ := List.eq_append_cons_of_mem h
  refine ⟨String.ofList front, String.ofList back, ?_, by rwa [String.toList_ofList]⟩
  rw [← String.toList_inj, heq]
  simp

/-- A reference is read as what it asks for. -/
theorem parse_eq_ok_iff : parse text = .ok wanted ↔ Asks text wanted := by
  constructor
  · intro hparse
    by_cases hmem : '@' ∈ text.toList
    · obtain ⟨name, version, rfl, hname⟩ := eq_append_of_mem hmem
      rw [parse_append hname] at hparse
      cases hversion : Version.parse version with
      | error e =>
          rw [hversion] at hparse
          cases hparse
      | ok v =>
          rw [hversion] at hparse
          cases hparse
          exact .versioned rfl hname hversion
    · rw [parse_of_notMem hmem] at hparse
      cases hparse
      exact .bare hmem
  · rintro (hbare | ⟨rfl, hname, hversion⟩)
    · exact parse_of_notMem hbare
    · rw [parse_append hname, hversion]
      rfl

end TemplateReference

/-! ## The newest template -/

/-- Whether a template has the name that a reference asks for, and a version that can stand in for
the one it asks for. -/
structure Template.Suits (t : Template) (wanted : TemplateReference) : Prop where
  name : t.name = wanted.name
  version : ∀ v ∈ wanted.version, t.version.major = v.major ∧ v ≤ t.version

theorem TemplateReference.accepts_iff {wanted : TemplateReference} {t : Template} :
    wanted.accepts t = true ↔ t.Suits wanted := by
  have hversion : wanted.version.all t.version.isCompatible = true ↔
      ∀ v ∈ wanted.version, t.version.major = v.major ∧ v ≤ t.version := by
    cases wanted.version <;> simp [Version.isCompatible_iff]
  rw [accepts, Bool.and_eq_true, beq_iff_eq, hversion]
  exact ⟨fun h ↦ ⟨h.1, h.2⟩, fun h ↦ ⟨h.name, h.version⟩⟩

namespace Registry

variable {r : Registry} {reference : Option String} {wanted : TemplateReference} {t : Template}
  {templates : List Template}

theorem newest?_concat (templates : List Template) (t : Template) :
    newest? (templates ++ [t]) = later (newest? templates) t := by
  rw [newest?, List.foldl_append]
  rfl

theorem later_some (b t : Template) :
    later (some b) t = if t.version < b.version then some b else some t := by
  simp only [later, Version.compare_eq_lt_iff]

theorem newest?_eq_none_iff : newest? templates = none ↔ templates = [] := by
  rcases List.eq_nil_or_concat' templates with rfl | ⟨front, last, rfl⟩
  · exact iff_of_true rfl rfl
  · refine iff_of_false ?_ (by simp)
    rw [newest?_concat]
    cases newest? front with
    | none => exact Option.some_ne_none last
    | some b =>
        rw [later_some]
        split <;> exact Option.some_ne_none _

/-- Behind the newest template there are only older ones, and none in front of it is newer. -/
theorem eq_append_of_newest? (h : newest? templates = some t) :
    ∃ before after, templates = before ++ t :: after ∧
      (∀ u ∈ before, u.version ≤ t.version) ∧ ∀ u ∈ after, u.version < t.version := by
  induction templates using List.reverseRecOn generalizing t with
  | nil => cases h
  | append_singleton front last ih =>
      rw [newest?_concat] at h
      cases hfront : newest? front with
      | none =>
          rw [hfront] at h
          cases h
          obtain rfl := newest?_eq_none_iff.mp hfront
          exact ⟨[], [], rfl, by simp, by simp⟩
      | some b =>
          obtain ⟨before, after, rfl, hbefore, hafter⟩ := ih hfront
          rw [hfront, later_some] at h
          split at h
          · next holder =>
              cases h
              refine ⟨before, after ++ [last], by simp, hbefore, ?_⟩
              exact List.forall_mem_append.mpr ⟨hafter, List.forall_mem_singleton.mpr holder⟩
          · next hnewer =>
              cases h
              rw [not_lt] at hnewer
              refine ⟨before ++ b :: after, [], rfl, ?_, by simp⟩
              refine List.forall_mem_append.mpr ⟨fun u hu ↦ (hbefore u hu).trans hnewer, ?_⟩
              exact List.forall_mem_cons.mpr ⟨hnewer, fun u hu ↦ (hafter u hu).le.trans hnewer⟩

/-! ## Selection -/

/-- The text of a reference, without the white space around it. -/
def asked (reference : Option String) : String := Text.trim (reference.getD defaultReference)

/-- Whether a template is the one to select: it suits, no other one that suits is newer, and those
behind it that suit are older. -/
structure Selects (r : Registry) (wanted : TemplateReference) (t : Template) : Prop where
  suits : t.Suits wanted
  newest : ∃ before after, r.templates = before ++ t :: after ∧
    (∀ u ∈ before, u.Suits wanted → u.version ≤ t.version) ∧
    ∀ u ∈ after, u.Suits wanted → u.version < t.version

theorem selects_of_newest? (h : newest? (r.templates.filter wanted.accepts) = some t) :
    r.Selects wanted t := by
  obtain ⟨before, after, heq, hbefore, hafter⟩ := eq_append_of_newest? h
  obtain ⟨front, rest, htemplates, rfl, hrest⟩ := List.filter_eq_append_iff.mp heq
  obtain ⟨skipped, back, rfl, hskipped, ht, rfl⟩ := List.filter_eq_cons_iff.mp hrest
  refine ⟨TemplateReference.accepts_iff.mp ht, front ++ skipped, back, by simp [htemplates], ?_,
    fun u hu hsuits ↦ ?_⟩
  · refine List.forall_mem_append.mpr ⟨fun u hu hsuits ↦ ?_, fun u hu hsuits ↦ ?_⟩
    · exact hbefore u (List.mem_filter.mpr ⟨hu, TemplateReference.accepts_iff.mpr hsuits⟩)
    · exact absurd (TemplateReference.accepts_iff.mpr hsuits) (hskipped u hu)
  · exact hafter u (List.mem_filter.mpr ⟨hu, TemplateReference.accepts_iff.mpr hsuits⟩)

theorem select_of_error {e : VersionError}
    (h : TemplateReference.parse (asked reference) = .error e) :
    r.select reference = .error (.badVersion (asked reference) e) := by
  rw [asked] at h
  simp only [select, h, asked]

/-- Selection among the templates that suit what is asked for. -/
theorem select_of_asks (h : TemplateReference.Asks (asked reference) wanted) :
    (∃ t, r.select reference = .ok t ∧ r.Selects wanted t) ∨
      r.select reference = .error (.notFound (asked reference) r.names) ∧
        ∀ t ∈ r.templates, ¬ t.Suits wanted := by
  rw [← TemplateReference.parse_eq_ok_iff, asked] at h
  cases hnewest : newest? (r.templates.filter wanted.accepts) with
  | some t => exact .inl ⟨t, by simp only [select, h, hnewest], selects_of_newest? hnewest⟩
  | none =>
      refine .inr ⟨by simp only [select, h, hnewest, asked], fun t ht hsuits ↦ ?_⟩
      have hnone := newest?_eq_none_iff.mp hnewest
      exact List.filter_eq_nil_iff.mp hnone t ht (TemplateReference.accepts_iff.mpr hsuits)

/-! ## The references of registered templates -/

/-- There is no white space in the text of a version. -/
theorem isBlank_of_mem_toText {v : Version} {c : Char} (h : c ∈ v.toText.toList) :
    Text.isBlank c = false := by
  have hdigit : ∀ {n : Nat}, c ∈ Nat.toDigits 10 n → Text.isBlank c = false := by
    intro n hc
    have hbounds := Version.isDigit_of_mem_toDigits hc
    simp only [Version.isDigit, Bool.and_eq_true, decide_eq_true_eq, Char.le_def,
      UInt32.le_iff_toNat_le, Char.toNat_val] at hbounds
    have hall : ∀ k < 58, 48 ≤ k → Text.isBlank (Char.ofNat k) = false := by decide
    have hc := hall c.toNat (Nat.lt_succ_of_le hbounds.2) hbounds.1
    rwa [Char.ofNat_toNat] at hc
  rw [Version.toList_toText] at h
  simp only [List.intercalate_cons_cons, List.intercalate_singleton, List.mem_append,
    List.mem_singleton] at h
  rcases h with (h | rfl) | (h | rfl) | h
  · exact hdigit h
  · decide
  · exact hdigit h
  · decide
  · exact hdigit h

/-- The reference of a template asks for its name and its version. -/
theorem asks_reference (hname : '@' ∉ t.name.toList) (htrimmed : Text.trim t.name = t.name) :
    TemplateReference.Asks (asked (some t.reference)) ⟨t.name, some t.version⟩ := by
  have hreference : t.reference = t.name ++ "@" ++ t.version.toText := rfl
  have htext : t.reference.toList = t.name.toList ++ '@' :: t.version.toText.toList := by
    rw [hreference]
    simp
  have hstart := Text.isBlank_of_trimChars_eq_self (String.ofList_injective
    (htrimmed.trans String.ofList_toList.symm))
  have hself : asked (some t.reference) = t.reference := by
    rw [asked, Option.getD_some, Text.trim, Text.trimChars_eq_self, String.ofList_toList]
    · intro c hc
      rw [htext] at hc
      cases hcs : t.name.toList with
      | nil =>
          rw [hcs] at hc
          cases hc
          decide
      | cons d ds =>
          rw [hcs] at hc hstart
          exact hstart c hc
    · intro c hc
      rw [htext, List.getLast?_append_of_ne_nil _ (by simp)] at hc
      rcases List.mem_cons.mp (List.mem_of_getLast? hc) with rfl | hc
      · decide
      · exact isBlank_of_mem_toText hc
  rw [hself]
  exact .versioned hreference hname t.version.parse_toText

/-! ## What is selected -/

theorem Selects.mem (h : r.Selects wanted t) : t ∈ r.templates := by
  obtain ⟨before, after, htemplates, -⟩ := h.newest
  rw [htemplates]
  exact List.mem_append_right _ List.mem_cons_self

theorem select_of_badVersion {name version : String}
    (htext : asked reference = name ++ "@" ++ version) (hname : '@' ∉ name.toList)
    (hversion : ∀ v, Version.parse version ≠ .ok v) :
    ∃ e, r.select reference = .error (.badVersion (asked reference) e) := by
  have hparse := TemplateReference.parse_append hname version
  rw [← htext] at hparse
  cases hread : Version.parse version with
  | ok v => exact absurd hread (hversion v)
  | error e =>
      rw [hread] at hparse
      exact ⟨e, select_of_error hparse⟩

/-- What is selected is the newest of the templates that are asked for. -/
theorem selects_of_select (h : r.select reference = .ok t) :
    ∃ wanted, TemplateReference.Asks (asked reference) wanted ∧ r.Selects wanted t := by
  cases hparse : TemplateReference.parse (asked reference) with
  | error e =>
      rw [select_of_error hparse] at h
      cases h
  | ok wanted =>
      have hasks := TemplateReference.parse_eq_ok_iff.mp hparse
      refine ⟨wanted, hasks, ?_⟩
      rcases @select_of_asks r _ _ hasks with ⟨u, hu, hselects⟩ | ⟨hnone, -⟩
      · rw [h] at hu
        cases hu
        exact hselects
      · rw [h] at hnone
        cases hnone

/-- Where a template suits, one is selected. -/
theorem exists_select_of_suits (hasks : TemplateReference.Asks (asked reference) wanted)
    (ht : t ∈ r.templates) (hsuits : t.Suits wanted) :
    ∃ u, r.select reference = .ok u ∧ r.Selects wanted u :=
  (select_of_asks hasks).resolve_right fun hnone ↦ hnone.2 t ht hsuits

/-- Selection fails where there is no version behind the `@`.  Otherwise it succeeds exactly if a
template suits, and then with the newest one, the last of equals.  So every template is found under
its own reference, or one that can stand in for it. -/
theorem select_exact (r : Registry) (reference : Option String) :
    (∀ name version : String, asked reference = name ++ "@" ++ version → '@' ∉ name.toList →
      (∀ v, Version.parse version ≠ .ok v) →
        ∃ e, r.select reference = .error (.badVersion (asked reference) e)) ∧
    ((∃ t, r.select reference = .ok t) ↔
      ∃ wanted, TemplateReference.Asks (asked reference) wanted ∧
        ∃ t ∈ r.templates, t.Suits wanted) ∧
    (∀ t, r.select reference = .ok t →
      ∃ wanted, TemplateReference.Asks (asked reference) wanted ∧ r.Selects wanted t) ∧
    ∀ t ∈ r.templates, '@' ∉ t.name.toList → Text.trim t.name = t.name →
      ∃ u, r.select (some t.reference) = .ok u ∧ r.Selects ⟨t.name, some t.version⟩ u := by
  refine ⟨fun _ _ ↦ select_of_badVersion, ⟨?_, ?_⟩, fun _ ↦ selects_of_select, ?_⟩
  · rintro ⟨t, ht⟩
    obtain ⟨wanted, hasks, hselects⟩ := selects_of_select ht
    exact ⟨wanted, hasks, t, hselects.mem, hselects.suits⟩
  · rintro ⟨wanted, hasks, t, ht, hsuits⟩
    obtain ⟨u, hu, -⟩ := exists_select_of_suits hasks ht hsuits
    exact ⟨u, hu⟩
  · intro t ht hname htrimmed
    refine exists_select_of_suits (asks_reference hname htrimmed) ht ⟨rfl, ?_⟩
    rintro v hv
    cases hv
    exact ⟨rfl, le_rfl⟩

def edition (version : Version) : Template := ⟨"basic", version, fun _ ↦ .ok []⟩

def editions : Registry :=
  ⟨[edition (.of 1 2 0), edition (.of 1 4 1), edition (.of 1 4 1), edition (.of 2 0 0)]⟩

theorem select_exact_editions :
    (∃ e, editions.select (some "basic@one") = .error (.badVersion "basic@one" e)) ∧
      (∃ wanted t, editions.select (some " basic@1.3.0") = .ok t ∧ editions.Selects wanted t) ∧
      ∃ u, editions.select (some "basic@1.2.0") = .ok u ∧
        editions.Selects ⟨"basic", some (.of 1 2 0)⟩ u := by
  obtain ⟨hbad, -⟩ := select_exact editions (some "basic@one")
  obtain ⟨-, hfound, hselects, -⟩ := select_exact editions (some " basic@1.3.0")
  obtain ⟨-, -, -, hown⟩ := select_exact editions none
  have hasked : asked (some "basic@one") = "basic@one" := by decide +kernel
  have hversion : Version.parse "one" = .error (.wrongParts "one") := rfl
  have hasks : TemplateReference.Asks (asked (some " basic@1.3.0")) ⟨"basic", some (.of 1 3 0)⟩ :=
    TemplateReference.parse_eq_ok_iff.mp rfl
  have hsuits : (edition (.of 1 4 1)).Suits ⟨"basic", some (.of 1 3 0)⟩ :=
    TemplateReference.accepts_iff.mp rfl
  rw [hasked] at hbad
  refine ⟨hbad "basic" "one" rfl (by decide) (by simp [hversion]), ?_, ?_⟩
  · obtain ⟨t, ht⟩ := hfound.mpr ⟨_, hasks, _, by simp [editions], hsuits⟩
    obtain ⟨wanted, -, hwanted⟩ := hselects t ht
    exact ⟨wanted, t, ht, hwanted⟩
  · exact hown (edition (.of 1 2 0)) List.mem_cons_self (by decide) rfl

end Registry

end Scaffold

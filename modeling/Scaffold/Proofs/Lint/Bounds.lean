import Scaffold.Proofs.Lint.Fields
import Scaffold.Proofs.Manifest.Survival

/-!
# Bounds of fields

Every bound of a valid field can be one: it is finite and, on a text, a length.  Of the lower bounds
only the first is compared with an upper one, and only with the first of those.  So the bounds are
free of contradictions where the first lower bound is the greatest and the first upper bound the
least, as it is where there is one of each, and a later bound may contradict the others unnoticed.
-/

namespace Scaffold

/-! ## The order of bounds -/

namespace Double

def AtMost (x y : Double) : Prop := x.lt y = true ∨ (x == y) = true

instance decidableAtMost (x y : Double) : Decidable (x.AtMost y) :=
  inferInstanceAs (Decidable (_ ∨ _))

theorem exists_finite {x : Double} (h : x.isFinite = true) : ∃ s m e, x = .finite s m e := by
  cases x with
  | finite s m e => exact ⟨s, m, e, rfl⟩
  | nan | infinite => cases h

theorem atMost_finite_iff (s t : Bool) (m k : Nat) (e f : Int) :
    AtMost (.finite s m e) (.finite t k f) ↔ units s m e ≤ units t k f := by
  change (some (compare _ _) == some .lt) = true ∨ (some (compare _ _) == some .eq) = true ↔ _
  rw [beq_iff_eq, beq_iff_eq, Option.some_inj, Option.some_inj, compare_lt_iff_lt,
    compare_eq_iff_eq, le_iff_lt_or_eq]

theorem atMost_iff_gt_eq_false {x y : Double} (hx : x.isFinite = true) (hy : y.isFinite = true) :
    x.AtMost y ↔ x.gt y = false := by
  obtain ⟨s, m, e, rfl⟩ := exists_finite hx
  obtain ⟨t, k, f, rfl⟩ := exists_finite hy
  have hgt : (Double.finite s m e).gt (.finite t k f) = true ↔ units t k f < units s m e := by
    change (some (compare _ _) == some .gt) = true ↔ _
    rw [beq_iff_eq, Option.some_inj, compare_gt_iff_gt]
  rw [atMost_finite_iff, ← Bool.not_eq_true, hgt, not_lt]

theorem atMost_iff_lt_eq_false {x y : Double} (hx : x.isFinite = true) (hy : y.isFinite = true) :
    x.AtMost y ↔ y.lt x = false := by
  obtain ⟨s, m, e, rfl⟩ := exists_finite hx
  obtain ⟨t, k, f, rfl⟩ := exists_finite hy
  have hlt : (Double.finite t k f).lt (.finite s m e) = true ↔ units t k f < units s m e := by
    change (some (compare _ _) == some .lt) = true ↔ _
    rw [beq_iff_eq, Option.some_inj, compare_lt_iff_lt]
  rw [atMost_finite_iff, ← Bool.not_eq_true, hlt, not_lt]

theorem AtMost.trans {x y z : Double} (hxy : x.AtMost y) (hx : x.isFinite = true)
    (hy : y.isFinite = true) (hz : z.isFinite = true) (hyz : y.AtMost z) : x.AtMost z := by
  obtain ⟨s, m, e, rfl⟩ := exists_finite hx
  obtain ⟨t, k, f, rfl⟩ := exists_finite hy
  obtain ⟨u, l, g, rfl⟩ := exists_finite hz
  rw [atMost_finite_iff] at hxy hyz ⊢
  exact hxy.trans hyz

end Double

/-! ## The bounds of a field -/

namespace Rule

def lower? : Rule → Option Double
  | .min bound => some bound
  | _ => none

def upper? : Rule → Option Double
  | .max bound => some bound
  | _ => none

end Rule

namespace Field

def lowerBounds (f : Field) : List Double := f.rules.filterMap Rule.lower?

def upperBounds (f : Field) : List Double := f.rules.filterMap Rule.upper?

/-- Whether no lower bound contradicts an upper one. -/
def BoundsAgree (f : Field) : Prop :=
  ∀ low ∈ f.lowerBounds, ∀ high ∈ f.upperBounds, low.AtMost high

/-- Whether a number can be a bound of the field, as a value or as a length. -/
def CanBound (f : Field) (x : Double) : Prop :=
  x.isFinite = true ∧ (f.kind = .number ∨
    f.kind = .text ∧ Double.zero.AtMost x ∧ x.isWhole = true)

end Field

namespace Lint

variable {place : FieldPlace} {f : Field}

/-- A bound at which nothing is found is looked at, and can be one. -/
theorem canBound_of_rule [Pattern.Checker] {r : Rule} {bound : Double} {i : Nat}
    (hr : r = .min bound ∨ r = .max bound) (h : rule place f.kind r i = []) :
    (isApplicable f.kind r && isBound f.kind bound) = true ∧ f.CanBound bound := by
  have hlegal : isApplicable f.kind r = true := by
    by_contra hillegal
    unfold rule at h
    rw [if_pos (by simpa using hillegal)] at h
    cases h
  have hbound : isBound f.kind bound = true := by
    by_contra hunbound
    rcases hr with rfl | rfl <;> simp [rule, hlegal, hunbound] at h
  have hkind : f.kind = .text ∨ f.kind = .number := by
    rcases hr with rfl | rfl <;> simpa [isApplicable] using hlegal
  refine ⟨by rw [hlegal, hbound]; rfl, ?_⟩
  obtain ⟨hfinite, hlength⟩ := Bool.and_eq_true_iff.mp hbound
  refine ⟨hfinite, ?_⟩
  rcases hkind with hkind | hkind
  · have hlength : bound.lt Double.zero = false ∧ bound.isWhole = true := by
      simpa [hkind] using hlength
    exact .inr ⟨hkind, (Double.atMost_iff_lt_eq_false rfl hfinite).mpr hlength.1, hlength.2⟩
  · exact .inl hkind

theorem rule_of_rules [Pattern.Checker] (h : rules place f = []) {r : Rule} (hr : r ∈ f.rules) :
    ∃ i, rule place f.kind r i = [] := by
  obtain ⟨p, hp, rfl⟩ := List.mem_map.mp ((List.zipIdx_map_fst 0 f.rules).symm ▸ hr)
  exact ⟨p.2, List.flatMap_eq_nil_iff.mp (List.append_eq_nil_iff.mp h).1 p hp⟩

/-- Every bound of a field without findings can be a bound of its type. -/
theorem canBound_of_rules [Pattern.Checker] (h : rules place f = []) :
    ∀ bound ∈ f.lowerBounds ++ f.upperBounds, f.CanBound bound := by
  have hcan {r : Rule} {bound : Double} (hr : r ∈ f.rules)
      (hbound : r = .min bound ∨ r = .max bound) : f.CanBound bound := by
    obtain ⟨i, hrule⟩ := rule_of_rules h hr
    exact (canBound_of_rule hbound hrule).2
  intro bound hbound
  rcases List.mem_append.mp hbound with hlow | hhigh
  · obtain ⟨r, hr, hlow⟩ := List.mem_filterMap.mp hlow
    cases r <;> cases hlow
    exact hcan hr (.inl rfl)
  · obtain ⟨r, hr, hhigh⟩ := List.mem_filterMap.mp hhigh
    cases r <;> cases hhigh
    exact hcan hr (.inr rfl)

/-- Where nothing is found, the bounds that are compared are the first ones. -/
theorem firstMin?_eq_head? [Pattern.Checker] (h : rules place f = []) :
    firstMin? f.kind f.rules = f.lowerBounds.head? := by
  rw [firstMin?, ← List.head?_filterMap, Field.lowerBounds]
  refine congrArg List.head? (List.filterMap_congr fun r hr ↦ ?_)
  obtain ⟨i, hrule⟩ := rule_of_rules h hr
  cases r with
  | min bound => exact if_pos (canBound_of_rule (.inl rfl) hrule).1
  | email | url | regex | max | integer | positive => rfl

theorem firstMax?_eq_head? [Pattern.Checker] (h : rules place f = []) :
    firstMax? f.kind f.rules = f.upperBounds.head? := by
  rw [firstMax?, ← List.head?_filterMap, Field.upperBounds]
  refine congrArg List.head? (List.filterMap_congr fun r hr ↦ ?_)
  obtain ⟨i, hrule⟩ := rule_of_rules h hr
  cases r with
  | max bound => exact if_pos (canBound_of_rule (.inr rfl) hrule).1
  | email | url | regex | min | integer | positive => rfl

theorem atMost_of_rules [Pattern.Checker] (h : rules place f = []) :
    ∀ low ∈ f.lowerBounds.head?, ∀ high ∈ f.upperBounds.head?, low.AtMost high := by
  intro low hlow high hhigh
  have hcan := canBound_of_rules h
  have hcrossed := (List.append_eq_nil_iff.mp h).2
  simp only [crossedBounds, firstMin?_eq_head? h, firstMax?_eq_head? h, Option.mem_def.mp hlow,
    Option.mem_def.mp hhigh] at hcrossed
  have hlow := hcan low (List.mem_append_left _ (List.mem_of_mem_head? hlow))
  have hhigh := hcan high (List.mem_append_right _ (List.mem_of_mem_head? hhigh))
  rw [Double.atMost_iff_gt_eq_false hlow.1 hhigh.1]
  by_contra hgt
  simp [hgt] at hcrossed

theorem rules_of_valid [Pattern.Checker] {m : Manifest} (h : m.validate.valid = true)
    (hf : f ∈ m.everyField) :
    ∃ place, rules place f = [] := by
  obtain ⟨-, -, -, -, hfields⟩ := m.valid_iff.mp h
  have hmem : f.normalize ∈ m.normalize.placedFields.map PlacedField.field := by
    rw [m.normalize.map_field_placedFields, Manifest.everyField_normalize]
    exact List.mem_map_of_mem hf
  obtain ⟨p, hp, hfield⟩ := List.mem_map.mp hmem
  have hplaced := List.flatMap_eq_nil_iff.mp (fields_eq m.normalize ▸ hfields) p hp
  rw [placed, field, hfield] at hplaced
  simp only [List.append_eq_nil_iff] at hplaced
  exact ⟨p.place, hplaced.1.1.1⟩

end Lint

namespace Field

variable {f : Field}

/-- Bounds agree exactly if the first ones do and no later one contradicts an earlier one. -/
theorem boundsAgree_iff : f.BoundsAgree ↔
    (∀ low ∈ f.lowerBounds.head?, ∀ high ∈ f.upperBounds.head?, low.AtMost high) ∧
      (∀ low ∈ f.lowerBounds.tail, ∀ high ∈ f.upperBounds, low.AtMost high) ∧
        ∀ low ∈ f.lowerBounds.head?, ∀ high ∈ f.upperBounds.tail, low.AtMost high := by
  unfold BoundsAgree
  cases f.lowerBounds with
  | nil => simp
  | cons low lows =>
      cases f.upperBounds with
      | nil => simp
      | cons high highs =>
          simp only [List.forall_mem_cons, List.head?_cons, Option.mem_some, forall_eq',
            List.tail_cons]
          exact ⟨fun ⟨⟨hfirst, hhighs⟩, hlows⟩ ↦ ⟨hfirst, hlows, hhighs⟩,
            fun ⟨hfirst, hlows, hhighs⟩ ↦ ⟨⟨hfirst, hhighs⟩, hlows⟩⟩

/-- It is enough that the first bounds agree where no other is tighter than they are. -/
theorem boundsAgree_of_tightest (hcan : ∀ bound ∈ f.lowerBounds ++ f.upperBounds, f.CanBound bound)
    (hfirst : ∀ low ∈ f.lowerBounds.head?, ∀ high ∈ f.upperBounds.head?, low.AtMost high)
    (hlows : ∀ low ∈ f.lowerBounds, ∀ first ∈ f.lowerBounds.head?, low.AtMost first)
    (hhighs : ∀ high ∈ f.upperBounds, ∀ first ∈ f.upperBounds.head?, first.AtMost high) :
    f.BoundsAgree := by
  intro low hlow high hhigh
  have hleast := List.head?_eq_some_head (List.ne_nil_of_mem hlow)
  have hmost := List.head?_eq_some_head (List.ne_nil_of_mem hhigh)
  have hfinite {bound : Double} (h : bound ∈ f.lowerBounds ++ f.upperBounds) :
      bound.isFinite = true := (hcan bound h).1
  have hlow' := hfinite (List.mem_append_left _ hlow)
  have hhigh' := hfinite (List.mem_append_right _ hhigh)
  have hleast' := hfinite (List.mem_append_left _ (List.mem_of_mem_head? hleast))
  have hmost' := hfinite (List.mem_append_right _ (List.mem_of_mem_head? hmost))
  have hmiddle := (hlows low hlow _ hleast).trans hlow' hleast' hmost' (hfirst _ hleast _ hmost)
  exact hmiddle.trans hlow' hmost' hhigh' (hhighs high hhigh _ hmost)

end Field

/-- In a valid manifest every bound can be one, and the first lower bound of a field agrees with its
first upper bound.  Later bounds are not compared, so all of them agree exactly if these do, for
which it is enough that none is tighter than the first. -/
theorem Manifest.first_bounds_agree [Pattern.Checker] (m : Manifest) (h : m.validate.valid = true)
    (f : Field) (hf : f ∈ m.everyField) :
    (∀ bound ∈ f.lowerBounds ++ f.upperBounds, f.CanBound bound) ∧
      (∀ low ∈ f.lowerBounds.head?, ∀ high ∈ f.upperBounds.head?, low.AtMost high) ∧
      (f.BoundsAgree ↔
        (∀ low ∈ f.lowerBounds.tail, ∀ high ∈ f.upperBounds, low.AtMost high) ∧
          ∀ low ∈ f.lowerBounds.head?, ∀ high ∈ f.upperBounds.tail, low.AtMost high) ∧
      ((∀ low ∈ f.lowerBounds, ∀ first ∈ f.lowerBounds.head?, low.AtMost first) →
        (∀ high ∈ f.upperBounds, ∀ first ∈ f.upperBounds.head?, first.AtMost high) →
          f.BoundsAgree) := by
  obtain ⟨place, hrules⟩ := Lint.rules_of_valid h hf
  have hcan := Lint.canBound_of_rules hrules
  have hfirst := Lint.atMost_of_rules hrules
  refine ⟨hcan, hfirst, ?_, Field.boundsAgree_of_tightest hcan hfirst⟩
  rw [Field.boundsAgree_iff, and_iff_right hfirst]

/-- A document with one text, which has a lower bound among its validations and another one, with an
upper bound, as shorthands. -/
def boundedTitle (first later most : String) : String :=
  "\x7b\"database\": \x7b\"type\": \"sqlite\", \"file\": \"app.db\"\x7d, \"entities\": [\x7b" ++
    "\"name\": \"Post\", \"fields\": \x7b\"title\": \x7b\"type\": \"text\", \"validations\": [" ++
    "\x7b\"rule\": \"min\", \"value\": " ++ first ++ "\x7d], \"min\": " ++ later ++
    ", \"max\": " ++ most ++ "\x7d\x7d\x7d]\x7d"

theorem Manifest.first_bounds_agree_boundedTitle :
    ∃ m, Manifest.ofJson (boundedTitle "3" "1" "5") = .ok m ∧ m.validate.valid = true ∧
      ∃ f ∈ m.everyField, f.lowerBounds.length = 2 ∧ f.BoundsAgree := by
  have hread : (Manifest.ofJson (boundedTitle "3" "1" "5")).toOption.any (fun m ↦
      m.validate.valid && m.everyField.any fun f ↦ f.lowerBounds.length = 2 &&
        decide (∀ low ∈ f.lowerBounds, ∀ first ∈ f.lowerBounds.head?, low.AtMost first) &&
        decide (∀ high ∈ f.upperBounds, ∀ first ∈ f.upperBounds.head?, first.AtMost high)) =
      true := by
    decide +kernel
  obtain ⟨m, hm, htest⟩ := exists_ok_of_any hread
  simp only [Bool.and_eq_true, List.any_eq_true, decide_eq_true_eq] at htest
  obtain ⟨hvalid, f, hf, ⟨htwo, hlows⟩, hhighs⟩ := htest
  have hagree := (first_bounds_agree m hvalid f hf).2.2.2
  exact ⟨m, hm, hvalid, f, hf, htwo, hagree hlows hhighs⟩

/-- A lower bound above the upper one goes unnoticed behind a lower bound below it. -/
theorem Manifest.later_bound_disagrees :
    ∃ m, Manifest.ofJson (boundedTitle "1" "10" "5") = .ok m ∧ m.validate.valid = true ∧
      ∃ f ∈ m.everyField, f.kind = .text ∧ ¬ f.BoundsAgree := by
  have hread : (Manifest.ofJson (boundedTitle "1" "10" "5")).toOption.any (fun m ↦
      m.validate.valid && m.everyField.any fun f ↦ f.kind = .text &&
        decide (¬ ∀ low ∈ f.lowerBounds, ∀ high ∈ f.upperBounds, low.AtMost high)) = true := by
    decide +kernel
  obtain ⟨m, hm, htest⟩ := exists_ok_of_any hread
  simp only [Bool.and_eq_true, List.any_eq_true, decide_eq_true_eq] at htest
  obtain ⟨hvalid, f, hf, hkind, hdisagree⟩ := htest
  exact ⟨m, hm, hvalid, f, hf, hkind, hdisagree⟩

end Scaffold

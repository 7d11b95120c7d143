import Scaffold.Blueprint.Basic

/-!
# Equality of fields

Fields are compared by the values of their numbers: the two zeros are equal, and what is not a
number differs from itself.  So a field need not equal itself, but the comparison is still symmetric
and transitive, which is all that it takes to compare many fields by comparing each with the first.
-/

namespace Scaffold

/-! ## Parts that are compared -/

section

variable {α β : Type} [BEq α] [BEq β]

/-- What is compared by its parts is compared as the parts are. -/
theorem partialEquivBEq_of_parts [PartialEquivBEq β] (parts : α → β)
    (h : ∀ a b, (a == b) = (parts a == parts b)) : PartialEquivBEq α where
  symm {a b} hab := by
    rw [h] at hab ⊢
    exact BEq.symm hab
  trans {a b c} hab hbc := by
    rw [h] at hab hbc ⊢
    exact BEq.trans hab hbc

theorem beq_pair (a c : α) (b d : β) : ((a, b) == (c, d)) = (a == c && b == d) := rfl

theorem beq_cons_iff {a b : α} {as bs : List α} :
    (a :: as == b :: bs) = true ↔ (a == b) = true ∧ (as == bs) = true := by
  rw [List.cons_beq_cons, Bool.and_eq_true]

variable [PartialEquivBEq α] [PartialEquivBEq β]

instance partialEquivBEqProd : PartialEquivBEq (α × β) where
  symm {p q} h := by
    obtain ⟨hfst, hsnd⟩ := Bool.and_eq_true_iff.mp h
    exact Bool.and_eq_true_iff.mpr ⟨BEq.symm hfst, BEq.symm hsnd⟩
  trans {p q r} hpq hqr := by
    obtain ⟨hfst, hsnd⟩ := Bool.and_eq_true_iff.mp hpq
    obtain ⟨hfst', hsnd'⟩ := Bool.and_eq_true_iff.mp hqr
    exact Bool.and_eq_true_iff.mpr ⟨BEq.trans hfst hfst', BEq.trans hsnd hsnd'⟩

instance partialEquivBEqOption : PartialEquivBEq (Option α) where
  symm {x y} h := by
    cases x <;> cases y <;> simp_all [BEq.comm]
  trans {x y z} hxy hyz := by
    cases x <;> cases y <;> cases z <;> simp_all
    exact BEq.trans hxy hyz

instance partialEquivBEqList : PartialEquivBEq (List α) where
  symm {as bs} h := by
    induction as generalizing bs with
    | nil => cases bs <;> simp_all
    | cons a as ih =>
        cases bs with
        | nil => simp at h
        | cons b bs =>
            obtain ⟨hhead, htail⟩ := beq_cons_iff.mp h
            exact beq_cons_iff.mpr ⟨BEq.symm hhead, ih htail⟩
  trans {as bs cs} h h' := by
    induction as generalizing bs cs with
    | nil => cases bs <;> simp_all
    | cons a as ih =>
        cases bs with
        | nil => simp at h
        | cons b bs =>
            cases cs with
            | nil => simp at h'
            | cons c cs =>
                obtain ⟨hhead, htail⟩ := beq_cons_iff.mp h
                obtain ⟨hhead', htail'⟩ := beq_cons_iff.mp h'
                exact beq_cons_iff.mpr ⟨BEq.trans hhead hhead', ih htail htail'⟩

end

/-! ## Numbers -/

namespace Double

/-- What a number is compared by: the sign of an infinite one, and the units of a finite one. -/
def value? : Double → Option (Bool ⊕ Int)
  | .nan => none
  | .infinite negative => some (.inl negative)
  | .finite negative mantissa exponent => some (.inr (units negative mantissa exponent))

/-- Doubles are equal exactly if they have the same value, and none that is not a number has one. -/
theorem beq_iff (x y : Double) :
    (x == y) = true ↔ ∃ v, x.value? = some v ∧ y.value? = some v := by
  change (compare? x y == some .eq) = true ↔ _
  cases x with
  | nan => simp [compare?, value?]
  | infinite s => cases y <;> cases s <;> simp [compare?, value?]
  | finite s m e =>
      cases y with
      | nan => simp [compare?, value?]
      | infinite t => cases t <;> simp [compare?, value?]
      | finite t k f =>
          have hcompare : (compare? (.finite s m e) (.finite t k f) == some .eq) = true ↔
              units s m e = units t k f := by
            simp [compare?]
          rw [hcompare, eq_comm]
          simp [value?]

instance : PartialEquivBEq Double where
  symm {x y} h := by
    obtain ⟨v, hx, hy⟩ := (beq_iff x y).mp h
    exact (beq_iff y x).mpr ⟨v, hy, hx⟩
  trans {x y z} hxy hyz := by
    obtain ⟨v, hx, hy⟩ := (beq_iff x y).mp hxy
    obtain ⟨w, hy', hz⟩ := (beq_iff y z).mp hyz
    rw [hy, Option.some_inj] at hy'
    exact (beq_iff x z).mpr ⟨v, hx, hy' ▸ hz⟩

end Double

/-! ## Fields -/

def Rule.parts : Rule → String × Option String × Option Double
  | .regex pattern => ("regex", some pattern, none)
  | .min bound => ("min", none, some bound)
  | .max bound => ("max", none, some bound)
  | r => (r.name, none, none)

theorem Rule.beq_eq (r s : Rule) : (r == s) = (r.parts == s.parts) := by
  change instBEqRule.beq r s = _
  cases r <;> cases s <;> simp [instBEqRule.beq, parts, name, beq_pair]

instance : PartialEquivBEq Rule := partialEquivBEq_of_parts Rule.parts Rule.beq_eq

def Literal.parts : Literal → Option String × Option Int × Option Bool × Option Double
  | .text s => (some s, none, none, none)
  | .integer i => (none, some i, none, none)
  | .flag b => (none, none, some b, none)
  | .float x => (none, none, none, some x)

theorem Literal.beq_eq (l k : Literal) : (l == k) = (l.parts == k.parts) := by
  change instBEqLiteral.beq l k = _
  cases l <;> cases k <;> simp [instBEqLiteral.beq, parts, beq_pair]

instance : PartialEquivBEq Literal := partialEquivBEq_of_parts Literal.parts Literal.beq_eq

def Field.parts (f : Field) :
    FieldKind × Option Bool × Option Bool × Option Literal × List Rule :=
  (f.kind, f.required, f.unique, f.default, f.rules)

instance : PartialEquivBEq Field := partialEquivBEq_of_parts Field.parts fun _ _ ↦ rfl

end Scaffold

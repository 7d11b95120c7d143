import Scaffold.Number.Double
import Mathlib.Data.Nat.Log
import Mathlib.Tactic.Ring

/-!
# Rounding stays finite

Rounding a fraction gives infinity only if the fraction is about `2 ^ 1024` or more.  A mantissa
never exceeds `2 ^ 53`, so that a quotient of finite numbers is finite as soon as the divisor is not
too small.
-/

namespace Scaffold.Double

variable {num den k : Nat} {x y : Double}

theorem twoTo_eq (e : Nat) : twoTo e = 2 ^ e := rfl

/-! ## The exponent of a fraction -/

theorem log2_le_add (h : num ≤ den * 2 ^ k) : num.log2 ≤ den.log2 + k := by
  by_cases hnum : num = 0
  · simp [hnum]
  have hlt : num < 2 ^ (den.log2 + k + 1) := by
    calc num ≤ den * 2 ^ k := h
      _ < 2 ^ (den.log2 + 1) * 2 ^ k :=
        Nat.mul_lt_mul_of_pos_right Nat.lt_log2_self (Nat.two_pow_pos k)
      _ = 2 ^ (den.log2 + k + 1) := by ring
  exact Nat.lt_succ_iff.mp ((Nat.log2_lt hnum).mpr hlt)

theorem fitExponent_le (h : num ≤ den * 2 ^ k) :
    fitExponent num den ≤ max ((k : Int) - 52) minExponent := by
  have hlog := log2_le_add h
  simp only [fitExponent]
  split <;> omega

/-- One form for both signs of the exponent. -/
theorem scaleDown_eq (num den : Nat) (e : Int) :
    scaleDown num den e = (num * 2 ^ (-e).toNat, den * 2 ^ e.toNat) := by
  cases e with
  | ofNat e => simp [scaleDown, twoTo_eq]
  | negSucc e => simp [scaleDown, twoTo_eq, Int.neg_negSucc]

/-- At an exponent that leaves room for 53 bits, the scaled fraction has at most 53. -/
theorem scaleDown_lt (hden : den ≠ 0) {e : Int} (he : (num.log2 : Int) - den.log2 - 52 ≤ e) :
    num * 2 ^ (-e).toNat < den * 2 ^ e.toNat * 2 ^ 53 := by
  calc num * 2 ^ (-e).toNat < 2 ^ (num.log2 + 1) * 2 ^ (-e).toNat :=
        Nat.mul_lt_mul_of_pos_right Nat.lt_log2_self (Nat.two_pow_pos _)
    _ = 2 ^ (num.log2 + 1 + (-e).toNat) := (Nat.pow_add ..).symm
    _ ≤ 2 ^ (den.log2 + e.toNat + 53) := Nat.pow_le_pow_right (by decide) (by omega)
    _ = 2 ^ den.log2 * 2 ^ e.toNat * 2 ^ 53 := by rw [Nat.pow_add, Nat.pow_add]
    _ ≤ den * 2 ^ e.toNat * 2 ^ 53 :=
        Nat.mul_le_mul_right _ (Nat.mul_le_mul_right _ (Nat.log2_self_le hden))

/-- One exponent less doubles the mantissa at most. -/
theorem scaleDown_pred_lt {e : Int}
    (h : num * 2 ^ (-e).toNat < den * 2 ^ e.toNat * 2 ^ 52) :
    num * 2 ^ (-(e - 1)).toNat < den * 2 ^ (e - 1).toNat * 2 ^ 53 := by
  rcases le_or_gt 1 e with he | he
  · have hdown : (-(e - 1)).toNat = (-e).toNat := by omega
    have hup : e.toNat = (e - 1).toNat + 1 := by omega
    rw [hup, Nat.pow_succ] at h
    rw [hdown]
    calc _ < _ := h
      _ = _ := by ring
  · have hdown : (-(e - 1)).toNat = (-e).toNat + 1 := by omega
    have hup : (e - 1).toNat = e.toNat := by omega
    rw [hdown, hup, Nat.pow_succ]
    calc num * (2 ^ (-e).toNat * 2) = num * 2 ^ (-e).toNat * 2 := by ring
      _ < den * 2 ^ e.toNat * 2 ^ 52 * 2 := Nat.mul_lt_mul_of_pos_right h (by decide)
      _ = den * 2 ^ e.toNat * 2 ^ 53 := by ring

/-- The exponent that is chosen leaves a mantissa of 53 bits. -/
theorem scaleDown_fitExponent_lt (num : Nat) (hden : den ≠ 0) :
    num * 2 ^ (-fitExponent num den).toNat < den * 2 ^ (fitExponent num den).toNat * 2 ^ 53 := by
  simp only [fitExponent, scaleDown_eq, twoTo_eq]
  split
  case isFalse => exact scaleDown_lt hden (by omega)
  case isTrue h =>
      rw [Nat.div_lt_iff_lt_mul
        (Nat.mul_pos (Nat.pos_of_ne_zero hden) (Nat.two_pow_pos _)), Nat.mul_comm (2 ^ 52)] at h
      generalize hguess : max ((num.log2 : Int) - den.log2 - 52) minExponent = guess at h ⊢
      rcases le_or_gt minExponent (guess - 1) with hmin | hmin
      · rw [Int.max_eq_left hmin]
        exact scaleDown_pred_lt h
      · have hlow : max (guess - 1) minExponent = guess := by omega
        rw [hlow]
        exact Nat.lt_of_lt_of_le h (Nat.mul_le_mul_left _ (show 2 ^ 52 ≤ 2 ^ 53 by decide))

theorem roundDiv_le (n d : Nat) : roundDiv n d ≤ n / d + 1 := by
  simp only [roundDiv]
  split_ifs <;> omega

/-! ## Numbers of the format -/

/-- Finite, with a mantissa and an exponent that the format has room for. -/
def InFormat : Double → Prop
  | .finite _ mantissa exponent => mantissa ≤ 2 ^ 53 ∧ exponent ≤ maxExponent
  | _ => False

theorem InFormat.isFinite (h : x.InFormat) : x.isFinite = true := by
  cases x with
  | finite s m e => rfl
  | nan | infinite s => exact h.elim

/-- A fraction of at most `2 ^ 1022` is rounded to a finite number. -/
theorem inFormat_round (negative : Bool) (hden : den ≠ 0) (h : num ≤ den * 2 ^ k) (hk : k ≤ 1022) :
    (round negative num den).InFormat := by
  by_cases hnum : num = 0
  · rw [round, if_pos hnum]
    exact ⟨by decide, by decide⟩
  have hexponent : fitExponent num den + 1 ≤ maxExponent := by
    have hfit := fitExponent_le h
    simp only [minExponent, maxExponent] at hfit ⊢
    omega
  have hmantissa : roundDiv (num * 2 ^ (-fitExponent num den).toNat)
      (den * 2 ^ (fitExponent num den).toNat) ≤ 2 ^ 53 := by
    have hdiv := Nat.div_lt_of_lt_mul (scaleDown_fitExponent_lt num hden)
    have hround := roundDiv_le (num * 2 ^ (-fitExponent num den).toNat)
      (den * 2 ^ (fitExponent num den).toNat)
    omega
  simp only [round, if_neg hnum, scaleDown_eq, twoTo_eq]
  split
  case isTrue =>
      rw [if_neg (by omega)]
      exact ⟨Nat.pow_le_pow_right (by decide) (by decide), hexponent⟩
  case isFalse =>
      rw [if_neg (by omega)]
      exact ⟨hmantissa, by omega⟩

theorem inFormat_ofInt {i : Int} (h : i.natAbs ≤ 2 ^ 64) : (ofInt i).InFormat :=
  inFormat_round _ (by decide) (by omega) (show 64 ≤ 1022 by decide)

theorem inFormat_ofNat {n : Nat} (h : n ≤ 2 ^ 64) : (ofNat n).InFormat :=
  inFormat_round _ (by decide) (by omega) (show 64 ≤ 1022 by decide)

@[simp] theorem isFinite_neg (x : Double) : x.neg.isFinite = x.isFinite := by
  cases x <;> rfl

theorem fraction_eq (m : Nat) (e : Int) : fraction m e = (m * 2 ^ e.toNat, 2 ^ (-e).toNat) := by
  cases e with
  | ofNat e => simp [fraction, twoTo_eq]
  | negSucc e => simp [fraction, twoTo_eq, Int.neg_negSucc]

def AtLeastEight : Double → Prop
  | .finite _ mantissa exponent => 8 * 2 ^ (-exponent).toNat ≤ mantissa * 2 ^ exponent.toNat
  | _ => False

instance : DecidablePred AtLeastEight
  | .finite _ _ _ => inferInstanceAs (Decidable (_ ≤ _))
  | .nan | .infinite _ => inferInstanceAs (Decidable False)

theorem mul_le_of_eight_le {a b c d j : Nat} (hx : a ≤ b * (2 ^ 53 * 2 ^ j)) (hy : 8 * d ≤ c) :
    a * d ≤ b * c * 2 ^ (50 + j) := by
  calc a * d ≤ b * (2 ^ 53 * 2 ^ j) * d := Nat.mul_le_mul_right d hx
    _ = b * (8 * d) * 2 ^ (50 + j) := by ring
    _ ≤ b * c * 2 ^ (50 + j) := Nat.mul_le_mul_right _ (Nat.mul_le_mul_left b hy)

/-- A number of the format, divided by eight or more, is below `2 ^ 1022`. -/
theorem InFormat.div (hx : x.InFormat) (hy : y.AtLeastEight) : (x.div y).InFormat := by
  cases x with
  | nan | infinite s => exact hx.elim
  | finite s m e =>
      cases y with
      | nan | infinite t => exact hy.elim
      | finite t n f =>
          obtain ⟨hm, he⟩ := hx
          simp only [maxExponent] at he
          simp only [AtLeastEight] at hy
          simp only [Double.div, fraction_eq]
          have hpositive : 0 < n * 2 ^ f.toNat :=
            Nat.lt_of_lt_of_le (Nat.mul_pos (by decide) (Nat.two_pow_pos _)) hy
          have hsize : m * 2 ^ e.toNat ≤ 2 ^ (-e).toNat * (2 ^ 53 * 2 ^ e.toNat) :=
            Nat.le_trans (Nat.mul_le_mul_right _ hm) (Nat.le_mul_of_pos_left _ (Nat.two_pow_pos _))
          exact inFormat_round _ (Nat.mul_pos (Nat.two_pow_pos _) hpositive).ne'
            (mul_le_of_eight_le hsize hy) (by omega)

end Scaffold.Double

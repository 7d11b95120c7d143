import Scaffold.Manifest.Document
import Scaffold.Proofs.Outcome
import Mathlib.Data.List.TakeWhile

/-!
# Written numbers are read back

What a number text stands for does not depend on where the text stands or on what follows it, as
long as that cannot go on the number.  A whole number of 64 bits is read back from its digits.
-/

namespace Scaffold.Json

open Data Value

def EndsNumber : List Char → Prop
  | [] => True
  | c :: _ => isDigit c = false ∧ c ≠ '.' ∧ c ≠ 'e' ∧ c ≠ 'E'

variable {rest : List Char}

/-! ## Digits in front of what follows a number -/

theorem takeWhile_isDigit_rest (hrest : EndsNumber rest) : rest.takeWhile isDigit = [] := by
  cases rest with
  | nil => rfl
  | cons c cs => simp [hrest.1]

theorem dropWhile_isDigit_rest (hrest : EndsNumber rest) : rest.dropWhile isDigit = rest := by
  cases rest with
  | nil => rfl
  | cons c cs => simp [hrest.1]

theorem takeWhile_isDigit_append (hrest : EndsNumber rest) (cs : List Char) :
    (cs ++ rest).takeWhile isDigit = cs.takeWhile isDigit := by
  induction cs with
  | nil => simpa using takeWhile_isDigit_rest hrest
  | cons c cs ih => simp [List.takeWhile_cons, ih]

theorem dropWhile_isDigit_append (hrest : EndsNumber rest) (cs : List Char) :
    (cs ++ rest).dropWhile isDigit = cs.dropWhile isDigit ++ rest := by
  induction cs with
  | nil => simpa using dropWhile_isDigit_rest hrest
  | cons c cs ih =>
      simp only [List.cons_append, List.dropWhile_cons, ih]
      split <;> rfl

/-! ## A number text in another place -/

def NumberText.movedTo (text : NumberText) (start : Position) : NumberText :=
  { text with exponentStart := start }

/-- The scan finds the same number text elsewhere, in front of the same characters and the rest. -/
def NumberScan.Moved (scan scan' : NumberScan) (rest : List Char) : Prop :=
  ∀ text c, scan = .read text c → ∃ start stop,
    scan' = .read (text.movedTo start) ⟨c.rest ++ rest, stop⟩

def exponentDigits (text : NumberText) (negative : Bool) (cs : List Char) (p : Position) :
    NumberScan :=
  match cs with
  | [] => .broken ⟨.endInValue, p⟩ ⟨.invalidNumber, p⟩
  | c :: _ =>
      if isDigit c then
        .read { text with
          exponentNegative := negative, exponent := cs.takeWhile isDigit, exponentStart := p }
          ⟨cs.dropWhile isDigit, ⟨p.line, p.column + (cs.takeWhile isDigit).length⟩⟩
      else .broken ⟨.invalidNumber, p.afterByte c⟩ ⟨.invalidNumber, p.afterByte c⟩

theorem scanExponent_plus {mark : Char} (hmark : mark = 'e' ∨ mark = 'E') (text : NumberText)
    (cs : List Char) (p : Position) :
    scanExponent text (mark :: '+' :: cs) p = exponentDigits text false cs p.next.next := by
  simp only [scanExponent, if_pos hmark]
  rfl

theorem scanExponent_minus {mark : Char} (hmark : mark = 'e' ∨ mark = 'E') (text : NumberText)
    (cs : List Char) (p : Position) :
    scanExponent text (mark :: '-' :: cs) p = exponentDigits text true cs p.next.next := by
  simp only [scanExponent, if_pos hmark]
  rfl

theorem scanExponent_unsigned {mark c : Char} (hmark : mark = 'e' ∨ mark = 'E') (hplus : c ≠ '+')
    (hminus : c ≠ '-') (text : NumberText) (cs : List Char) (p : Position) :
    scanExponent text (mark :: c :: cs) p = exponentDigits text false (c :: cs) p.next := by
  simp only [scanExponent, if_pos hmark]
  split <;> simp_all [exponentDigits]

/-- Digits of an exponent are read alike wherever they are, whatever follows the number. -/
theorem exponentDigits_moved (hrest : EndsNumber rest) (text : NumberText) (negative : Bool)
    (cs : List Char) (p start q : Position) :
    (exponentDigits text negative cs p).Moved
      (exponentDigits (text.movedTo start) negative (cs ++ rest) q) rest := by
  intro found c h
  cases cs with
  | nil => cases h
  | cons d ds =>
      simp only [exponentDigits] at h
      split at h
      case isFalse => cases h
      case isTrue hd =>
          cases h
          simp only [exponentDigits, List.cons_append, if_pos hd]
          rw [← List.cons_append, takeWhile_isDigit_append hrest, dropWhile_isDigit_append hrest]
          exact ⟨_, _, rfl⟩

/-- An exponent is read alike wherever it is, whatever follows the number. -/
theorem scanExponent_moved (hrest : EndsNumber rest) (text : NumberText) (cs : List Char)
    (p start q : Position) :
    (scanExponent text cs p).Moved (scanExponent (text.movedTo start) (cs ++ rest) q) rest := by
  intro found c h
  cases cs with
  | nil =>
      cases h
      cases rest with
      | nil => exact ⟨start, q, rfl⟩
      | cons d ds => exact ⟨start, q, by simp [scanExponent, hrest.2.2.1, hrest.2.2.2]⟩
  | cons mark cs =>
      by_cases hmark : mark = 'e' ∨ mark = 'E'
      case neg =>
          simp only [scanExponent, if_neg hmark, List.cons_append] at h ⊢
          cases h
          exact ⟨start, q, rfl⟩
      case pos =>
          cases cs with
          | nil =>
              simp only [scanExponent, if_pos hmark] at h
              cases h
          | cons d ds =>
              by_cases hplus : d = '+'
              · subst hplus
                rw [scanExponent_plus hmark] at h
                exact scanExponent_plus hmark .. ▸ exponentDigits_moved hrest _ _ _ _ _ _ _ _ h
              by_cases hminus : d = '-'
              · subst hminus
                rw [scanExponent_minus hmark] at h
                exact scanExponent_minus hmark .. ▸ exponentDigits_moved hrest _ _ _ _ _ _ _ _ h
              · rw [scanExponent_unsigned hmark hplus hminus] at h
                exact scanExponent_unsigned hmark hplus hminus .. ▸
                  exponentDigits_moved hrest _ _ _ _ _ _ _ _ h

theorem scanFraction_of_ne {text : NumberText} {cs : List Char} {p : Position}
    (h : ∀ ds, cs ≠ '.' :: ds) : scanFraction text cs p = scanExponent text cs p := by
  unfold scanFraction
  split
  case h_1 ds => exact absurd rfl (h ds)
  case h_2 => rfl

/-- A fraction is read alike wherever it is, whatever follows the number. -/
theorem scanFraction_moved (hrest : EndsNumber rest) (text : NumberText) (cs : List Char)
    (p start q : Position) :
    (scanFraction text cs p).Moved (scanFraction (text.movedTo start) (cs ++ rest) q) rest := by
  by_cases hpoint : ∃ ds, cs = '.' :: ds
  · obtain ⟨ds, rfl⟩ := hpoint
    intro found c h
    simp only [List.cons_append, scanFraction, takeWhile_isDigit_append hrest,
      dropWhile_isDigit_append hrest] at h ⊢
    cases hdigits : ds.takeWhile isDigit with
    | nil =>
        cases hafter : ds.dropWhile isDigit with
        | nil =>
            rw [hdigits, hafter] at h
            cases h
        | cons d after =>
            rw [hdigits, hafter] at h
            cases h
    | cons d digits =>
        rw [hdigits] at h
        simp only at h ⊢
        exact scanExponent_moved hrest _ _ _ _ _ _ _ h
  · have hds : ∀ ds, cs ++ rest ≠ '.' :: ds := by
      intro ds hds
      cases cs with
      | nil =>
          rw [List.nil_append] at hds
          rw [hds] at hrest
          exact hrest.2.1 rfl
      | cons c cs => exact hpoint ⟨cs, by rw [(List.cons.inj hds).1]⟩
    rw [scanFraction_of_ne (not_exists.mp hpoint), scanFraction_of_ne hds]
    exact scanExponent_moved hrest text cs p start q

/-- A magnitude is read alike wherever it is, whatever follows the number. -/
theorem scanMagnitude_moved (hrest : EndsNumber rest) (negative : Bool) (cs : List Char)
    (p q : Position) :
    (scanMagnitude negative cs p).Moved (scanMagnitude negative (cs ++ rest) q) rest := by
  intro found c h
  cases cs with
  | nil => cases h
  | cons d ds =>
      by_cases hd : isDigit d = true
      case neg =>
          simp only [scanMagnitude, hd] at h
          cases h
      case pos =>
          by_cases hzero : d = '0'
          · -- after a zero no digit may follow, in the rest as little as in the text
            subst hzero
            have hhead : (ds ++ rest).head?.any isDigit = ds.head?.any isDigit := by
              cases ds with
              | cons e es => rfl
              | nil =>
                  cases rest with
                  | nil => rfl
                  | cons e es => simp [hrest.1]
            simp only [scanMagnitude, hd, not_true_eq_false, if_false, if_true, decide_true,
              Bool.true_and, List.cons_append, hhead] at h ⊢
            split at h
            case isTrue => cases h
            case isFalse hnone =>
                rw [if_neg hnone]
                exact scanFraction_moved hrest _ _ _ _ _ _ _ h
          · simp only [scanMagnitude, hd, not_true_eq_false, if_false, hzero, decide_false,
              Bool.false_and, Bool.false_eq_true, List.cons_append] at h ⊢
            rw [← List.cons_append, takeWhile_isDigit_append hrest, dropWhile_isDigit_append hrest]
            exact scanFraction_moved hrest _ _ _ _ _ _ _ h

theorem scanNumber_of_ne {cs : List Char} (h : ∀ ds, cs ≠ '-' :: ds) (p : Position) :
    scanNumber cs p = scanMagnitude false cs p := by
  unfold scanNumber
  split
  case h_1 ds => exact absurd rfl (h ds)
  case h_2 => rfl

/-- A number is read as the same text wherever it stands and whatever follows it. -/
theorem scanNumber_moved (hrest : EndsNumber rest) (cs : List Char) (p q : Position) :
    (scanNumber cs p).Moved (scanNumber (cs ++ rest) q) rest := by
  intro found c h
  cases cs with
  | nil => cases h
  | cons d ds =>
      by_cases hminus : d = '-'
      · subst hminus
        exact scanMagnitude_moved hrest true ds _ _ _ _ h
      · have hne : ∀ es es', d :: es ≠ '-' :: es' := fun es es' hes ↦ hminus (List.cons.inj hes).1
        rw [List.cons_append, scanNumber_of_ne (hne _)]
        rw [scanNumber_of_ne (hne _)] at h
        exact scanMagnitude_moved hrest false (d :: ds) _ _ _ _ h

/-- Where the text stands matters only for the place of a complaint. -/
theorem NumberText.numeral_movedTo {text : NumberText} {stop : Position} {n : Numeral}
    (h : text.numeral stop = .ok n) (start stop' : Position) :
    (text.movedTo start).numeral stop' = .ok n := by
  obtain ⟨negative, whole, fraction, exponentNegative, exponent, _⟩ := text
  change numeral ⟨negative, whole, fraction, exponentNegative, exponent, start⟩ stop' = .ok n
  simp only [numeral] at h ⊢
  split at h
  case isTrue hwhole => rw [if_pos hwhole, h]
  case isFalse hwhole =>
      rw [if_neg hwhole]
      split at h
      case h_1 read =>
          split at h
          case isTrue => cases h
          case isFalse hsmall => rw [if_neg hsmall, h]
      case h_2 value =>
          split at h
          case h_1 => cases h
          case h_2 x hscale =>
              rw [hscale]
              exact h

/-! ## Numerals in front of what follows -/

/-- The text is read as the numeral, wherever it stands and whatever follows it. -/
structure Spells (cs : List Char) (n : Numeral) : Prop where
  starts : ∃ c ds, cs = c :: ds ∧ (c = '-' ∨ isDigit c)
  scan : ∀ rest, EndsNumber rest → ∀ p, ∃ stop,
    scanNumberTree (cs ++ rest) p = (.number p stop (.ok n), some ⟨rest, stop⟩)

theorem starts_of_scanNumber {cs : List Char} {p : Position} {text : NumberText} {c : Cursor}
    (h : scanNumber cs p = .read text c) : ∃ c ds, cs = c :: ds ∧ (c = '-' ∨ isDigit c) := by
  cases cs with
  | nil => cases h
  | cons c ds =>
      refine ⟨c, ds, rfl, ?_⟩
      by_contra hc
      rw [not_or] at hc
      have hne : ∀ es, c :: ds ≠ '-' :: es := fun es hes ↦ hc.1 (List.cons.inj hes).1
      rw [scanNumber_of_ne hne] at h
      simp only [scanMagnitude, hc.2] at h
      cases h

/-- It is enough to look at the text on its own. -/
theorem spells_of_scanNumber {cs : List Char} {p q : Position} {text : NumberText} {n : Numeral}
    (h : scanNumber cs p = .read text ⟨[], q⟩) (hn : text.numeral q = .ok n) : Spells cs n where
  starts := starts_of_scanNumber h
  scan := by
    intro rest hrest p'
    obtain ⟨start, stop, hscan⟩ := scanNumber_moved hrest cs p p' text ⟨[], q⟩ h
    refine ⟨stop, ?_⟩
    simp only [scanNumberTree, hscan, NumberText.numeral_movedTo hn start stop, List.nil_append]

def numeral? (cs : List Char) : Option Numeral :=
  match scanNumber cs .origin with
  | .read text c => if c.rest.isEmpty then (text.numeral c.position).toOption else none
  | .broken .. => none

/-- The numeral that a text is read as is the one that it spells. -/
theorem spells_of_numeral? {cs : List Char} {n : Numeral} (h : numeral? cs = some n) :
    Spells cs n := by
  unfold numeral? at h
  split at h
  case h_2 => cases h
  case h_1 text c hscan =>
      obtain ⟨left, q⟩ := c
      split at h
      case isFalse => cases h
      case isTrue hleft =>
          obtain rfl : left = [] := List.isEmpty_iff.mp hleft
          cases hn : text.numeral q with
          | error fault =>
              rw [hn] at h
              cases h
          | ok n' =>
              rw [hn] at h
              cases h
              exact spells_of_scanNumber hscan hn

/-- A double whose shortest text is read as the same double. -/
def ReadsBack (x : Double) : Prop := numeral? (Layout.document.write x).toList = some (.float x)

instance (x : Double) : Decidable (ReadsBack x) := inferInstanceAs (Decidable (_ = _))

/-! ## Whole numbers -/

theorem isDigit_of_mem_digitsOf {n : Nat} {c : Char} (hc : c ∈ Decimal.digitsOf n) :
    isDigit c = true := Nat.isDigit_of_mem_toDigits (by decide) (by decide) hc

theorem head?_digitsOf {n : Nat} (hn : n ≠ 0) : (Decimal.digitsOf n).head? ≠ some '0' := by
  induction n using Nat.strongRecOn with
  | _ n ih =>
      unfold Decimal.digitsOf at ih ⊢
      by_cases hsmall : n < 10
      · simpa [Nat.toDigits_of_lt_base hsmall, Nat.digitChar_eq_zero] using hn
      · rw [Nat.toDigits_of_base_le (by decide) (by omega),
          List.head?_append_of_ne_nil _ Nat.toDigits_ne_nil]
        exact ih (n / 10) (by omega) (by omega)

theorem le_ofDigitChars (cs : List Char) (n : Nat) : n ≤ Nat.ofDigitChars 10 cs n := by
  induction cs generalizing n with
  | nil => exact Nat.le_refl n
  | cons c cs ih =>
      rw [Nat.ofDigitChars_cons]
      exact Nat.le_trans (by omega) (ih _)

/-- As long as the digits fit, none is dropped. -/
theorem foldl_pushWhole {cs : List Char} {n : Nat}
    (h : Nat.ofDigitChars 10 cs n ≤ maxSignificand) :
    cs.foldl pushWhole (n, 0) = (Nat.ofDigitChars 10 cs n, 0) := by
  induction cs generalizing n with
  | nil => rfl
  | cons c cs ih =>
      have hgrown : n * 10 + digitValue c = 10 * n + (c.toNat - '0'.toNat) := by
        rw [digitValue, Nat.mul_comm]
        rfl
      rw [Nat.ofDigitChars_cons] at h ⊢
      have hfits : n * 10 + digitValue c ≤ maxSignificand := by
        rw [hgrown]
        exact Nat.le_trans (le_ofDigitChars cs _) h
      rw [List.foldl_cons, pushWhole]
      simp only [true_and, if_pos hfits]
      rw [hgrown, ih h]

/-- The digits of a number are read as a whole number without sign, fraction and exponent. -/
theorem scanMagnitude_digitsOf (negative : Bool) (n : Nat) (p : Position) :
    ∃ q, scanMagnitude negative (Decimal.digitsOf n) p =
      .read ⟨negative, Decimal.digitsOf n, [], false, [], p⟩ ⟨[], q⟩ := by
  by_cases hn : n = 0
  · subst hn
    exact ⟨_, rfl⟩
  have hall : ∀ c ∈ Decimal.digitsOf n, isDigit c = true := fun c ↦ isDigit_of_mem_digitsOf
  have htake : (Decimal.digitsOf n).takeWhile isDigit = Decimal.digitsOf n :=
    List.takeWhile_eq_self_iff.mpr hall
  have hdrop := List.dropWhile_eq_nil_iff.mpr hall
  have hhead := head?_digitsOf hn
  cases hdigits : Decimal.digitsOf n with
  | nil => exact absurd hdigits Nat.toDigits_ne_nil
  | cons c cs =>
      rw [hdigits] at hall htake hdrop hhead
      have hc : c ≠ '0' := by simpa using hhead
      have hdigit : isDigit c = true := hall c List.mem_cons_self
      simp only [scanMagnitude, hdigit, hc, htake, hdrop, not_true_eq_false, if_false,
        decide_false, Bool.false_and, Bool.false_eq_true]
      exact ⟨_, rfl⟩

/-- A whole number of 64 bits with a sign is read back. -/
theorem spells_writeInt {i : Int} (hlow : -(twoTo 63 : Int) ≤ i) (hhigh : i < twoTo 63) :
    Spells (writeInt i).toList (.integer i) := by
  have hsize : twoTo 63 ≤ maxSignificand := by decide +kernel
  have hwhole : (Decimal.digitsOf i.natAbs).foldl pushWhole (0, 0) = (i.natAbs, 0) := by
    have hvalue : Nat.ofDigitChars 10 (Decimal.digitsOf i.natAbs) 0 = i.natAbs :=
      Nat.ofDigitChars_ten_toDigits
    rw [foldl_pushWhole (by omega), hvalue]
  unfold writeInt
  by_cases hneg : i < 0
  · obtain ⟨q, hq⟩ := scanMagnitude_digitsOf true i.natAbs Position.origin.next
    rw [String.toList_ofList, if_pos hneg]
    refine spells_of_scanNumber (p := .origin) hq ?_
    have hfits : ¬ (i.natAbs = 0 ∨ twoTo 63 < i.natAbs) := by omega
    have hsign : -(i.natAbs : Int) = i := by omega
    simp only [NumberText.numeral, hwhole, hfits, hsign]
    simp
  · obtain ⟨q, hq⟩ := scanMagnitude_digitsOf false i.natAbs Position.origin
    have hne : ∀ ds, Decimal.digitsOf i.natAbs ≠ '-' :: ds := by
      intro ds hds
      have hminus : isDigit '-' = true :=
        isDigit_of_mem_digitsOf (n := i.natAbs) (by rw [hds]; exact List.mem_cons_self)
      exact absurd hminus (by decide)
    rw [String.toList_ofList, if_neg hneg]
    rw [← scanNumber_of_ne hne] at hq
    refine spells_of_scanNumber hq ?_
    have hsign : (i.natAbs : Int) = i := by omega
    simp only [NumberText.numeral, hwhole]
    simp [hsign]

end Scaffold.Json

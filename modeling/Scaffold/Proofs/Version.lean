import Mathlib.Data.Nat.Digits.Defs
import Mathlib.Data.Prod.Lex
import Mathlib.Order.Compare
import Mathlib.Order.Fin.Basic
import Scaffold.Proofs.Path
import Scaffold.Version

/-!
# Versions in order

Versions are ordered by their numbers, the major one first.  One stands in for another exactly if it
has the same major number and is not older.  A text is read as a version exactly if it consists of
three numerals with dots between them, and so the text of a version is read as the same version.
-/

namespace Scaffold.Version

variable {v w : Version} {cs : List Char} {n : Nat} {text : String}

/-! ## The order -/

def numbers (v : Version) : Fin UInt32.size ×ₗ Fin UInt32.size ×ₗ Fin UInt32.size :=
  toLex (v.major, toLex (v.minor, v.patch))

theorem numbers_injective : Function.Injective numbers := by
  rintro ⟨major, minor, patch⟩ ⟨major', minor', patch'⟩ h
  simpa [numbers] using h

instance linearOrder : LinearOrder Version := LinearOrder.lift' numbers numbers_injective

theorem lt_iff : v < w ↔ v.major < w.major ∨ v.major = w.major ∧
    (v.minor < w.minor ∨ v.minor = w.minor ∧ v.patch < w.patch) := by
  change v.numbers < w.numbers ↔ _
  simp only [numbers, Prod.Lex.toLex_lt_toLex]

theorem compare_eq_lt_iff : v.compare w = .lt ↔ v < w := by
  rw [lt_iff]
  simp only [compare, Ordering.then_eq_lt, compare_lt_iff_lt, compare_eq_iff_eq]

theorem isCompatible_iff : v.isCompatible w = true ↔ v.major = w.major ∧ w ≤ v := by
  rw [isCompatible, Bool.and_eq_true, beq_iff_eq, bne_iff_ne, ne_eq, compare_eq_lt_iff, not_lt]

/-- Standing in for another version is an order of its own: it compares fewer versions. -/
theorem isPartialOrder_isCompatible :
    IsPartialOrder Version (fun v w ↦ v.isCompatible w = true) where
  refl v := isCompatible_iff.mpr ⟨rfl, le_rfl⟩
  trans u v w huv hvw := by
    rw [isCompatible_iff] at huv hvw ⊢
    exact ⟨huv.1.trans hvw.1, hvw.2.trans huv.2⟩
  antisymm v w hvw hwv := le_antisymm (isCompatible_iff.mp hwv).2 (isCompatible_iff.mp hvw).2

/-! ## Numerals -/

/-- The number that decimal digits stand for, the last of them for the ones. -/
def decimal (digits : List Char) : Nat :=
  Nat.ofDigits 10 (digits.reverse.map fun c ↦ c.toNat - '0'.toNat)

/-- A number in decimal digits, with or without a plus sign in front. -/
def Numeral (cs : List Char) (n : Nat) : Prop :=
  ∃ digits, (cs = digits ∨ cs = '+' :: digits) ∧ digits ≠ [] ∧
    (∀ c ∈ digits, c.isDigit = true) ∧ decimal digits = n

theorem digitsValue_eq_decimal (cs : List Char) : digitsValue cs = decimal cs := by
  induction cs using List.reverseRecOn with
  | nil => rfl
  | append_singleton cs c ih =>
      have hzero : '0'.toNat = 48 := rfl
      rw [digitsValue, List.foldl_append, ← digitsValue, ih, decimal, decimal, List.reverse_concat,
        List.map_cons, Nat.ofDigits_cons, hzero]
      simp only [List.foldl_cons, List.foldl_nil]
      omega

theorem unsigned_eq_of_digits {digits : List Char} (h : ∀ c ∈ digits, c.isDigit = true) :
    unsigned digits = digits := by
  unfold unsigned
  split
  · exact absurd (h '+' List.mem_cons_self) (by decide)
  · rfl

theorem eq_unsigned (cs : List Char) : cs = unsigned cs ∨ cs = '+' :: unsigned cs := by
  unfold unsigned
  split
  · exact .inr rfl
  · exact .inl rfl

/-- A part is read exactly if it is the numeral of a number below the bound, and as that number. -/
theorem part?_eq_some_iff {n : Fin UInt32.size} : part? cs = some n ↔ Numeral cs n := by
  have hall : ∀ digits : List Char, digits.all isDigit = true ↔ ∀ c ∈ digits, c.isDigit = true :=
    fun _ ↦ List.all_eq_true
  constructor
  · intro h
    simp only [part?] at h
    split at h
    · cases h
    · next hdigits =>
      split at h
      · cases h
        simp only [Bool.or_eq_true, List.isEmpty_iff, Bool.not_eq_true', not_or,
          Bool.not_eq_false] at hdigits
        exact ⟨unsigned cs, eq_unsigned cs, hdigits.1, (hall _).mp hdigits.2,
          (digitsValue_eq_decimal _).symm⟩
      · cases h
  · rintro ⟨digits, hcs, hne, hdigits, hvalue⟩
    have hunsigned : unsigned cs = digits := by
      rcases hcs with rfl | rfl
      · exact unsigned_eq_of_digits hdigits
      · rfl
    rw [← digitsValue_eq_decimal] at hvalue
    simp only [part?, hunsigned, (hall digits).mpr hdigits, hvalue, n.isLt, dif_pos,
      List.isEmpty_eq_false_iff.mpr hne, Bool.not_true, Bool.or_self, Bool.false_eq_true, if_false]

theorem Numeral.dot_notMem (h : Numeral cs n) : '.' ∉ cs := by
  obtain ⟨digits, hcs, -, hdigits, -⟩ := h
  have hdot : '.' ∉ digits := fun hmem ↦ absurd (hdigits '.' hmem) (by decide)
  rcases hcs with rfl | rfl
  · exact hdot
  · simpa using hdot

theorem isDigit_of_mem_toDigits {n : Nat} {c : Char} (h : c ∈ Nat.toDigits 10 n) :
    isDigit c = true := by
  have hdigit := Nat.isDigit_of_mem_toDigits (by decide) (by decide) h
  exact hdigit

theorem digitsValue_eq (cs : List Char) : digitsValue cs = Nat.ofDigitChars 10 cs 0 := by
  suffices ∀ n, cs.foldl (fun n c ↦ n * 10 + (c.toNat - 48)) n = Nat.ofDigitChars 10 cs n from
    this 0
  induction cs with
  | nil => exact fun _ ↦ rfl
  | cons c cs ih =>
      intro n
      have hzero : '0'.toNat = 48 := rfl
      rw [List.foldl_cons, ih, Nat.ofDigitChars_cons, hzero, Nat.mul_comm]

/-- The digits of a number are a numeral. -/
theorem numeral_toDigits (n : Nat) : Numeral (Nat.toDigits 10 n) n := by
  refine ⟨Nat.toDigits 10 n, .inl rfl, by simp, fun c hc ↦ isDigit_of_mem_toDigits hc, ?_⟩
  rw [← digitsValue_eq_decimal, digitsValue_eq, Nat.ofDigitChars_ten_toDigits]

/-! ## The text -/

/-- A text of three numerals with dots between them. -/
def Spells (text : String) (major minor patch : Nat) : Prop :=
  ∃ a b c, text.toList = a ++ '.' :: (b ++ '.' :: c) ∧
    Numeral a major ∧ Numeral b minor ∧ Numeral c patch

/-- The parts of a text with three numerals are these. -/
theorem splitOn_eq_of_numerals {a b c : List Char} {major minor patch : Nat}
    (ha : Numeral a major) (hb : Numeral b minor) (hc : Numeral c patch) :
    Text.splitOn '.' (a ++ '.' :: (b ++ '.' :: c)) = [a, b, c] := by
  rw [Text.splitOn_append, Text.splitOn_append, Text.splitOn_eq_singleton ha.dot_notMem,
    Text.splitOn_eq_singleton hb.dot_notMem, Text.splitOn_eq_singleton hc.dot_notMem]
  rfl

/-- A text is read exactly if it spells out a version, and as that version. -/
theorem parse_eq_ok_iff : parse text = .ok v ↔ Spells text v.major v.minor v.patch := by
  constructor
  · intro h
    rw [parse] at h
    split at h
    · next a b c hsplit =>
      have htext := Text.intercalate_splitOn '.' text.toList
      rw [hsplit] at htext
      split at h
      · cases h
      · cases h
      · cases h
      · next ha hb hc =>
        cases h
        refine ⟨a, b, c, ?_, part?_eq_some_iff.mp ha, part?_eq_some_iff.mp hb,
          part?_eq_some_iff.mp hc⟩
        simpa [List.intercalate_cons_cons] using htext.symm
    · cases h
  · rintro ⟨a, b, c, htext, ha, hb, hc⟩
    rw [parse, htext, splitOn_eq_of_numerals ha hb hc]
    simp only [part?_eq_some_iff.mpr ha, part?_eq_some_iff.mpr hb, part?_eq_some_iff.mpr hc]

theorem toList_toText (v : Version) : v.toText.toList = ['.'].intercalate
    [Nat.toDigits 10 v.major, Nat.toDigits 10 v.minor, Nat.toDigits 10 v.patch] := by
  have htext : v.toText =
      toString v.major.val ++ "." ++ toString v.minor.val ++ "." ++ toString v.patch.val := rfl
  rw [htext]
  simp [Nat.toString_eq_repr, Nat.toList_repr, List.intercalate_cons_cons]

theorem spells_toText (v : Version) : Spells v.toText v.major v.minor v.patch := by
  refine ⟨_, _, _, ?_, numeral_toDigits _, numeral_toDigits _, numeral_toDigits _⟩
  rw [toList_toText]
  simp [List.intercalate_cons_cons]

/-- Every version is read back from its text. -/
theorem parse_toText (v : Version) : parse v.toText = .ok v :=
  parse_eq_ok_iff.mpr v.spells_toText

/-- The texts read as versions are those of three numerals with dots between them, each of a number
of 32 bits, and the numbers read are those of the numerals.  A version is read back from its own
text.  Standing in for a version is a partial order inside the order by numbers. -/
theorem texts_and_order (text : String) :
    ((∃ v, parse text = .ok v) ↔ ∃ major minor patch, Spells text major minor patch ∧
      major < UInt32.size ∧ minor < UInt32.size ∧ patch < UInt32.size) ∧
    (∀ v, parse text = .ok v ↔ Spells text v.major v.minor v.patch) ∧
    (∀ v : Version, parse v.toText = .ok v) ∧
    IsPartialOrder Version (fun v w ↦ v.isCompatible w = true) ∧
    (∀ v w : Version, v.isCompatible w = true → w ≤ v) ∧
    ∀ v w : Version, v < w ↔ v.compare w = .lt := by
  refine ⟨⟨?_, ?_⟩, fun v ↦ parse_eq_ok_iff, parse_toText, isPartialOrder_isCompatible,
    fun v w h ↦ (isCompatible_iff.mp h).2, fun v w ↦ compare_eq_lt_iff.symm⟩
  · rintro ⟨v, hv⟩
    exact ⟨v.major, v.minor, v.patch, parse_eq_ok_iff.mp hv, v.major.isLt, v.minor.isLt,
      v.patch.isLt⟩
  · rintro ⟨major, minor, patch, hspells, hmajor, hminor, hpatch⟩
    exact ⟨⟨⟨major, hmajor⟩, ⟨minor, hminor⟩, ⟨patch, hpatch⟩⟩, parse_eq_ok_iff.mpr hspells⟩

theorem texts_and_order_signed :
    parse "+1.04.4294967295" = .ok (.of 1 4 4294967295) ∧
      (of 1 4 0).isCompatible (of 1 2 0) = true ∧ of 1 2 0 ≤ of 1 4 0 := by
  obtain ⟨-, hread, -, -, hwithin, -⟩ := texts_and_order "+1.04.4294967295"
  refine ⟨(hread _).mpr ?_, rfl, hwithin _ _ rfl⟩
  refine ⟨['+', '1'], ['0', '4'], _, rfl, ?_, ?_, numeral_toDigits 4294967295⟩
  · exact ⟨['1'], .inr rfl, by simp, List.all_eq_true.mp rfl, by decide⟩
  · exact ⟨['0', '4'], .inl rfl, by simp, List.all_eq_true.mp rfl, by decide⟩

end Scaffold.Version

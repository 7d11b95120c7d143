import Scaffold.Json.Scan
import Scaffold.Proofs.Data.Invariants
import Scaffold.Proofs.Number.Finite

/-!
# Numbers of a text are finite

A number that is too large is a fault of the text, so every number that can be decoded is finite.
-/

namespace Scaffold

open Data

def Data.Numeral.IsFinite : Numeral → Prop
  | .integer _ => True
  | .float x => x.isFinite = true

namespace Json

/-! ## Number texts -/

theorem powerOfTen_atLeastEight : ∀ n ≤ 308, n ≠ 0 → (powerOfTen n).AtLeastEight := by
  decide +kernel

/-- The ways in which a double is scaled. -/
theorem scalePower_cases {fuel : Nat} {x y : Double} {e : Int} (h : scalePower fuel x e = some y) :
    y.isFinite = true ∨ y = x ∨
      ∃ n ≤ 308, n ≠ 0 ∧ (y = x.div (powerOfTen n) ∨
        ∃ fuel', fuel = fuel' + 1 ∧ scalePower fuel' (x.div (powerOfTen n)) (e + n) = some y) := by
  unfold scalePower at h
  dsimp only at h
  split at h
  case isTrue hsmall =>
      split at h
      case isTrue =>
          split at h
          case isTrue hfinite =>
              cases h
              exact .inl hfinite
          case isFalse => cases h
      case isFalse hnegative =>
          cases h
          exact .inr (.inr ⟨e.natAbs, hsmall, by omega, .inl rfl⟩)
  case isFalse =>
      split at h
      case isTrue =>
          cases h
          exact .inr (.inl rfl)
      case isFalse =>
          split at h
          case isTrue => cases h
          case isFalse =>
              split at h
              case h_1 =>
                  cases h
                  exact .inr (.inl rfl)
              case h_2 fuel' =>
                  exact .inr (.inr ⟨308, Nat.le_refl _, by decide, .inr ⟨fuel', rfl, h⟩⟩)

/-- Scaling down divides by ten or more, and scaling up asks that the result be finite. -/
theorem isFinite_of_scalePower {fuel : Nat} {x y : Double} {e : Int} (hx : x.InFormat)
    (h : scalePower fuel x e = some y) : y.isFinite = true := by
  induction fuel using Nat.strongRecOn generalizing x e with
  | ind fuel ih =>
      rcases scalePower_cases h with hy | rfl | ⟨n, hn, hpos, rfl | ⟨fuel', hfuel, hscale⟩⟩
      · exact hy
      · exact hx.isFinite
      · exact (hx.div (powerOfTen_atLeastEight n hn hpos)).isFinite
      · exact ih fuel' (by omega) (hx.div (powerOfTen_atLeastEight n hn hpos)) hscale

theorem foldl_pushWhole_le (cs : List Char) {state : Nat × Nat} (h : state.1 ≤ maxSignificand) :
    (cs.foldl pushWhole state).1 ≤ maxSignificand := by
  refine List.foldlRecOn (motive := (·.1 ≤ maxSignificand)) cs pushWhole h fun state h c _ ↦ ?_
  simp only [pushWhole]
  split
  case isTrue hfits => exact hfits.2
  case isFalse => exact h

theorem foldl_pushFraction_le (cs : List Char) {state : Nat × Nat × Bool}
    (h : state.1 ≤ maxSignificand) : (cs.foldl pushFraction state).1 ≤ maxSignificand := by
  refine List.foldlRecOn (motive := (·.1 ≤ maxSignificand)) cs pushFraction h fun state h c _ ↦ ?_
  simp only [pushFraction]
  split
  case isTrue hfits => exact hfits.2
  case isFalse => exact h

theorem inFormat_of_le_maxSignificand {n : Nat} (h : n ≤ maxSignificand) :
    (Double.ofNat n).InFormat :=
  Double.inFormat_ofNat (Nat.le_trans h (by decide))

/-- Every double that a number text stands for is finite. -/
theorem NumberText.isFinite_of_numeral {text : NumberText} {stop : Position} {x : Double}
    (h : text.numeral stop = .ok (.float x)) : x.isFinite = true := by
  have hwhole : (text.whole.foldl pushWhole (0, 0)).1 ≤ maxSignificand :=
    foldl_pushWhole_le text.whole (Nat.zero_le _)
  simp only [numeral] at h
  split at h
  case isTrue =>
      split_ifs at h with hsign hrange
      · cases h
        rw [Double.isFinite_neg]
        exact (inFormat_of_le_maxSignificand hwhole).isFinite
      · cases h
      · cases h
  case isFalse =>
      split at h
      case h_1 =>
          split_ifs at h with hrange hsign
          · cases h
            rfl
          · cases h
            rfl
      case h_2 =>
          split at h
          case h_1 => cases h
          case h_2 y hscale =>
              have hy := isFinite_of_scalePower (inFormat_of_le_maxSignificand
                (foldl_pushFraction_le text.fraction hwhole)) hscale
              split_ifs at h with hsign
              · cases h
                rw [Double.isFinite_neg, hy]
              · cases h
                exact hy

/-! ## Trees -/

def AllFinite (ns : List Numeral) : Prop := ∀ n ∈ ns, n.IsFinite

theorem allFinite_nil : AllFinite [] := by simp [AllFinite]

theorem AllFinite.append {ns ns' : List Numeral} (h : AllFinite ns) (h' : AllFinite ns') :
    AllFinite (ns ++ ns') := List.forall_mem_append.mpr ⟨h, h'⟩

/-- A number that is read is finite, or a fault. -/
theorem scanNumberTree_finite (cs : List Char) (p : Position) :
    AllFinite (scanNumberTree cs p).1.numerals := by
  unfold scanNumberTree
  split
  case h_2 => exact allFinite_nil
  case h_1 text c hscan =>
      cases h : text.numeral c.position with
      | error fault => exact allFinite_nil
      | ok n =>
          cases n with
          | integer i => simp [AllFinite, Tree.numerals, Numeral.IsFinite]
          | float x =>
              have hx := NumberText.isFinite_of_numeral h
              simpa [AllFinite, Tree.numerals, Numeral.IsFinite] using hx

theorem scanStringTree_finite (cs : List Char) (p : Position) :
    AllFinite (scanStringTree cs p).1.numerals := by
  unfold scanStringTree
  split
  · exact allFinite_nil
  · split <;> exact allFinite_nil

theorem scanWord_finite {start : Position} {word cs : List Char} {value : Position → Tree}
    (h : ∀ p, (value p).numerals = []) : AllFinite (scanWord start word cs value).1.numerals := by
  unfold scanWord
  split
  · rw [h]
    exact allFinite_nil
  · exact allFinite_nil

/-- Every reader of a part of the text finds finite numbers only, whatever its fuel. -/
structure FiniteScans (fuel : Nat) : Prop where
  value : ∀ nesting c, AllFinite (scanValue fuel nesting c).1.numerals
  items : ∀ nesting first c, AllFinite (scanItems fuel nesting first c).1.numerals
  item : ∀ nesting before c, AllFinite (scanItem fuel nesting before c).1.numerals
  members : ∀ nesting first c, AllFinite (scanMembers fuel nesting first c).1.numerals
  member : ∀ nesting before c, AllFinite (scanMember fuel nesting before c).1.numerals

/-- Without fuel nothing is read. -/
theorem finiteScans_zero : FiniteScans 0 where
  value _ _ := by
    rw [scanValue]
    exact allFinite_nil
  items _ _ _ := by
    rw [scanItems]
    exact allFinite_nil
  item _ _ _ := by
    rw [scanItem]
    exact allFinite_nil
  members _ _ _ := by
    rw [scanMembers]
    exact allFinite_nil
  member _ _ _ := by
    rw [scanMember]
    exact allFinite_nil

/-- With one more level of fuel, finite numbers are read if they are on the levels below. -/
theorem finiteScans_succ {fuel : Nat} (h : FiniteScans fuel) : FiniteScans (fuel + 1) where
  value nesting c := by
    simp only [scanValue]
    split
    · exact allFinite_nil
    · exact scanStringTree_finite _ _
    · exact h.items _ _ _
    · exact h.members _ _ _
    · exact scanWord_finite fun _ ↦ rfl
    · exact scanWord_finite fun _ ↦ rfl
    · exact scanWord_finite fun _ ↦ rfl
    · split
      · exact scanNumberTree_finite _ _
      · exact allFinite_nil
  items nesting first c := by
    simp only [scanItems]
    split
    · exact allFinite_nil
    · exact allFinite_nil
    · split_ifs
      · exact h.item _ _ _
      · split
        · exact allFinite_nil
        · exact allFinite_nil
        · exact h.item _ _ _
      · exact allFinite_nil
  item nesting before c := by
    have hvalue := h.value nesting c
    simp only [scanItem]
    split
    case h_1 value hscan =>
        rw [hscan] at hvalue
        exact hvalue.append allFinite_nil
    case h_2 value after hscan =>
        rw [hscan] at hvalue
        exact hvalue.append (h.items _ _ _)
  members nesting first c := by
    simp only [scanMembers]
    split
    · exact allFinite_nil
    · exact allFinite_nil
    · split_ifs
      · exact h.member _ _ _
      · exact allFinite_nil
      · split
        · exact allFinite_nil
        · exact h.member _ _ _
        · exact allFinite_nil
        · exact allFinite_nil
      · exact allFinite_nil
  member nesting before c := by
    simp only [scanMember]
    split
    case h_1 => split <;> exact allFinite_nil
    case h_2 after hskip =>
        split
        case h_1 => exact allFinite_nil
        case h_2 ch cs hrest =>
            split_ifs
            · have hvalue := h.value nesting (skipSpace cs
                (skipSpace after.rest after.position).position.next)
              split
              case h_1 value hscan =>
                  rw [hscan] at hvalue
                  exact hvalue.append allFinite_nil
              case h_2 value after' hscan =>
                  rw [hscan] at hvalue
                  exact hvalue.append (h.members _ _ _)
            · exact allFinite_nil

theorem finiteScans (fuel : Nat) : FiniteScans fuel := by
  induction fuel with
  | zero => exact finiteScans_zero
  | succ fuel ih => exact finiteScans_succ ih

/-- Every number of a document is finite. -/
theorem read_finite (text : String) : ∀ n ∈ (Document.read text).root.numerals, n.IsFinite :=
  (finiteScans _).value _ _

end Json

end Scaffold

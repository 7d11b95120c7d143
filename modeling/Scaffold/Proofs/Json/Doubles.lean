import Scaffold.Proofs.Json.Written

/-!
# Texts of doubles

The text of a finite double in a document is a number with a fraction or an exponent.  Whatever the
reader makes of its digits, it takes the text for one number and never for a whole one.
-/

namespace Scaffold.Json

open Data Value

/-! ## Parts of a number text -/

def NumberScan.ReadsFloat (scan : NumberScan) : Prop :=
  ∃ text q, scan = .read text ⟨[], q⟩ ∧ (text.fraction ≠ [] ∨ text.exponent ≠ [])

def Digits (cs : List Char) : Prop := cs ≠ [] ∧ ∀ c ∈ cs, isDigit c = true

/-- A single zero, or digits of which the first is not zero. -/
def WholePart (cs : List Char) : Prop := cs = ['0'] ∨ Digits cs ∧ cs.head? ≠ some '0'

inductive ExponentPart : List Char → Prop
  | plus {ds : List Char} (h : Digits ds) : ExponentPart ('e' :: '+' :: ds)
  | minus {ds : List Char} (h : Digits ds) : ExponentPart ('e' :: '-' :: ds)

/-- What makes a number no whole number: a fraction, an exponent, or both. -/
inductive FloatPart : List Char → Prop
  | fraction {ds : List Char} (h : Digits ds) : FloatPart ('.' :: ds)
  | exponent {cs : List Char} (h : ExponentPart cs) : FloatPart cs
  | both {ds cs : List Char} (h : Digits ds) (hcs : ExponentPart cs) : FloatPart ('.' :: (ds ++ cs))

theorem Digits.takeWhile_append {ds cs : List Char} (h : Digits ds)
    (hcs : cs.takeWhile isDigit = []) : (ds ++ cs).takeWhile isDigit = ds := by
  rw [List.takeWhile_append_of_pos h.2, hcs, List.append_nil]

theorem Digits.dropWhile_append {ds cs : List Char} (h : Digits ds)
    (hcs : cs.dropWhile isDigit = cs) : (ds ++ cs).dropWhile isDigit = cs := by
  rw [List.dropWhile_append_of_pos h.2, hcs]

theorem exponentDigits_reads {ds : List Char} (h : Digits ds) (text : NumberText)
    (negative : Bool) (p : Position) : (exponentDigits text negative ds p).ReadsFloat := by
  obtain ⟨hne, hall⟩ := h
  have htake : ds.takeWhile isDigit = ds := List.takeWhile_eq_self_iff.mpr hall
  have hdrop : ds.dropWhile isDigit = [] := List.dropWhile_eq_nil_iff.mpr hall
  cases ds with
  | nil => exact absurd rfl hne
  | cons c ds =>
      simp only [exponentDigits, if_pos (hall c List.mem_cons_self), htake, hdrop]
      exact ⟨_, _, rfl, .inr hne⟩

theorem scanExponent_reads {cs : List Char} (h : ExponentPart cs) (text : NumberText)
    (p : Position) : (scanExponent text cs p).ReadsFloat := by
  cases h with
  | plus h => exact scanExponent_plus (.inl rfl) .. ▸ exponentDigits_reads h _ _ _
  | minus h => exact scanExponent_minus (.inl rfl) .. ▸ exponentDigits_reads h _ _ _

theorem ExponentPart.head {cs : List Char} (h : ExponentPart cs) :
    ∃ ds, cs = 'e' :: ds := by
  cases h with
  | plus => exact ⟨_, rfl⟩
  | minus => exact ⟨_, rfl⟩

theorem scanFraction_point {ds cs : List Char} (h : Digits ds)
    (hcs : cs = [] ∨ ∃ es, cs = 'e' :: es) (text : NumberText) (p : Position) :
    ∃ q, scanFraction text ('.' :: (ds ++ cs)) p =
      scanExponent { text with fraction := ds } cs q := by
  have htake : cs.takeWhile isDigit = [] := by
    obtain rfl | ⟨es, rfl⟩ := hcs <;> rfl
  have hdrop : cs.dropWhile isDigit = cs := by
    obtain rfl | ⟨es, rfl⟩ := hcs <;> rfl
  refine ⟨⟨p.line, p.column + (ds.length + 1)⟩, ?_⟩
  simp only [scanFraction, h.takeWhile_append htake, h.dropWhile_append hdrop]
  cases ds with
  | nil => exact absurd rfl h.1
  | cons d ds => rfl

/-- A fraction or exponent is read to its end. -/
theorem scanFraction_reads {cs : List Char} (h : FloatPart cs) (text : NumberText)
    (p : Position) : (scanFraction text cs p).ReadsFloat := by
  cases h with
  | fraction h =>
      obtain ⟨q, hq⟩ := scanFraction_point h (.inl rfl) text p
      rw [List.append_nil] at hq
      exact ⟨_, q, hq, .inl h.1⟩
  | exponent h =>
      obtain ⟨ds, rfl⟩ := h.head
      rw [scanFraction_of_ne (by simp)]
      exact scanExponent_reads h text p
  | both h hcs =>
      obtain ⟨q, hq⟩ := scanFraction_point h (.inr hcs.head) text p
      rw [hq]
      exact scanExponent_reads hcs _ q

theorem FloatPart.head {cs : List Char} (h : FloatPart cs) :
    ∃ c ds, cs = c :: ds ∧ isDigit c = false := by
  cases h with
  | fraction | both => exact ⟨'.', _, rfl, rfl⟩
  | exponent h =>
      obtain ⟨ds, rfl⟩ := h.head
      exact ⟨'e', ds, rfl, rfl⟩

/-- A magnitude with a fraction or exponent is read to its end. -/
theorem scanMagnitude_reads {whole cs : List Char} (hwhole : WholePart whole) (h : FloatPart cs)
    (negative : Bool) (p : Position) : (scanMagnitude negative (whole ++ cs) p).ReadsFloat := by
  obtain ⟨d, ds, rfl, hd⟩ := h.head
  obtain rfl | ⟨hdigits, hzero⟩ := hwhole
  · have hnone : ((d :: ds).head?.any isDigit) = false := hd
    rw [List.singleton_append, scanMagnitude]
    simp only [hnone, show isDigit '0' = true from rfl, not_true_eq_false, if_false, if_true,
      Bool.and_false, Bool.false_eq_true]
    exact scanFraction_reads h _ _
  · have htake : (d :: ds).takeWhile isDigit = [] := List.takeWhile_cons_of_neg (by simp [hd])
    have hdrop : (d :: ds).dropWhile isDigit = d :: ds :=
      List.dropWhile_cons_of_neg (by simp [hd])
    have htake' := hdigits.takeWhile_append htake
    have hdrop' := hdigits.dropWhile_append hdrop
    obtain ⟨hne, hall⟩ := hdigits
    cases whole with
    | nil => exact absurd rfl hne
    | cons c cs =>
        have hc : c ≠ '0' := by simpa using hzero
        rw [List.cons_append] at htake' hdrop' ⊢
        simp only [scanMagnitude, hall c List.mem_cons_self, hc, htake', hdrop', not_true_eq_false,
          if_false, decide_false, Bool.false_and, Bool.false_eq_true]
        exact scanFraction_reads h _ _

theorem WholePart.head {cs : List Char} (h : WholePart cs) :
    ∃ c ds, cs = c :: ds ∧ isDigit c = true := by
  obtain rfl | ⟨⟨hne, hall⟩, -⟩ := h
  · exact ⟨'0', [], rfl, rfl⟩
  · cases cs with
    | nil => exact absurd rfl hne
    | cons c ds => exact ⟨c, ds, rfl, hall c List.mem_cons_self⟩

/-! ## Layouts -/

theorem digits_digitsOf (n : Nat) : Digits (Decimal.digitsOf n) :=
  ⟨Nat.toDigits_ne_nil, fun _ ↦ isDigit_of_mem_digitsOf⟩

theorem isDigit_of_mem_zeros {n : Nat} {c : Char} (h : c ∈ Layout.zeros n) : isDigit c = true := by
  rw [List.eq_of_mem_replicate h]
  rfl

def IsFloatText (cs : List Char) : Prop :=
  ∃ whole part, cs = whole ++ part ∧ WholePart whole ∧ FloatPart part

theorem wholePart_singleton {d : Char} (h : isDigit d = true) : WholePart [d] := by
  by_cases hd : d = '0'
  · exact .inl (by rw [hd])
  · exact .inr ⟨⟨by simp, by simpa using h⟩, by simpa using hd⟩

/-- Digits in exponential form are the text of a float. -/
theorem isFloatText_exponential {digits : List Char} (h : Digits digits) (power : Int) :
    IsFloatText (Layout.exponential digits power) := by
  have hexponent : ExponentPart
      ('e' :: (if power < 0 then '-' else '+') :: Decimal.digitsOf power.natAbs) := by
    split
    · exact .minus (digits_digitsOf _)
    · exact .plus (digits_digitsOf _)
  obtain ⟨hne, hall⟩ := h
  cases digits with
  | nil => exact absurd rfl hne
  | cons d ds =>
      have hwhole : WholePart [d] := wholePart_singleton (hall d List.mem_cons_self)
      cases ds with
      | nil => exact ⟨[d], _, rfl, hwhole, .exponent hexponent⟩
      | cons d' ds =>
          have hrest : Digits (d' :: ds) :=
            ⟨by simp, fun c hc ↦ hall c (List.mem_cons_of_mem _ hc)⟩
          exact ⟨[d], _, rfl, hwhole, .both hrest hexponent⟩

/-- Digits with a point are the text of a float. -/
theorem isFloatText_positional {digits : List Char} (h : Digits digits)
    (hzero : digits.head? ≠ some '0') (exponent : Int) :
    IsFloatText (Layout.positional true digits exponent) := by
  obtain ⟨hne, hall⟩ := h
  have hlength : 0 < digits.length := List.length_pos_iff.mpr hne
  cases exponent with
  | ofNat e =>
      have hwhole : Digits (digits ++ Layout.zeros e) :=
        ⟨by simp [hne], List.forall_mem_append.mpr ⟨hall, fun _ ↦ isDigit_of_mem_zeros⟩⟩
      refine ⟨digits ++ Layout.zeros e, ['.', '0'], rfl, .inr ⟨hwhole, ?_⟩, .fraction ?_⟩
      · rwa [List.head?_append_of_ne_nil _ hne]
      · exact ⟨by simp, List.forall_mem_singleton.mpr rfl⟩
  | negSucc e =>
      simp only [Layout.positional]
      -- the point is among the digits, or in front of them with zeros between
      split
      case isTrue hlt =>
          refine ⟨digits.take (digits.length - (e + 1)), _, rfl, .inr ⟨⟨?_, ?_⟩, ?_⟩,
            .fraction ⟨?_, ?_⟩⟩
          · rw [Ne, List.take_eq_nil_iff, not_or]
            exact ⟨by omega, hne⟩
          · exact fun c hc ↦ hall c (List.mem_of_mem_take hc)
          · rwa [List.head?_take, if_neg (by omega)]
          · rw [Ne, List.drop_eq_nil_iff]
            omega
          · exact fun c hc ↦ hall c (List.mem_of_mem_drop hc)
      case isFalse =>
          refine ⟨['0'], _, rfl, .inl rfl, .fraction ⟨by simp [hne], ?_⟩⟩
          exact List.forall_mem_append.mpr ⟨fun _ ↦ isDigit_of_mem_zeros, hall⟩

/-! ## Shortest digits -/

theorem digits_dropZeros {fuel : Nat} {d : Decimal.Scientific} (h : d.digits ≠ 0) :
    (Decimal.dropZeros fuel d).digits ≠ 0 := by
  induction fuel generalizing d with
  | zero => exact h
  | succ fuel ih =>
      rw [Decimal.dropZeros]
      split
      · refine ih ?_
        dsimp only
        omega
      · exact h

theorem tenTo_pos (e : Nat) : 0 < tenTo e := Nat.pow_pos (by decide)

theorem contains_zero {i : Decimal.Interval} (hlow : 0 < i.low * i.unitNum) (exponent : Int) :
    i.contains ⟨0, exponent⟩ = false := by
  obtain ⟨k, hk, hscale⟩ : ∃ k, 0 < k ∧ Decimal.scaleUp 0 1 exponent = (0, k) := by
    cases exponent with
    | ofNat e => exact ⟨1, Nat.one_pos, by simp [Decimal.scaleUp]⟩
    | negSucc e => exact ⟨_, Nat.mul_pos Nat.one_pos (tenTo_pos (e + 1)), rfl⟩
  have hpos : 0 < i.low * i.unitNum * k := Nat.mul_pos hlow hk
  simp only [Decimal.Interval.contains, hscale, Nat.zero_mul]
  split <;> simp only [Bool.and_eq_false_iff, decide_eq_false_iff_not] <;> omega

/-- A decimal on the grid of an interval above zero is not zero. -/
theorem digits_onGrid {tie : Decimal.Tie} {i : Decimal.Interval} (hlow : 0 < i.low * i.unitNum)
    {exponent : Int} {d : Decimal.Scientific} (h : i.onGrid tie exponent = some d) :
    d.digits ≠ 0 := by
  have hbelow : ∀ q, i.contains ⟨q, exponent⟩ = true → q ≠ 0 := by
    rintro q hq rfl
    rw [contains_zero hlow] at hq
    cases hq
  -- the upper candidate is a successor, and the lower one counts only within the interval
  unfold Decimal.Interval.onGrid at h
  split at h
  rename_i n k hscale
  dsimp only at h
  split at h
  case h_1 => cases h
  case h_2 hcontains _ =>
      cases h
      exact hbelow _ hcontains
  case h_3 =>
      cases h
      exact Nat.succ_ne_zero _
  case h_4 hcontains _ =>
      split at h
      · cases h
        exact hbelow _ hcontains
      · split at h
        · cases h
          exact Nat.succ_ne_zero _
        · split at h
          · cases h
            exact Nat.succ_ne_zero _
          · cases h
            split
            · exact hbelow _ hcontains
            · exact Nat.succ_ne_zero _

/-- Where there were no digits to be found, the text would be a zero with an exponent. -/
theorem shortest_cases (tie : Decimal.Tie) {mantissa : Nat} (hmantissa : mantissa ≠ 0)
    (exponent : Int) :
    (Decimal.shortest tie mantissa exponent).digits ≠ 0 ∨
      Decimal.shortest tie mantissa exponent = ⟨0, 17⟩ := by
  have hlow : 0 < (Decimal.Interval.of mantissa exponent).low *
      (Decimal.Interval.of mantissa exponent).unitNum := by
    refine Nat.mul_pos ?_ ?_
    · simp only [Decimal.Interval.of]
      split <;> omega
    · simp only [Decimal.Interval.of]
      cases exponent - 2 with
      | ofNat e => exact Nat.mul_pos Nat.one_pos (Nat.pow_pos (by decide))
      | negSucc e => exact Nat.one_pos
  unfold Decimal.shortest
  dsimp only
  cases hfound : (List.range 17).findSome? _ with
  | none => exact .inr rfl
  | some d =>
      obtain ⟨n, -, hn⟩ := List.exists_of_findSome?_eq_some hfound
      exact .inl (digits_dropZeros (digits_onGrid hlow hn))

theorem isFloatText_magnitudeText {mantissa : Nat} (hmantissa : mantissa ≠ 0) (exponent : Int) :
    IsFloatText (Layout.document.magnitudeText mantissa exponent) := by
  unfold Layout.magnitudeText
  rcases shortest_cases Layout.document.tie hmantissa exponent with hdigits | hzero
  · dsimp only
    split
    · exact isFloatText_exponential (digits_digitsOf _) _
    · exact isFloatText_positional (digits_digitsOf _) (head?_digitsOf hdigits) _
  · rw [hzero]
    exact isFloatText_exponential (digits_digitsOf 0) 17

/-- The text of a finite double is read to its end and is no whole number. -/
theorem scanNumber_write {x : Double} (h : x.isFinite = true) (p : Position) :
    (scanNumber (Layout.document.write x).toList p).ReadsFloat := by
  cases x with
  | nan | infinite => cases h
  | finite negative mantissa exponent =>
      have htext : IsFloatText (if mantissa = 0 then
          Layout.positional Layout.document.showPoint ['0'] 0
            else Layout.document.magnitudeText mantissa exponent) := by
        split
        · refine ⟨['0'], ['.', '0'], rfl, .inl rfl, .fraction ⟨by simp, ?_⟩⟩
          exact List.forall_mem_singleton.mpr rfl
        · exact isFloatText_magnitudeText ‹_› exponent
      obtain ⟨whole, part, heq, hwhole, hpart⟩ := htext
      simp only [Layout.write, String.toList_ofList, heq]
      cases negative with
      | true => exact scanMagnitude_reads hwhole hpart true _
      | false =>
          have hsign : ∀ ds, whole ++ part ≠ '-' :: ds := by
            intro ds hds
            obtain ⟨c, cs, rfl, hc⟩ := hwhole.head
            rw [(List.cons.inj hds).1] at hc
            cases hc
          rw [if_neg Bool.false_ne_true, scanNumber_of_ne hsign]
          exact scanMagnitude_reads hwhole hpart false p

/-! ## Numbers of a document -/

/-- A number with a fraction or an exponent is a float. -/
theorem numeral_of_float {text : NumberText} (h : text.fraction ≠ [] ∨ text.exponent ≠ [])
    {stop : Position} {n : Numeral} (hn : text.numeral stop = .ok n) : ∃ x, n = .float x := by
  have hwhole : (text.fraction.isEmpty && text.exponent.isEmpty) = false := by
    rcases h with h | h <;> simp [h]
  simp only [NumberText.numeral, hwhole, Bool.false_and, Bool.false_eq_true, if_false] at hn
  split at hn
  case h_1 =>
      split at hn
      case isTrue => cases hn
      case isFalse =>
          cases hn
          exact ⟨_, rfl⟩
  case h_2 =>
      split at hn
      case h_1 => cases hn
      case h_2 =>
          cases hn
          exact ⟨_, rfl⟩

/-- What stands for a number in a document that was written.  A whole number is itself.  A double is
what its text is read as, which may be another double, and may be out of range. -/
def WrittenNumber (t : Tree) : Numeral → Prop
  | .integer i => IsNumber t (.integer i)
  | .float x => ∃ p q value, t = .number p q value ∧
      ∀ n, value = .ok n → ∃ y, n = .float y ∧
        numeral? (Layout.document.write x).toList = some (.float y)

/-- The text of a finite double is read as a float. -/
theorem scansAs_float {x : Double} (h : x.isFinite = true) : ScansAs WrittenNumber (.float x) := by
  obtain ⟨text, q, hscan, hfloat⟩ := scanNumber_write h .origin
  refine ⟨starts_of_scanNumber hscan, fun rest hrest p ↦ ?_⟩
  obtain ⟨start, stop, hmoved⟩ := scanNumber_moved hrest _ .origin p text ⟨[], q⟩ hscan
  refine ⟨_, stop, ?_, p, stop, (text.movedTo start).numeral stop, rfl, fun n hn ↦ ?_⟩
  · simp only [scanNumberTree, numeralText, hmoved, List.nil_append]
  · -- what a text is read as does not depend on where it stands
    have hn' : text.numeral q = .ok n := NumberText.numeral_movedTo hn text.exponentStart q
    obtain ⟨y, rfl⟩ := numeral_of_float hfloat hn'
    refine ⟨y, rfl, ?_⟩
    simp only [numeral?, hscan, hn']
    rfl

theorem scansAs_integer {i : Int} (hlow : -(twoTo 63 : Int) ≤ i) (hhigh : i < twoTo 63) :
    ScansAs WrittenNumber (.integer i) := by
  obtain ⟨hstarts, hscan⟩ := Rereads.scansAs (n := .integer i) (spells_writeInt hlow hhigh)
  exact ⟨hstarts, hscan⟩

end Scaffold.Json

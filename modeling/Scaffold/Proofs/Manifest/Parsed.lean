import Scaffold.Proofs.Json.Finite
import Scaffold.Proofs.Manifest.Canonical
import Scaffold.Proofs.Manifest.Decoded

/-!
# What a manifest that was read can hold

Whatever a document says, the numbers of the manifest that is read from it can be written.
-/

namespace Scaffold

open Data Json

variable {o : Origin} {t : Tree}

/-! ## Numbers -/

theorem inFormat_of_isWord64 {i : Int} (h : isWord64 i = true) : (Double.ofInt i).InFormat := by
  obtain ⟨hlow, hhigh⟩ := Bool.and_eq_true_iff.mp h
  have hlow : -(2 ^ 63 : Int) ≤ i := of_decide_eq_true hlow
  have hhigh : i < 2 ^ 64 := of_decide_eq_true hhigh
  exact Double.inFormat_ofInt (by omega)

/-- A double that is decoded from finite numbers is finite. -/
theorem isFinite_of_double {x : Double} (ht : ∀ n ∈ t.numerals, n.IsFinite)
    (h : double o t = .ok x) : x.isFinite = true := by
  unfold double at h
  split at h
  case h_2 => exact absurd h mismatch_ne_ok
  case h_1 p q value =>
      obtain ⟨n, hn, h⟩ := bind_eq_ok.mp h
      rw [token_eq_ok] at hn
      subst hn
      cases n with
      | float y =>
          cases h
          exact ht (.float x) (by simp [Tree.numerals])
      | integer i =>
          simp only at h
          split at h
          case isTrue hword =>
              cases h
              exact (inFormat_of_isWord64 hword).isFinite
          case isFalse => exact absurd h mismatch_ne_ok

/-- A literal that is decoded from finite numbers can be written. -/
theorem fits_of_decodeLiteral {l : Literal} (ht : ∀ n ∈ t.numerals, n.IsFinite)
    (h : decodeLiteral o t = .ok l) : l.Fits := by
  unfold decodeLiteral at h
  rw [bind_eq_ok] at h
  obtain ⟨_, hbuffered, h⟩ := h
  split at h
  case h_1 =>
      cases h
      trivial
  case h_2 =>
      split at h
      case isTrue hrange =>
          cases h
          exact ⟨hrange.2, hrange.1⟩
      case isFalse =>
          cases h
          -- a whole number that was kept has 64 bits
          obtain ⟨_, -, hword⟩ := bind_eq_ok.mp hbuffered
          simp only at hword
          split at hword
          case isTrue hbits => exact (inFormat_of_isWord64 hbits).isFinite
          case isFalse => exact absurd hword mismatch_ne_ok
  case h_3 x =>
      cases h
      exact ht (.float x) (by simp [Tree.numerals])
  case h_4 =>
      cases h
      trivial
  case h_5 => cases h

/-! ## Rules -/

def RuleForm.Fits : RuleForm → Prop
  | .plain rule => rule.Fits
  | .pattern => True
  | .bound rule => ∀ x : Double, x.isFinite = true → (rule x).Fits

theorem fits_of_ruleForm {form : RuleForm} (h : ruleForm o t = .ok form) : form.Fits := by
  rw [ruleForm, bind_eq_ok] at h
  obtain ⟨name, -, h⟩ := h
  cases h
  have hforms : ∀ e ∈ ruleForms, e.2.Fits := by
    simp [ruleForms, RuleForm.Fits, Rule.Fits, Numeral.Writable]
  cases hlookup : ruleForms.lookup name with
  | none => trivial
  | some form =>
      obtain ⟨before, after, hsplit, -⟩ := List.lookup_eq_some_iff.mp hlookup
      exact hforms (name, form) (by rw [hsplit]; simp)

/-- The value of a rule that is decoded from finite numbers can be written. -/
theorem fits_of_ruleValue {form : RuleForm} {r : Rule} (hform : form.Fits)
    (ht : ∀ n ∈ t.numerals, n.IsFinite) (h : ruleValue o form t = .ok r) : r.Fits := by
  cases form with
  | plain rule =>
      simp only [ruleValue] at h
      split at h
      case h_1 =>
          cases h
          exact hform
      case h_2 => exact absurd h mismatchEntered_ne_ok
  | pattern =>
      obtain ⟨s, -, rfl⟩ := map_eq_ok.mp h
      trivial
  | bound rule =>
      obtain ⟨x, hx, rfl⟩ := map_eq_ok.mp h
      exact hform x (isFinite_of_double ht hx)

/-- What is known of a rule that is still being read. -/
def RuleProgress.Fits : RuleProgress → Prop
  | .nothing => True
  | .named form => form.Fits
  | .valued value => ∀ n ∈ value.numerals, n.IsFinite
  | .complete rule => rule.Fits

/-- A rule that is still being read goes on fitting. -/
theorem fits_of_ruleStep {p p' : RuleProgress} {key : String} {read : Tree → Decoded RuleProgress}
    (hstep : ruleStep o p key = .ok read) (ht : ∀ n ∈ t.numerals, n.IsFinite) (hp : p.Fits)
    (h : read t = .ok p') : p'.Fits := by
  unfold ruleStep at hstep
  split at hstep
  case h_1 =>
      cases hstep
      obtain ⟨form, hform, rfl⟩ := map_eq_ok.mp h
      exact fits_of_ruleForm hform
  case h_2 value =>
      cases hstep
      obtain ⟨form, hform, h⟩ := bind_eq_ok.mp h
      split at h
      case h_1 rule hrule =>
          cases h
          exact fits_of_ruleValue (fits_of_ruleForm hform) hp hrule
      case h_2 => cases h
  case h_3 => cases hstep
  case h_4 =>
      cases hstep
      obtain ⟨-, -, h⟩ := bind_eq_ok.mp h
      cases h
      exact ht
  case h_5 form =>
      cases hstep
      obtain ⟨rule, hrule, rfl⟩ := map_eq_ok.mp h
      exact fits_of_ruleValue hp ht hrule
  case h_6 => cases hstep
  case h_7 =>
      cases hstep
      obtain ⟨-, -, h⟩ := bind_eq_ok.mp h
      cases h
      exact hp

theorem fits_of_ruleFinish {p : RuleProgress} {r : Rule} (hp : p.Fits)
    (h : ruleFinish p = .ok r) : r.Fits := by
  unfold ruleFinish at h
  split at h <;> cases h <;> exact hp

/-- A rule that is decoded from finite numbers can be written. -/
theorem fits_of_decodeRule {r : Rule} (ht : ∀ n ∈ t.numerals, n.IsFinite)
    (h : decodeRule o t = .ok r) : r.Fits := by
  unfold decodeRule at h
  split at h
  case h_1 start nesting members =>
      obtain ⟨-, -, h⟩ := bind_eq_ok.mp h
      obtain ⟨p, hwalk, h⟩ := bind_eq_ok.mp h
      have hstart : RuleProgress.nothing.Fits := trivial
      have hp : p.Fits := walkMembers_induction
        (fun p key read t p' hstep ht hp h ↦ fits_of_ruleStep hstep ht hp h) ht hstart hwalk
      split at h
      case h_1 rule hfinish =>
          cases h
          exact fits_of_ruleFinish hp hfinish
      case h_2 => cases h
  case h_2 start nesting items =>
      obtain ⟨-, -, h⟩ := bind_eq_ok.mp h
      split at h
      case h_1 =>
          obtain ⟨-, -, h⟩ := bind_eq_ok.mp h
          cases h
      case h_2 name rest =>
          obtain ⟨form, hform, h⟩ := bind_eq_ok.mp h
          split at h
          case h_1 =>
              obtain ⟨-, -, h⟩ := bind_eq_ok.mp h
              cases h
          case h_2 value rest =>
              obtain ⟨rule, hrule, h⟩ := bind_eq_ok.mp h
              obtain ⟨-, -, h⟩ := bind_eq_ok.mp h
              cases h
              refine fits_of_ruleValue (fits_of_ruleForm (placed_eq_ok.mp hform)) ?_
                (placed_eq_ok.mp hrule)
              intro n hn
              exact ht n (by simp [Tree.numerals, Items.numerals, hn])
  case h_3 => exact absurd h mismatch_ne_ok

/-! ## Fields -/

def FieldDraft.Fits (d : FieldDraft) : Prop :=
  (∀ l, d.default = some l → l.Fits) ∧ (∀ r ∈ d.rules, r.Fits) ∧
    (∀ x, d.min = some x → x.isFinite = true) ∧ ∀ x, d.max = some x → x.isFinite = true

/-- Every slot of a field keeps its draft writable. -/
theorem fieldSlots_keep : ∀ slot ∈ fieldSlots o, slot.Keeps Numeral.IsFinite FieldDraft.Fits := by
  simp only [fieldSlots, List.forall_mem_cons]
  -- most slots set a member that no number is in
  refine ⟨Slot.keeps_of_put fun _ _ hd ↦ hd,
    Slot.keeps_of_put fun _ _ hd ↦ hd,
    Slot.keeps_of_put fun _ _ hd ↦ hd,
    Slot.keeps_of_put fun _ _ hd ↦ hd,
    Slot.keeps_optional (fun _ hd ↦ ⟨by simp, hd.2⟩) fun t l _ ht hl hd ↦ ?_,
    Slot.keeps_of_put fun _ _ hd ↦ hd,
    Slot.keeps_of_put fun _ _ hd ↦ hd,
    Slot.keeps_of_put fun _ _ hd ↦ hd,
    Slot.keeps_map fun t rules _ ht hrules hd ↦ ?_,
    Slot.keeps_of_put fun _ _ hd ↦ hd,
    Slot.keeps_of_put fun _ _ hd ↦ hd,
    Slot.keeps_of_put fun _ _ hd ↦ hd,
    Slot.keeps_optional (fun _ hd ↦ ⟨hd.1, hd.2.1, by simp, hd.2.2.2⟩) fun t x _ ht hx hd ↦ ?_,
    Slot.keeps_optional (fun _ hd ↦ ⟨hd.1, hd.2.1, hd.2.2.1, by simp⟩) fun t x _ ht hx hd ↦ ?_,
    Slot.keeps_of_put fun _ _ hd ↦ hd,
    Slot.keeps_of_put fun _ _ hd ↦ hd, by simp⟩
  · refine ⟨?_, hd.2⟩
    rintro l' ⟨⟩
    exact fits_of_decodeLiteral ht hl
  · exact ⟨hd.1, forall_mem_of_list (fun _ _ ↦ fits_of_decodeRule) ht hrules, hd.2.2⟩
  · refine ⟨hd.1, hd.2.1, ?_, hd.2.2.2⟩
    rintro x' ⟨⟩
    exact isFinite_of_double ht hx
  · refine ⟨hd.1, hd.2.1, hd.2.2.1, ?_⟩
    rintro x' ⟨⟩
    exact isFinite_of_double ht hx

/-- Shorthands of a draft that fits give rules that fit. -/
theorem fits_shorthands {d : FieldDraft} (hd : d.Fits) : ∀ r ∈ d.shorthands, r.Fits := by
  have hswitched : ∀ (rule : Rule) (switch : Option Bool), rule.Fits →
      ∀ r ∈ FieldDraft.switched rule switch, r.Fits := by
    intro rule switch hrule
    unfold FieldDraft.switched
    split
    · simpa using hrule
    · simp
  simp only [FieldDraft.shorthands, List.forall_mem_append, List.forall_mem_map,
    Option.mem_toList]
  exact ⟨⟨⟨⟨⟨⟨hswitched _ _ trivial, hswitched _ _ trivial⟩, fun _ _ ↦ trivial⟩,
    hd.2.2.1⟩, hd.2.2.2⟩, hswitched _ _ trivial⟩, hswitched _ _ trivial⟩

theorem fits_of_decodeField {f : Field} (ht : ∀ n ∈ t.numerals, n.IsFinite)
    (h : decodeField o t = .ok f) : f.Fits := by
  obtain ⟨d, hread, hsettle⟩ := decodeField_eq_ok h
  have hempty : FieldDraft.Fits {} := ⟨by simp, by simp, by simp, by simp⟩
  have hd : d.Fits := record_induction fieldSlots_keep ht hempty hread
  obtain ⟨hdefault, hrules⟩ := settle_eq_ok hsettle
  exact ⟨hdefault ▸ hd.1, hrules ▸ List.forall_mem_append.mpr ⟨hd.2.1, fits_shorthands hd⟩⟩

/-! ## The manifest -/

theorem Entity.fits_iff {e : Entity} : e.Fits ↔ ∀ f ∈ e.everyField, f.Fits := by
  rw [forall_everyField]
  exact ⟨fun h ↦ ⟨h.fields, h.relations⟩, fun h ↦ ⟨h.1, h.2⟩⟩

/-- What a document can hold is a matter of each field. -/
theorem Manifest.fits_iff {m : Manifest} : m.Fits ↔ ∀ f ∈ m.everyField, f.Fits := by
  rw [forall_everyField, Fits]
  exact forall₂_congr fun e _ ↦ Entity.fits_iff

/-- A manifest that is read from finite numbers is one that a document can hold. -/
theorem fits_of_decodeManifest {m : Manifest} (ht : ∀ n ∈ t.numerals, n.IsFinite)
    (h : decodeManifest o t = .ok m) : m.Fits :=
  Manifest.fits_iff.mpr (forall_everyField_of_decodeManifest (fun _ _ ↦ fits_of_decodeField) ht h)

end Scaffold

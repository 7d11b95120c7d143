import Scaffold.Manifest.Define
import Scaffold.Proofs.Manifest.Recovery
import Scaffold.Proofs.Manifest.RoundTrip
import Scaffold.Proofs.Validity

/-!
# Valid manifests and their canonical documents

Manifests come from texts of two kinds or are put together in code, and not all of their numbers can
stand in a canonical document.  Validation takes only finite bounds, but any number as a default: an
infinite default, or one that is no number, is written as null and is gone when the document is
read.  Besides such defaults, only the rounding of the reader keeps a valid manifest from coming
back from its canonical document.
-/

namespace Scaffold

open Data Json

variable {o : Origin} {e : Entity} {m : Manifest}

/-! ## Whole numbers -/

/-- A default that is a whole number has 64 bits. -/
def Field.Sized (f : Field) : Prop :=
  ∀ i, f.default = some (.integer i) → Numeral.Writable (.integer i)

def Relation.Sized (r : Relation) : Prop :=
  ∀ p, r.pivot = some p → ∀ f ∈ p.fields.entries, f.2.Sized

def Entity.Sized (e : Entity) : Prop := ∀ f ∈ e.everyField, f.Sized

def Manifest.Sized (m : Manifest) : Prop := ∀ f ∈ m.everyField, f.Sized

theorem writable_of_decodeLiteral {t : Tree} {i : Int}
    (h : decodeLiteral o t = .ok (.integer i)) : Numeral.Writable (.integer i) := by
  obtain ⟨-, -, h⟩ := bind_eq_ok.mp h
  split at h
  case h_2 =>
      split at h
      case isTrue hrange =>
          cases h
          exact ⟨hrange.2, hrange.1⟩
      case isFalse => cases h
  all_goals cases h

/-- A default that is decoded as a whole number has 64 bits. -/
theorem sized_of_decodeField {t : Tree} {f : Field} (h : decodeField o t = .ok f) : f.Sized := by
  obtain ⟨d, hd, hsettle⟩ := decodeField_eq_ok h
  have hdefault : ∀ i, d.default = some (.integer i) → Numeral.Writable (.integer i) := by
    refine default_onlyChangedBy.record_induction (P := fun _ ↦ True)
      (motive := fun default ↦ ∀ i, default = some (.integer i) → Numeral.Writable (.integer i))
      ?_ (by simp) (by simp) hd
    simp only [fieldSlots, List.forall_mem_cons, Slot.required, Slot.optional, Slot.defaulted,
      String.reduceEq, false_implies, true_implies, true_and]
    refine ⟨Slot.keeps_optional (by simp) fun t l _ _ hl _ ↦ ?_, by simp⟩
    rintro i ⟨⟩
    exact writable_of_decodeLiteral hl
  rw [Field.Sized, (settle_eq_ok hsettle).1]
  exact hdefault

theorem Manifest.sized_of_ofJson {source : String} (h : Manifest.ofJson source = .ok m) :
    m.Sized := by
  obtain ⟨_, hread, h⟩ := bind_eq_ok.mp (mapError_eq_ok.mp h)
  obtain ⟨-, -, h⟩ := bind_eq_ok.mp h
  cases h
  exact forall_everyField_of_decodeManifest (P := fun _ ↦ True) (fun _ _ _ ↦ sized_of_decodeField)
    (by simp) hread

theorem Manifest.sized_of_ofToml {source : String} (h : Manifest.ofToml source = .ok m) :
    m.Sized := by
  unfold Manifest.ofToml at h
  split at h
  case h_1 => cases h
  case h_2 =>
      exact forall_everyField_of_decodeManifest (P := fun _ ↦ True)
        (fun _ _ _ ↦ sized_of_decodeField) (by simp) (mapError_eq_ok.mp h)

theorem Field.sized_withDefault {f : Field} {l : Literal}
    (h : ∀ i, l = .integer i → Numeral.Writable (.integer i)) : (f.withDefault l).Sized :=
  fun i hi ↦ h i (Option.some.inj hi)

theorem Field.Sized.withRule {f : Field} (h : f.Sized) (r : Rule) : (f.withRule r).Sized := h

theorem Relation.Sized.withPivotField {r : Relation} (h : r.Sized) (name : String) {f : Field}
    (hf : f.Sized) : (r.withPivotField name f).Sized := by
  rintro p ⟨⟩ q hq
  rcases Assoc.mem_put hq with rfl | hq
  · exact hf
  · cases hpivot : r.pivot with
    | none => simp [hpivot] at hq
    | some p => exact h p hpivot q (by simpa [hpivot] using hq)

theorem Entity.Sized.withField (h : e.Sized) (name : String) {f : Field} (hf : f.Sized) :
    (e.withField name f).Sized := by
  obtain ⟨hfields, hpivots⟩ := Entity.forall_everyField.mp h
  refine Entity.forall_everyField.mpr ⟨fun g hg ↦ ?_, hpivots⟩
  rcases Assoc.mem_put hg with rfl | hg
  · exact hf
  · exact hfields g hg

theorem Entity.Sized.withRelation (h : e.Sized) (name : String) {r : Relation} (hr : r.Sized) :
    (e.withRelation name r).Sized := by
  obtain ⟨hfields, hpivots⟩ := Entity.forall_everyField.mp h
  refine Entity.forall_everyField.mpr ⟨hfields, fun q hq ↦ ?_⟩
  rcases Assoc.mem_put hq with rfl | hq
  · exact hr
  · exact hpivots q hq

theorem Manifest.Sized.withEntity (h : m.Sized) (he : e.Sized) : (m.withEntity e).Sized :=
  Manifest.forall_everyField.mpr <| List.forall_mem_append.mpr
    ⟨Manifest.forall_everyField.mp h, List.forall_mem_singleton.mpr he⟩

/-- The ways in which a manifest comes about.  In code, a whole number has 64 bits. -/
inductive Manifest.Supplied : Manifest → Prop
  | json {source : String} {m : Manifest} (h : Manifest.ofJson source = .ok m) : Supplied m
  | toml {source : String} {m : Manifest} (h : Manifest.ofToml source = .ok m) : Supplied m
  | code {m : Manifest} (hsized : m.Sized) : Supplied m

theorem Manifest.Supplied.sized (h : m.Supplied) : m.Sized := by
  cases h with
  | json h => exact sized_of_ofJson h
  | toml h => exact sized_of_ofToml h
  | code hsized => exact hsized

/-! ## Bounds of rules -/

/-- A rule without findings has a bound that can be written. -/
theorem Lint.fits_of_rule [Pattern.Checker] {place : FieldPlace} {kind : FieldKind} {r : Rule}
    {index : Nat} (h : Lint.rule place kind r index = []) : r.Fits := by
  have hfinite : ∀ bound, isBound kind bound = true → bound.isFinite = true := fun _ hbound ↦
    (Bool.and_eq_true_iff.mp hbound).1
  unfold Lint.rule at h
  split at h
  case isTrue => cases h
  case isFalse =>
      cases r with
      | email | url | integer | positive | regex => trivial
      | min bound | max bound =>
          simp only [ite_eq_left_iff] at h
          by_contra hfits
          exact absurd (h fun hbound ↦ hfits (hfinite bound hbound)) (by simp)

theorem Lint.fits_of_fieldMap [Pattern.Checker] {owner : FieldsOf} {fields : Assoc Field}
    (h : Lint.fieldMap owner fields = []) : ∀ f ∈ fields.entries, ∀ r ∈ f.2.rules, r.Fits := by
  intro f hf r hr
  have hfield := List.flatMap_eq_nil_iff.mp h f hf
  simp only [Lint.field, Lint.rules, List.append_eq_nil_iff, List.flatMap_eq_nil_iff] at hfield
  obtain ⟨p, hp, rfl⟩ := List.mem_map.mp ((List.zipIdx_map_fst 0 f.2.rules).symm ▸ hr)
  exact fits_of_rule (hfield.1.1.1.1 p hp)

theorem Lint.fits_of_fields [Pattern.Checker] (h : Lint.fields m = []) :
    ∀ f ∈ m.everyField, ∀ r ∈ f.rules, r.Fits := by
  refine Manifest.forall_everyField.mpr fun e he ↦ Entity.forall_everyField.mpr ?_
  have hentity := List.flatMap_eq_nil_iff.mp h e he
  rw [List.append_eq_nil_iff, List.flatMap_eq_nil_iff] at hentity
  refine ⟨fits_of_fieldMap hentity.1, fun r hr p hp ↦ ?_⟩
  have hpivot := hentity.2 r hr
  rw [hp] at hpivot
  exact fits_of_fieldMap hpivot

theorem Entity.everyField_normalize (defaults : Option Defaults) (source : Option Source) :
    (e.normalize defaults source).everyField = e.everyField.map Field.normalize := by
  have hpivot (r : Relation) : (r.normalize.pivot.map Pivot.fields).getD {} =
      normalizeFields ((r.pivot.map Pivot.fields).getD {}) := by
    rw [Relation.normalize]
    cases r.pivot <;> rfl
  simp only [everyField, normalize, normalizeFields, Assoc.entries_mapValues, List.map_append,
    List.map_flatMap, List.flatMap_map, List.map_map, hpivot, Function.comp_def]

theorem Manifest.everyField_normalize :
    m.normalize.everyField = m.everyField.map Field.normalize := by
  rw [everyField, everyField, normalize, List.flatMap_map, List.map_flatMap]
  exact List.flatMap_congr fun e _ ↦ Entity.everyField_normalize m.defaults m.source

/-- Wherever a rule of a valid manifest stands, its bound is finite. -/
theorem Manifest.bounds_of_valid [Pattern.Checker] (h : m.validate.valid = true) :
    ∀ f ∈ m.everyField, ∀ r ∈ f.rules, r.Fits := by
  obtain ⟨-, -, -, -, hfields⟩ := m.valid_iff.mp h
  intro f hf
  exact Lint.fits_of_fields hfields f.normalize
    (everyField_normalize (m := m) ▸ List.mem_map_of_mem hf)

/-! ## Coming back -/

theorem Data.Numeral.Writable.scansAs {n : Numeral} (h : n.Writable) :
    ScansAs WrittenNumber n := by
  cases n with
  | integer i => exact scansAs_integer h.1 h.2
  | float x => exact scansAs_float h

/-- What comes back from its text has numbers that are read back. -/
theorem Recovers.readBack {α : Type} {decode : Tree → Decoded α} {v : Value} {a : α} {k : Nat}
    (h : Recovers decode v a) (hwithin : Within Numeral.Writable k v) (hk : k < nestingLimit)
    (hback : decodeText decode v.pretty = .ok a) : v.ReadBack := by
  obtain ⟨hroot, -⟩ := read_written (hwithin.imp fun _ _ ↦ Numeral.Writable.scansAs) hk
  obtain ⟨n, hread, hback⟩ := bind_eq_ok.mp hback
  obtain ⟨-, -, hback⟩ := bind_eq_ok.mp hback
  cases hback
  exact h _ hroot hread

theorem Manifest.readBack_of_ofJson_canonical (h : Manifest.ofJson m.canonical = .ok m) :
    m.toJson.ReadBack :=
  (recovers_manifest m).readBack (within_manifest (fits_of_ofJson h)) (by decide)
    (ofJson_eq_ok.mp h)

/-- Validation takes care of the bounds of rules in all fields, and of no default: a valid manifest,
wherever it comes from, comes back from its canonical document exactly if its defaults are finite
and the finite numbers in the document are read back. -/
theorem Manifest.survives_canonical_iff [Pattern.Checker] (h : m.Supplied)
    (hvalid : m.validate.valid = true) :
    (∀ f ∈ m.everyField, ∀ r ∈ f.rules, r.Fits) ∧
      (Manifest.ofJson m.canonical = .ok m ↔
        (∀ f ∈ m.everyField, ∀ x, f.default = some (.float x) → x.isFinite = true) ∧
          ∀ x, .float x ∈ m.toJson.numerals → x.isFinite = true → ReadsBack x) := by
  have hbounds := bounds_of_valid hvalid
  refine ⟨hbounds, fun hback ↦ ⟨fun f hf x hx ↦ ?_, fun x hx _ ↦ ?_⟩, ?_⟩
  · exact (fits_iff.mp (fits_of_ofJson hback) f hf).default (.float x) hx
  · exact readBack_of_ofJson_canonical hback x hx
  · -- whole numbers fit wherever the manifest comes from, and bounds as it is valid
    rintro ⟨hdefaults, hreads⟩
    refine (fits_iff.mpr fun f hf ↦ ⟨fun l hl ↦ ?_, hbounds f hf⟩).ofJson_canonical hreads
    cases l with
    | text | flag => trivial
    | integer i => exact h.sized f hf i hl
    | float x => exact hdefaults f hf x hl

/-- Posts with a rank and weighted tags, put together in code. -/
def rankedPosts : Manifest :=
  let rank := (Field.number.withDefault (.float (Double.round false 1 2))).withRule (.min .zero)
  let weight := Field.number.withDefault (.integer 1)
  let tags := (Relation.belongsToMany "Tag").withPivotField "weight" weight
  let post := (({ name := "Post" } : Entity).withField "rank" rank).withRelation "tags" tags
  let tag := ({ name := "Tag" } : Entity).withField "label" Field.text
  ((({} : Manifest).withDatabase { kind := .sqlite, file := some "app.db" }).withEntity
    post).withEntity tag

theorem Manifest.survives_canonical_rankedPosts :
    rankedPosts.validate.valid = true ∧
      Manifest.ofJson rankedPosts.canonical = .ok rankedPosts := by
  have hrank : (Field.number.withDefault (.float (Double.round false 1 2))).Sized :=
    Field.sized_withDefault (by simp)
  have hweight : (Field.number.withDefault (.integer 1)).Sized :=
    Field.sized_withDefault fun i hi ↦ by
      cases hi
      exact ⟨by decide, by decide⟩
  have htags : (Relation.belongsToMany "Tag").Sized := by
    simp [Relation.Sized, Relation.belongsToMany]
  have hentity (name : String) : Entity.Sized { name } := by simp [Entity.Sized, Entity.everyField]
  have hsized : rankedPosts.Sized := by
    refine Manifest.Sized.withEntity (Manifest.Sized.withEntity ?_ ?_) ?_
    · simp [Manifest.Sized, Manifest.everyField, Manifest.withDatabase]
    · exact ((hentity "Post").withField "rank" (hrank.withRule _)).withRelation "tags"
        (htags.withPivotField "weight" hweight)
    · exact (hentity "Tag").withField "label" (by simp [Field.Sized, Field.text])
  have hvalid : rankedPosts.validate.valid = true := by decide +kernel
  have hdefaults : ∀ l ∈ rankedPosts.everyField.map Field.default, ∀ x, l = some (.float x) →
      x = Double.round false 1 2 := by
    have hlist : rankedPosts.everyField.map Field.default =
      [some (.float (Double.round false 1 2)), some (.integer 1), none] := rfl
    simp [hlist]
  have hnumerals : rankedPosts.toJson.numerals =
    [.float (Double.round false 1 2), .float .zero, .integer 1] := rfl
  refine ⟨hvalid, (survives_canonical_iff (.code hsized) hvalid).2.mpr ⟨?_, ?_⟩⟩
  · intro f hf x hx
    rw [hdefaults f.default (List.mem_map_of_mem hf) x hx]
    decide +kernel
  · intro x hx _
    rw [hnumerals] at hx
    have hx : x = Double.round false 1 2 ∨ x = .zero := by simpa using hx
    rcases hx with rfl | rfl <;> decide +kernel

def boundlessPost : String :=
  "[database]\ntype = \"sqlite\"\nfile = \"app.db\"\n\n[[entities]]\nname = \"Post\"\n" ++
    "[entities.fields.rank]\ntype = \"number\"\ndefault = inf\n"

theorem Manifest.loses_infinite_default :
    ∃ m n, Manifest.ofToml boundlessPost = .ok m ∧ m.validate.valid = true ∧
      m.everyField.map Field.default = [some (.float (.infinite false))] ∧
      Manifest.ofJson m.canonical = .ok n ∧ n.everyField.map Field.default = [none] ∧ n ≠ m := by
  have hread : (Manifest.ofToml boundlessPost).toOption.any (fun m ↦ m.validate.valid &&
      decide (m.everyField.map Field.default = [some (.float (.infinite false))]) &&
      (Manifest.ofJson m.canonical).toOption.any fun n ↦
        n.everyField.map Field.default = [none]) = true := by
    decide +kernel
  obtain ⟨m, hm, hread⟩ := exists_ok_of_any hread
  obtain ⟨hread, hback⟩ := Bool.and_eq_true_iff.mp hread
  obtain ⟨hvalid, hdefault⟩ := Bool.and_eq_true_iff.mp hread
  obtain ⟨n, hn, hgone⟩ := exists_ok_of_any hback
  have hdefault := of_decide_eq_true hdefault
  have hgone := of_decide_eq_true hgone
  refine ⟨m, n, hm, hvalid, hdefault, hn, hgone, ?_⟩
  rintro rfl
  simp [hdefault] at hgone

end Scaffold

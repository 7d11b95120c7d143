import Scaffold.Manifest.Decode
import Scaffold.Proofs.Data.Invariants

/-!
# Entities and fields of a decoded manifest

Entities come as a list or as a map, and their names from inside or from outside.  What holds of
every draft of an entity, and does not depend on its name, holds of all of them.  What holds of
every field that is decoded holds of the fields of all entities and junction tables.
-/

namespace Scaffold

open Data

variable {o : Origin} {P : Numeral → Prop} {Q : Entity → Prop} {R : Field → Prop}

/-! ## Parts that a single member sets -/

theorem default_onlyChangedBy : OnlyChangedBy (fieldSlots o) "default" FieldDraft.default := by
  simp only [OnlyChangedBy, fieldSlots, List.forall_mem_cons]
  exact ⟨fun _ ↦ Slot.keeps_part fun _ _ ↦ rfl, fun _ ↦ Slot.keeps_part fun _ _ ↦ rfl,
    fun _ ↦ Slot.keeps_part fun _ _ ↦ rfl, fun _ ↦ Slot.keeps_part fun _ _ ↦ rfl,
    fun h ↦ absurd rfl h, fun _ ↦ Slot.keeps_part fun _ _ ↦ rfl,
    fun _ ↦ Slot.keeps_part fun _ _ ↦ rfl, fun _ ↦ Slot.keeps_part fun _ _ ↦ rfl,
    fun _ ↦ Slot.keeps_part fun _ _ ↦ rfl, fun _ ↦ Slot.keeps_part fun _ _ ↦ rfl,
    fun _ ↦ Slot.keeps_part fun _ _ ↦ rfl, fun _ ↦ Slot.keeps_part fun _ _ ↦ rfl,
    fun _ ↦ Slot.keeps_part fun _ _ ↦ rfl, fun _ ↦ Slot.keeps_part fun _ _ ↦ rfl,
    fun _ ↦ Slot.keeps_part fun _ _ ↦ rfl, fun _ ↦ Slot.keeps_part fun _ _ ↦ rfl, by simp⟩

theorem rules_onlyChangedBy : OnlyChangedBy (fieldSlots o) "validations" FieldDraft.rules := by
  simp only [OnlyChangedBy, fieldSlots, List.forall_mem_cons]
  exact ⟨fun _ ↦ Slot.keeps_part fun _ _ ↦ rfl, fun _ ↦ Slot.keeps_part fun _ _ ↦ rfl,
    fun _ ↦ Slot.keeps_part fun _ _ ↦ rfl, fun _ ↦ Slot.keeps_part fun _ _ ↦ rfl,
    fun _ ↦ Slot.keeps_part fun _ _ ↦ rfl, fun _ ↦ Slot.keeps_part fun _ _ ↦ rfl,
    fun _ ↦ Slot.keeps_part fun _ _ ↦ rfl, fun _ ↦ Slot.keeps_part fun _ _ ↦ rfl,
    fun h ↦ absurd rfl h, fun _ ↦ Slot.keeps_part fun _ _ ↦ rfl,
    fun _ ↦ Slot.keeps_part fun _ _ ↦ rfl, fun _ ↦ Slot.keeps_part fun _ _ ↦ rfl,
    fun _ ↦ Slot.keeps_part fun _ _ ↦ rfl, fun _ ↦ Slot.keeps_part fun _ _ ↦ rfl,
    fun _ ↦ Slot.keeps_part fun _ _ ↦ rfl, fun _ ↦ Slot.keeps_part fun _ _ ↦ rfl, by simp⟩

theorem pivotFields_onlyChangedBy : OnlyChangedBy (pivotSlots o) "fields" Pivot.fields := by
  simp only [OnlyChangedBy, pivotSlots, List.forall_mem_cons]
  exact ⟨fun _ ↦ Slot.keeps_part fun _ _ ↦ rfl, fun h ↦ absurd rfl h, by simp⟩

theorem pivot_onlyChangedBy : OnlyChangedBy (relationSlots o) "pivot" Relation.pivot := by
  simp only [OnlyChangedBy, relationSlots, List.forall_mem_cons]
  exact ⟨fun _ ↦ Slot.keeps_part fun _ _ ↦ rfl, fun _ ↦ Slot.keeps_part fun _ _ ↦ rfl,
    fun _ ↦ Slot.keeps_part fun _ _ ↦ rfl, fun h ↦ absurd rfl h,
    fun _ ↦ Slot.keeps_part fun _ _ ↦ rfl, by simp⟩

theorem entityFields_onlyChangedBy :
    OnlyChangedBy (entitySlots o) "fields" fun d ↦ d.entity.fields := by
  simp only [OnlyChangedBy, entitySlots, List.forall_mem_cons]
  exact ⟨fun _ ↦ Slot.keeps_part fun _ _ ↦ rfl, fun _ ↦ Slot.keeps_part fun _ _ ↦ rfl,
    fun h ↦ absurd rfl h, fun _ ↦ Slot.keeps_part fun _ _ ↦ rfl,
    fun _ ↦ Slot.keeps_part fun _ _ ↦ rfl, fun _ ↦ Slot.keeps_part fun _ _ ↦ rfl,
    fun _ ↦ Slot.keeps_part fun _ _ ↦ rfl, by simp⟩

theorem entityRelations_onlyChangedBy :
    OnlyChangedBy (entitySlots o) "relations" fun d ↦ d.entity.relations := by
  simp only [OnlyChangedBy, entitySlots, List.forall_mem_cons]
  exact ⟨fun _ ↦ Slot.keeps_part fun _ _ ↦ rfl, fun _ ↦ Slot.keeps_part fun _ _ ↦ rfl,
    fun _ ↦ Slot.keeps_part fun _ _ ↦ rfl, fun h ↦ absurd rfl h,
    fun _ ↦ Slot.keeps_part fun _ _ ↦ rfl, fun _ ↦ Slot.keeps_part fun _ _ ↦ rfl,
    fun _ ↦ Slot.keeps_part fun _ _ ↦ rfl, by simp⟩

theorem entities_onlyChangedBy : OnlyChangedBy (manifestSlots o) "entities" Manifest.entities := by
  simp only [OnlyChangedBy, manifestSlots, List.forall_mem_cons]
  exact ⟨fun _ ↦ Slot.keeps_part fun _ _ ↦ rfl, fun h ↦ absurd rfl h,
    fun _ ↦ Slot.keeps_part fun _ _ ↦ rfl, fun _ ↦ Slot.keeps_part fun _ _ ↦ rfl,
    fun _ ↦ Slot.keeps_part fun _ _ ↦ rfl, fun _ ↦ Slot.keeps_part fun _ _ ↦ rfl,
    fun _ ↦ Slot.keeps_part fun _ _ ↦ rfl, fun _ ↦ Slot.keeps_part fun _ _ ↦ rfl,
    fun _ ↦ Slot.keeps_part fun _ _ ↦ rfl, fun _ ↦ Slot.keeps_part fun _ _ ↦ rfl,
    fun _ ↦ Slot.keeps_part fun _ _ ↦ rfl, by simp⟩

/-! ## Entities -/

theorem settled_eq_ok {α : Type} {r : Except ShapeError α} {a : α} :
    settled r = .ok a ↔ r = .ok a := by
  cases r <;> simp [settled, fail]

theorem EntityDraft.eq_of_named {d : EntityDraft} {e : Entity} (h : d.named = .ok e) :
    e = { d.entity with name := e.name } := by
  unfold EntityDraft.named at h
  split at h
  case h_1 =>
      cases h
      rfl
  case h_2 => cases h

/-- An entity that is kept under a name has this name, whatever the draft says. -/
theorem EntityDraft.eq_of_under {d : EntityDraft} {name : String} {e : Entity}
    (h : d.under name = .ok e) : e = { d.entity with name } := by
  unfold EntityDraft.under at h
  split at h
  case h_1 =>
      split at h
      case isTrue =>
          cases h
          rfl
      case isFalse => cases h
  case h_2 =>
      cases h
      rfl

/-- What reading an entry of a map of entities comes to. -/
theorem entityStep_eq_ok {read es : List Entity} {name : String}
    {look : Tree → Decoded (List Entity)} {t : Tree} (hstep : entityStep o read name = .ok look)
    (h : look t = .ok es) :
    name ∉ read.map Entity.name ∧
      ∃ d e, decodeEntityDraft o t = .ok d ∧ d.under name = .ok e ∧ es = e :: read := by
  unfold entityStep at hstep
  split at hstep
  case isTrue => cases hstep
  case isFalse hnew =>
      cases hstep
      obtain ⟨d, hd, h⟩ := bind_eq_ok.mp h
      obtain ⟨e, he, h⟩ := bind_eq_ok.mp h
      cases h
      exact ⟨by simpa using hnew, d, e, hd, settled_eq_ok.mp he, rfl⟩

section

variable (hname : ∀ e name, Q e → Q { e with name })
  (hdraft : ∀ t d, (∀ n ∈ t.numerals, P n) → decodeEntityDraft o t = .ok d → Q d.entity)

include hname hdraft

/-- What holds of every entity that is decoded holds of all entities of a document. -/
theorem forall_mem_of_decodeEntities {t : Tree} {es : List Entity} (ht : ∀ n ∈ t.numerals, P n)
    (h : decodeEntities o t = .ok es) : ∀ e ∈ es, Q e := by
  unfold decodeEntities at h
  split at h
  case h_1 start nesting items =>
      obtain ⟨-, -, h⟩ := bind_eq_ok.mp h
      obtain ⟨read, hwalk, h⟩ := bind_eq_ok.mp h
      cases h
      have hread : ∀ e ∈ read, Q e := by
        refine walkItems_induction (motive := fun es ↦ ∀ e ∈ es, Q e) ?_ ht (by simp) hwalk
        intro es t es' ht hes h
        obtain ⟨e, he, rfl⟩ := map_eq_ok.mp h
        obtain ⟨d, hd, he⟩ := bind_eq_ok.mp he
        refine List.forall_mem_cons.mpr ⟨?_, hes⟩
        rw [EntityDraft.eq_of_named (settled_eq_ok.mp he)]
        exact hname _ _ (hdraft t d ht hd)
      exact fun e he ↦ hread e (List.mem_reverse.mp he)
  case h_2 start nesting members =>
      obtain ⟨-, -, h⟩ := bind_eq_ok.mp h
      obtain ⟨read, hwalk, h⟩ := bind_eq_ok.mp h
      cases h
      have hread : ∀ e ∈ read, Q e := by
        refine walkMembers_induction (motive := fun es ↦ ∀ e ∈ es, Q e) ?_ ht (by simp) hwalk
        intro es name read t es' hstep ht hes h
        obtain ⟨-, d, e, hd, he, rfl⟩ := entityStep_eq_ok hstep h
        refine List.forall_mem_cons.mpr ⟨?_, hes⟩
        rw [EntityDraft.eq_of_under he]
        exact hname _ _ (hdraft t d ht hd)
      exact fun e he ↦ hread e (List.mem_reverse.mp he)
  case h_3 => exact absurd h mismatchEntered_ne_ok

theorem forall_entities_of_decodeManifest {t : Tree} {m : Manifest}
    (ht : ∀ n ∈ t.numerals, P n) (h : decodeManifest o t = .ok m) : ∀ e ∈ m.entities, Q e := by
  refine entities_onlyChangedBy.record_induction (motive := fun es ↦ ∀ e ∈ es, Q e) ?_ ht
    (by simp) h
  simp only [manifestSlots, List.forall_mem_cons, Slot.required, Slot.optional, String.reduceEq,
    false_implies, true_implies, true_and]
  exact ⟨Slot.keeps_map fun _ _ _ ht hes _ ↦ forall_mem_of_decodeEntities hname hdraft ht hes,
    by simp⟩

end

/-! ## All fields -/

def Entity.everyField (e : Entity) : List Field :=
  e.fields.entries.map Prod.snd ++
    e.relations.entries.flatMap fun r ↦ ((r.2.pivot.map Pivot.fields).getD {}).entries.map Prod.snd

def Manifest.everyField (m : Manifest) : List Field := m.entities.flatMap Entity.everyField

theorem Entity.forall_everyField {e : Entity} :
    (∀ f ∈ e.everyField, R f) ↔
      (∀ f ∈ e.fields.entries, R f.2) ∧
        ∀ r ∈ e.relations.entries, ∀ p, r.2.pivot = some p → ∀ f ∈ p.fields.entries, R f.2 := by
  rw [everyField, List.forall_mem_append, List.forall_mem_map, List.forall_mem_flatMap]
  refine and_congr_right fun _ ↦ forall₂_congr fun r _ ↦ ?_
  cases r.2.pivot with
  | none => simp
  | some p =>
      simp only [Option.map_some, Option.getD_some, List.forall_mem_map, Option.some.injEq,
        forall_eq']

theorem Manifest.forall_everyField {m : Manifest} :
    (∀ f ∈ m.everyField, R f) ↔ ∀ e ∈ m.entities, ∀ f ∈ e.everyField, R f :=
  List.forall_mem_flatMap

/-- A draft settles to a field exactly if it has a type, no member is stray, and `required` and
`optional` do not contradict each other. -/
theorem FieldDraft.settle_eq_ok_iff {d : FieldDraft} {f : Field} : d.settle = .ok f ↔
    d.kind = .ok f.kind ∧ d.stray = .ok () ∧ d.requirement = .ok f.required ∧
      f.unique = d.unique ∧ f.default = d.default ∧ f.rules = d.rules ++ d.shorthands := by
  constructor
  · intro h
    obtain ⟨kind, hkind, h⟩ := bind_eq_ok.mp h
    obtain ⟨_, hstray, h⟩ := bind_eq_ok.mp h
    obtain ⟨required, hrequired, h⟩ := bind_eq_ok.mp h
    cases h
    exact ⟨hkind, hstray, hrequired, rfl, rfl, rfl⟩
  · rintro ⟨hkind, hstray, hrequired, hunique, hdefault, hrules⟩
    refine bind_eq_ok.mpr ⟨_, hkind, bind_eq_ok.mpr ⟨_, hstray, bind_eq_ok.mpr ⟨_, hrequired, ?_⟩⟩⟩
    rw [← hunique, ← hdefault, ← hrules]
    rfl

/-- A field keeps the default of its draft, and the rules behind which its shorthands come. -/
theorem settle_eq_ok {d : FieldDraft} {f : Field} (h : d.settle = .ok f) :
    f.default = d.default ∧ f.rules = d.rules ++ d.shorthands :=
  (FieldDraft.settle_eq_ok_iff.mp h).2.2.2.2

theorem decodeField_eq_ok {t : Tree} {f : Field} (h : decodeField o t = .ok f) :
    ∃ d, record o "RawField" (fieldSlots o) {} t = .ok d ∧ d.settle = .ok f := by
  obtain ⟨d, hd, h⟩ := bind_eq_ok.mp h
  split at h
  case h_1 hsettle =>
      cases h
      exact ⟨d, hd, hsettle⟩
  case h_2 => cases h

section

variable (hfield : ∀ t f, (∀ n ∈ t.numerals, P n) → decodeField o t = .ok f → R f) {t : Tree}
  (ht : ∀ n ∈ t.numerals, P n)

include hfield ht

theorem forall_fields_of_pivot {p : Pivot}
    (h : record o "RawPivot" (pivotSlots o) {} t = .ok p) : ∀ f ∈ p.fields.entries, R f.2 := by
  refine pivotFields_onlyChangedBy.record_induction
    (motive := fun fields : Assoc Field ↦ ∀ f ∈ fields.entries, R f.2) ?_ ht (by simp) h
  simp only [pivotSlots, List.forall_mem_cons, Slot.optional, Slot.defaulted, String.reduceEq,
    false_implies, true_implies, true_and]
  exact ⟨Slot.keeps_map fun _ _ _ ht hfields _ ↦ forall_mem_of_uniqueMap hfield ht hfields,
    by simp⟩

theorem forall_pivotFields_of_decodeRelation {r : Relation} (h : decodeRelation o t = .ok r) :
    ∀ p, r.pivot = some p → ∀ f ∈ p.fields.entries, R f.2 := by
  refine pivot_onlyChangedBy.record_induction
    (motive := fun pivot ↦ ∀ p, pivot = some p → ∀ f ∈ p.fields.entries, R f.2) ?_ ht (by simp) h
  simp only [relationSlots, List.forall_mem_cons, Slot.required, Slot.optional, Slot.defaulted,
    String.reduceEq, false_implies, true_implies, true_and]
  refine ⟨Slot.keeps_optional (by simp) fun t p _ ht hp _ ↦ ?_, by simp⟩
  rintro p' ⟨⟩
  exact forall_fields_of_pivot hfield ht hp

/-- What holds of every field that is decoded holds of the fields of an entity and of its pivots. -/
theorem forall_everyField_of_decodeEntityDraft {d : EntityDraft}
    (h : decodeEntityDraft o t = .ok d) : ∀ f ∈ d.entity.everyField, R f := by
  refine Entity.forall_everyField.mpr ⟨?_, ?_⟩
  · refine entityFields_onlyChangedBy.record_induction
      (motive := fun fields : Assoc Field ↦ ∀ f ∈ fields.entries, R f.2) ?_ ht (by simp) h
    simp only [entitySlots, List.forall_mem_cons, Slot.optional, Slot.defaulted, String.reduceEq,
      false_implies, true_implies, true_and]
    exact ⟨Slot.keeps_map fun _ _ _ ht hfields _ ↦ forall_mem_of_uniqueMap hfield ht hfields,
      by simp⟩
  · refine entityRelations_onlyChangedBy.record_induction
      (motive := fun relations : Assoc Relation ↦
        ∀ r ∈ relations.entries, ∀ p, r.2.pivot = some p → ∀ f ∈ p.fields.entries, R f.2)
      ?_ ht (by simp) h
    simp only [entitySlots, List.forall_mem_cons, Slot.optional, Slot.defaulted, String.reduceEq,
      false_implies, true_implies, true_and]
    refine ⟨Slot.keeps_map fun _ _ _ ht hrelations _ ↦ ?_, by simp⟩
    exact forall_mem_of_uniqueMap
      (fun _ _ ht ↦ forall_pivotFields_of_decodeRelation hfield ht) ht hrelations

/-- What holds of every field that is read holds of every field of a manifest that is read. -/
theorem forall_everyField_of_decodeManifest {m : Manifest} (h : decodeManifest o t = .ok m) :
    ∀ f ∈ m.everyField, R f :=
  Manifest.forall_everyField.mpr <| forall_entities_of_decodeManifest
    (Q := fun e ↦ ∀ f ∈ e.everyField, R f) (fun _ _ he ↦ he)
    (fun _ _ ht ↦ forall_everyField_of_decodeEntityDraft hfield ht) ht h

end

end Scaffold

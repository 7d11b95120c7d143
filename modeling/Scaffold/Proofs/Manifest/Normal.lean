import Mathlib.Data.List.Forall2
import Scaffold.Blueprint.Basic
import Scaffold.Diagnosis.Validate

/-!
# Manifests in normal form

A manifest is in normal form if nothing in it is left to be decided.  Normalizing brings every
manifest into normal form and leaves those alone that are in it already.  An entity in normal form
has settings of its own in every slot, so it is the same under all defaults.
-/

namespace Scaffold

theorem some_getD_eq_self {α : Type} {slot : Option α} (h : slot.isSome = true) (value : α) :
    some (slot.getD value) = slot := by
  obtain ⟨own, rfl⟩ := Option.isSome_iff_exists.mp h
  rfl

theorem map_eq_self {α : Type} {f : α → α} {xs : List α} (h : ∀ x ∈ xs, f x = x) :
    xs.map f = xs :=
  (List.map_congr_left h).trans (List.map_id _)

/-! ## Fields and relations -/

structure Field.IsNormal (f : Field) : Prop where
  required : f.required.isSome = true
  unique : f.unique.isSome = true

theorem Field.isNormal_normalize (f : Field) : f.normalize.IsNormal := ⟨rfl, rfl⟩

theorem Field.IsNormal.normalize_eq {f : Field} (h : f.IsNormal) : f.normalize = f := by
  rw [Field.normalize, Field.isRequired, Field.isUnique, some_getD_eq_self h.required,
    some_getD_eq_self h.unique]

def FieldsNormal (fields : Assoc Field) : Prop := ∀ f ∈ fields.entries, f.2.IsNormal

theorem fieldsNormal_normalizeFields (fields : Assoc Field) :
    FieldsNormal (normalizeFields fields) := by
  intro f hf
  obtain ⟨f, -, rfl⟩ := List.mem_map.mp hf
  exact f.2.isNormal_normalize

theorem normalizeFields_eq_self {fields : Assoc Field} (h : FieldsNormal fields) :
    normalizeFields fields = fields :=
  Assoc.ext (map_eq_self fun f hf ↦ by rw [(h f hf).normalize_eq])

def Relation.IsNormal (r : Relation) : Prop := ∀ p ∈ r.pivot, FieldsNormal p.fields

theorem Relation.isNormal_normalize (r : Relation) : r.normalize.IsNormal := by
  intro p hp
  obtain ⟨p, -, rfl⟩ := Option.map_eq_some_iff.mp hp
  exact fieldsNormal_normalizeFields p.fields

theorem Relation.IsNormal.normalize_eq {r : Relation} (h : r.IsNormal) : r.normalize = r := by
  have hpivot : r.pivot.map Pivot.normalize = r.pivot := by
    cases hp : r.pivot with
    | none => rfl
    | some p => rw [Option.map_some, Pivot.normalize, normalizeFields_eq_self (h p hp)]
  rw [Relation.normalize, hpivot]

/-! ## Entities -/

structure Behaviors.IsSet (b : Behaviors) : Prop where
  timestamps : b.timestamps.isSome = true
  softDelete : b.softDelete.isSome = true
  audit : b.audit.isSome = true

theorem Behaviors.IsSet.orElse_eq {b : Behaviors} (h : b.IsSet) (fallback : Behaviors) :
    b.orElse fallback = b := by
  obtain ⟨t, ht⟩ := Option.isSome_iff_exists.mp h.timestamps
  obtain ⟨s, hs⟩ := Option.isSome_iff_exists.mp h.softDelete
  obtain ⟨a, ha⟩ := Option.isSome_iff_exists.mp h.audit
  obtain ⟨timestamps, softDelete, audit⟩ := b
  subst ht hs ha
  rfl

theorem Behaviors.isSet_orElse_builtIn (b : Behaviors) : (b.orElse builtIn).IsSet := by
  constructor <;> simp [orElse, builtIn]

/-- Whether an entity leaves nothing to be decided.  It may do without a source where the manifest,
with the given one, has none either. -/
structure Entity.IsNormal (source : Option Source) (e : Entity) : Prop where
  fields : FieldsNormal e.fields
  relations : ∀ r ∈ e.relations.entries, r.2.IsNormal
  behaviors : e.behaviors.IsSet
  protection : e.protection.isSome = true
  source : e.source = none → source = none

theorem Entity.isNormal_normalize (defaults : Option Defaults) (source : Option Source)
    (e : Entity) : (e.normalize defaults source).IsNormal source := by
  refine ⟨fieldsNormal_normalizeFields e.fields, fun r hr ↦ ?_,
    Behaviors.isSet_orElse_builtIn _, rfl, fun hnone ↦ ?_⟩
  · obtain ⟨r, -, rfl⟩ := List.mem_map.mp hr
    exact r.2.isNormal_normalize
  · have hnone : (e.source <|> source) = none := hnone
    cases hown : e.source with
    | none => rwa [hown] at hnone
    | some s =>
        rw [hown] at hnone
        cases hnone

/-- An entity in normal form stays as it is, whatever the defaults are. -/
theorem Entity.IsNormal.normalize_eq {source : Option Source} {e : Entity} (h : e.IsNormal source)
    (defaults : Option Defaults) : e.normalize defaults source = e := by
  have hrelations : e.relations.mapValues Relation.normalize = e.relations :=
    Assoc.ext (map_eq_self fun r hr ↦ by rw [(h.relations r hr).normalize_eq])
  have hprotection :
      some ((e.protection <|> defaults.bind Defaults.protection).getD Protection.none) =
        e.protection := by
    obtain ⟨p, hp⟩ := Option.isSome_iff_exists.mp h.protection
    rw [hp]
    rfl
  have hsource : (e.source <|> source) = e.source := by
    cases he : e.source with
    | none => exact h.source he
    | some s => rfl
  rw [Entity.normalize, normalizeFields_eq_self h.fields, hrelations, h.behaviors.orElse_eq,
    h.behaviors.orElse_eq, hprotection, hsource]

/-! ## Settings -/

namespace Manifest

/-- Whether a manifest leaves nothing to be decided, and gives no defaults that say nothing. -/
structure IsNormal (m : Manifest) : Prop where
  entities : ∀ e ∈ m.entities, e.IsNormal m.source
  auth : ∃ a, m.auth = some a ∧ a.enabled.isSome = true
  mode : m.mode.isSome = true
  i18n : ∃ l, m.i18n = some l ∧ l.defaultLocale.isSome = true ∧ l.locales ≠ []
  tenancy : ∃ t, m.tenancy = some t ∧ t.enabled.isSome = true ∧ t.field.isSome = true
  observability : ∃ o, m.observability = some o ∧ o.logging.isSome = true ∧
    o.metrics.isSome = true ∧ o.tracing.isSome = true
  defaults : ∀ d ∈ m.defaults, d.isEmpty = false

theorem locales_normalize_ne_nil (l : Option Localization) :
    (Localization.normalize l).locales ≠ [] := by
  simp only [Localization.normalize]
  split
  · simp
  · next h => simpa using h

/-- Normalizing a manifest leaves nothing open. -/
theorem isNormal_normalize (m : Manifest) : m.normalize.IsNormal where
  entities := by
    intro e he
    obtain ⟨e, -, rfl⟩ := List.mem_map.mp he
    exact e.isNormal_normalize m.defaults m.source
  auth := ⟨_, rfl, rfl⟩
  mode := rfl
  i18n := ⟨_, rfl, rfl, locales_normalize_ne_nil m.i18n⟩
  tenancy := ⟨_, rfl, rfl, rfl⟩
  observability := ⟨_, rfl, rfl, rfl, rfl⟩
  defaults := by
    intro d hd
    simpa using (Option.filter_eq_some_iff.mp hd).2

theorem auth_normalize_eq {a : Auth} (h : a.enabled.isSome = true) :
    Auth.normalize (some a) = a := by
  have henabled : some a.isEnabled = a.enabled := some_getD_eq_self h false
  exact congrArg (Auth.mk · a.providers) henabled

theorem localization_normalize_eq {l : Localization} (h : l.defaultLocale.isSome = true)
    (hlocales : l.locales ≠ []) : Localization.normalize (some l) = l := by
  have hdefault : some (l.defaultLocale.getD defaultLocaleName) = l.defaultLocale :=
    some_getD_eq_self h _
  have hempty : l.locales.isEmpty = false := by simpa using hlocales
  simp only [Localization.normalize, Option.bind_some, Option.map_some, Option.getD_some, hempty,
    hdefault]
  rfl

theorem tenancy_normalize_eq {t : Tenancy} (henabled : t.enabled.isSome = true)
    (hfield : t.field.isSome = true) : Tenancy.normalize (some t) = t := by
  simp only [Tenancy.normalize, Option.bind_some, some_getD_eq_self henabled,
    some_getD_eq_self hfield]

theorem observability_normalize_eq {o : Observability} (hlogging : o.logging.isSome = true)
    (hmetrics : o.metrics.isSome = true) (htracing : o.tracing.isSome = true) :
    Observability.normalize (some o) = o := by
  simp only [Observability.normalize, Option.bind_some, some_getD_eq_self hlogging,
    some_getD_eq_self hmetrics, some_getD_eq_self htracing]

theorem IsNormal.entities_eq {m : Manifest} (h : m.IsNormal) (defaults : Option Defaults) :
    m.entities.map (Entity.normalize defaults m.source) = m.entities :=
  map_eq_self fun e he ↦ (h.entities e he).normalize_eq defaults

/-- A manifest in normal form is its own normal form. -/
theorem IsNormal.normalize_eq {m : Manifest} (h : m.IsNormal) : m.normalize = m := by
  obtain ⟨a, ha, henabled⟩ := h.auth
  obtain ⟨l, hl, hdefault, hlocales⟩ := h.i18n
  obtain ⟨t, ht, htenancy, hfield⟩ := h.tenancy
  obtain ⟨o, ho, hlogging, hmetrics, htracing⟩ := h.observability
  have hmode : some m.effectiveMode = m.mode := some_getD_eq_self h.mode _
  have hdefaults : m.defaults.filter (!·.isEmpty) = m.defaults := by
    cases hd : m.defaults with
    | none => rfl
    | some d => simp [h.defaults d hd]
  rw [normalize, h.entities_eq, ha, auth_normalize_eq henabled, hmode, hl,
    localization_normalize_eq hdefault hlocales, ht, tenancy_normalize_eq htenancy hfield, ho,
    observability_normalize_eq hlogging hmetrics htracing, hdefaults, ← ha, ← hl, ← ht, ← ho]

/-- The manifests that normalizing leaves alone are those in normal form. -/
theorem normalize_eq_self_iff (m : Manifest) : m.normalize = m ↔ m.IsNormal :=
  ⟨fun h ↦ h ▸ m.isNormal_normalize, IsNormal.normalize_eq⟩

@[simp] theorem normalize_normalize (m : Manifest) : m.normalize.normalize = m.normalize :=
  (normalize_eq_self_iff m.normalize).mpr m.isNormal_normalize

end Manifest

/-! ## Precedence -/

/-- The setting that holds: an own one before a default, and a default before what is built in. -/
def effective {α : Type} (own fallback : Option α) (builtIn : α) : α :=
  own.getD (fallback.getD builtIn)

/-- Whether the slots of `n` hold the settings that are effective for `e` under the defaults. -/
structure Entity.FilledBy (defaults : Option Defaults) (e n : Entity) : Prop where
  name : n.name = e.name
  timestamps : n.behaviors.timestamps =
    some (effective e.behaviors.timestamps (defaults.bind (·.behaviors.timestamps)) true)
  softDelete : n.behaviors.softDelete =
    some (effective e.behaviors.softDelete (defaults.bind (·.behaviors.softDelete)) false)
  audit : n.behaviors.audit =
    some (effective e.behaviors.audit (defaults.bind (·.behaviors.audit)) false)
  protection : n.protection =
    some (effective e.protection (defaults.bind Defaults.protection) Protection.none)

theorem orElse_builtIn {α : Type} (own fallback : Option α) (builtIn : α) :
    ((own <|> fallback) <|> some builtIn) = some (effective own fallback builtIn) := by
  cases own <;> cases fallback <;> rfl

/-- Normalizing an entity fills in what it leaves open and changes nothing else. -/
theorem Entity.filledBy_normalize (defaults : Option Defaults) (source : Option Source)
    (e : Entity) : e.FilledBy defaults (e.normalize defaults source) := by
  have hdefault : ∀ switch : Behaviors → Option Bool, switch Behaviors.unset = none →
      switch ((defaults.map Defaults.behaviors).getD Behaviors.unset) =
        defaults.bind fun d ↦ switch d.behaviors := by
    intro switch hunset
    cases defaults with
    | none => exact hunset
    | some d => rfl
  constructor
  case name => rfl
  case timestamps =>
    rw [← hdefault Behaviors.timestamps rfl]
    exact orElse_builtIn _ _ true
  case softDelete =>
    rw [← hdefault Behaviors.softDelete rfl]
    exact orElse_builtIn _ _ false
  case audit =>
    rw [← hdefault Behaviors.audit rfl]
    exact orElse_builtIn _ _ false
  case protection =>
    rw [Entity.normalize, effective]
    cases e.protection <;> rfl

namespace Manifest

/-- Normalizing once is enough, for the manifest itself, for its validation and for its blueprint;
the entities that come out no longer depend on the defaults; and every setting of theirs is the
entity's own, or else the default, or else the one built in. -/
theorem normalize_is_final [Pattern.Checker] (m : Manifest) :
    m.normalize.normalize = m.normalize ∧ m.normalize.validate = m.validate ∧
      Blueprint.ofManifest m.normalize = Blueprint.ofManifest m ∧
      (∀ defaults : Option Defaults,
        ({ m.normalize with defaults } : Manifest).normalize.entities = m.normalize.entities) ∧
      List.Forall₂ (Entity.FilledBy m.defaults) m.entities m.normalize.entities := by
  refine ⟨m.normalize_normalize, ?_, ?_, fun defaults ↦ ?_, ?_⟩
  · rw [validate, normalize_normalize, ← validate]
  · rw [Blueprint.ofManifest, normalize_normalize, ← Blueprint.ofManifest]
  · exact m.isNormal_normalize.entities_eq defaults
  · rw [normalize, List.forall₂_map_right_iff]
    exact List.forall₂_same.mpr fun e _ ↦ e.filledBy_normalize m.defaults m.source

end Manifest

end Scaffold

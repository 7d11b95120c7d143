import Mathlib.Data.List.Perm.Basic
import Scaffold.Manifest.Normal

/-!
# Manifests up to the order of declarations

Two manifests are rearrangements of each other if they declare the same things in another order:
entities in a manifest, fields and relations in an entity, and fields in a pivot.  Everything that
is not in a list is the same.
-/

namespace Scaffold

/-! ## Lists -/

/-- Whether the elements of two lists are related one to one, in whatever order they come. -/
def Rearranges {α β : Type} (R : α → β → Prop) (xs : List α) (ys : List β) : Prop :=
  ∃ zs, xs.Perm zs ∧ List.Forall₂ R zs ys

namespace Rearranges

variable {α β γ δ : Type} {R : α → β → Prop} {xs : List α} {ys : List β}

theorem symm {S : β → α → Prop} (h : Rearranges R xs ys) (hS : ∀ x y, R x y → S y x) :
    Rearranges S ys xs := by
  obtain ⟨zs, hperm, hall⟩ := h
  obtain ⟨us, hall, hperm⟩ := List.perm_comp_forall₂ hperm hall
  exact ⟨us, hperm.symm, (hall.imp fun _ _ ↦ hS _ _ : List.Forall₂ (flip S) xs us).flip⟩

theorem exists_of_mem (h : Rearranges R xs ys) {x : α} (hx : x ∈ xs) : ∃ y ∈ ys, R x y := by
  obtain ⟨zs, hperm, hall⟩ := h
  have hz : x ∈ zs := hperm.subset hx
  clear hperm hx
  induction hall with
  | nil => simp at hz
  | cons hR _ ih =>
      rcases List.mem_cons.mp hz with rfl | hz
      · exact ⟨_, List.mem_cons_self, hR⟩
      · obtain ⟨y, hy, hxy⟩ := ih hz
        exact ⟨y, List.mem_cons_of_mem _ hy, hxy⟩

theorem map {S : γ → δ → Prop} {f : α → γ} {g : β → δ} (h : Rearranges R xs ys)
    (hS : ∀ x y, R x y → S (f x) (g y)) : Rearranges S (xs.map f) (ys.map g) := by
  obtain ⟨zs, hperm, hall⟩ := h
  refine ⟨zs.map f, hperm.map f, ?_⟩
  rw [List.forall₂_map_left_iff, List.forall₂_map_right_iff]
  exact hall.imp hS

theorem filter {p : α → Bool} {q : β → Bool} (h : Rearranges R xs ys)
    (hpq : ∀ x y, R x y → p x = q y) : Rearranges R (xs.filter p) (ys.filter q) := by
  obtain ⟨zs, hperm, hall⟩ := h
  refine ⟨zs.filter p, hperm.filter p, List.rel_filter (fun x y hxy ↦ ?_) hall⟩
  exact iff_of_eq (congrArg (· = true) (hpq x y hxy))

/-- What related elements have in the same order or another, the lists have. -/
theorem flatMap_perm {f : α → List γ} {g : β → List γ} (h : Rearranges R xs ys)
    (hfg : ∀ x y, R x y → (f x).Perm (g y)) : (xs.flatMap f).Perm (ys.flatMap g) := by
  obtain ⟨zs, hperm, hall⟩ := h
  refine (hperm.flatMap_right f).trans ?_
  apply List.Perm.flatten_congr
  rw [List.forall₂_map_left_iff, List.forall₂_map_right_iff]
  exact hall.imp hfg

theorem map_perm {f : α → γ} {g : β → γ} (h : Rearranges R xs ys) (hfg : ∀ x y, R x y → f x = g y) :
    (xs.map f).Perm (ys.map g) := by
  obtain ⟨zs, hperm, hall⟩ := h
  have heq : zs.map f = ys.map g := by
    rw [← List.forall₂_eq_eq_eq, List.forall₂_map_left_iff, List.forall₂_map_right_iff]
    exact hall.imp hfg
  exact (hperm.map f).trans (.of_eq heq)

theorem filterMap_perm {f : α → Option γ} {g : β → Option γ} (h : Rearranges R xs ys)
    (hfg : ∀ x y, R x y → f x = g y) : (xs.filterMap f).Perm (ys.filterMap g) := by
  have hoptions := (h.map_perm hfg).filterMap id
  rwa [List.filterMap_map, List.filterMap_map] at hoptions

end Rearranges

/-! ## Parts of a manifest -/

structure Pivot.Rearranged (p q : Pivot) : Prop where
  table : p.table = q.table
  fields : p.fields.entries.Perm q.fields.entries

structure Relation.Rearranged (r s : Relation) : Prop where
  rest : { s with pivot := r.pivot } = r
  pivot : Option.Rel Pivot.Rearranged r.pivot s.pivot

def Relation.RearrangedEntry (r s : String × Relation) : Prop := r.1 = s.1 ∧ r.2.Rearranged s.2

structure Entity.Rearranged (e f : Entity) : Prop where
  rest : { f with fields := e.fields, relations := e.relations } = e
  fields : e.fields.entries.Perm f.fields.entries
  relations : Rearranges Relation.RearrangedEntry e.relations.entries f.relations.entries

structure Manifest.Rearranged (m n : Manifest) : Prop where
  rest : { n with entities := m.entities } = m
  entities : Rearranges Entity.Rearranged m.entities n.entities

theorem Pivot.Rearranged.symm {p q : Pivot} (h : p.Rearranged q) : q.Rearranged p :=
  ⟨h.table.symm, h.fields.symm⟩

theorem Relation.Rearranged.symm {r s : Relation} (h : r.Rearranged s) : s.Rearranged r where
  rest := by rw [← h.rest]
  pivot := by
    have hpivot := h.pivot
    generalize r.pivot = p, s.pivot = q at hpivot ⊢
    cases hpivot with
    | none => exact .none
    | some hpivot => exact .some hpivot.symm

theorem Entity.Rearranged.symm {e f : Entity} (h : e.Rearranged f) : f.Rearranged e where
  rest := by rw [← h.rest]
  fields := h.fields.symm
  relations := h.relations.symm fun _ _ hrs ↦ ⟨hrs.1.symm, hrs.2.symm⟩

theorem Manifest.Rearranged.symm {m n : Manifest} (h : m.Rearranged n) : n.Rearranged m where
  rest := by rw [← h.rest]
  entities := h.entities.symm fun _ _ ↦ Entity.Rearranged.symm

/-! ## Normal forms -/

theorem normalizeFields_perm {fields fields' : Assoc Field}
    (h : fields.entries.Perm fields'.entries) :
    (normalizeFields fields).entries.Perm (normalizeFields fields').entries :=
  h.map _

theorem Relation.Rearranged.normalize {r s : Relation} (h : r.Rearranged s) :
    r.normalize.Rearranged s.normalize where
  rest := by
    rw [← h.rest]
    rfl
  pivot := by
    have hpivot := h.pivot
    rw [Relation.normalize, Relation.normalize]
    generalize r.pivot = p, s.pivot = q at hpivot ⊢
    cases hpivot with
    | none => exact .none
    | some hpivot => exact .some ⟨hpivot.table, normalizeFields_perm hpivot.fields⟩

theorem Entity.Rearranged.normalize {e f : Entity} (h : e.Rearranged f)
    (defaults : Option Defaults) (source : Option Source) :
    (e.normalize defaults source).Rearranged (f.normalize defaults source) where
  rest := by
    rw [← h.rest]
    rfl
  fields := normalizeFields_perm h.fields
  relations := h.relations.map fun _ _ hrs ↦ ⟨hrs.1, hrs.2.normalize⟩

theorem Manifest.Rearranged.normalize {m n : Manifest} (h : m.Rearranged n) :
    m.normalize.Rearranged n.normalize where
  rest := by
    rw [← h.rest]
    rfl
  entities := by
    have hsettings : m.defaults = n.defaults ∧ m.source = n.source := by
      rw [← h.rest]
      exact ⟨rfl, rfl⟩
    rw [Manifest.normalize, Manifest.normalize, hsettings.1, hsettings.2]
    exact h.entities.map fun _ _ hef ↦ hef.normalize n.defaults n.source

/-! ## Names -/

theorem Assoc.keys_perm {α : Type} {m m' : Assoc α} (h : m.entries.Perm m'.entries) :
    (keys m).Perm (keys m') := h.map Prod.fst

/-- Entries under distinct names are found in any order. -/
theorem Assoc.lookup_perm {α : Type} {entries entries' : List (String × α)}
    (h : entries.Perm entries') (hkeys : (entries.map Prod.fst).Nodup) (key : String) :
    entries.lookup key = entries'.lookup key := by
  induction h with
  | nil => rfl
  | cons e _ ih =>
      rw [List.map_cons, List.nodup_cons] at hkeys
      rw [List.lookup_cons, List.lookup_cons, ih hkeys.2]
  | swap e e' rest =>
      simp only [List.map_cons, List.nodup_cons, List.mem_cons, not_or] at hkeys
      have hne : e'.1 ≠ e.1 := hkeys.1.1
      rw [List.lookup_cons, List.lookup_cons, List.lookup_cons, List.lookup_cons]
      cases hkey : key == e.1 with
      | false => rfl
      | true =>
          have hkey' : (key == e'.1) = false := by
            rw [beq_iff_eq.mp hkey]
            simpa using hne.symm
          rw [hkey']
  | trans h _ ih ih' => rw [ih hkeys, ih' ((h.map Prod.fst).nodup hkeys)]

/-- An entry is found wherever it stands. -/
theorem Assoc.get?_perm {α : Type} {m m' : Assoc α} (h : m.entries.Perm m'.entries)
    (key : String) : get? m key = get? m' key := lookup_perm h m.nodup key

end Scaffold

import Scaffold.Proofs.Generation.OutputPaths
import Scaffold.Proofs.Naming.Plurals
import Scaffold.Proofs.Schema.ForeignKeys
import Scaffold.Proofs.Schema.TableNames
import Scaffold.TypeScript.Client

/-!
# Distinct routes

The routes of an entity and the key of its calls follow from its plural.  The lints compare plurals
only where they name tables, so two entities of a valid manifest can have the same plural once one
of them is given a table of its own.  The routes of a valid manifest are distinct exactly if the
plurals are, and so are the keys of the client: neither hyphens nor camel case merge two plurals.
-/

namespace Scaffold

open Naming TypeScript

namespace Manifest

def offered (m : Manifest) : List (String × String) :=
  let b := Blueprint.ofManifest m
  (b.records.flatMap fun r ↦ (EntityModule.ofRecord b.tenant r).routes).map fun route ↦
    (route.method, route.path)

def clientKeys (m : Manifest) : List String :=
  (ClientModule.ofBlueprint (.ofManifest m)).groups.map CallGroup.key

end Manifest

/-! ## The routes of an entity -/

def requestsOf (entity : String) : List (String × String) :=
  Operation.all.map fun op ↦ (method op, (Routes.ofEntity entity).ofOperation op)

theorem offered_eq (m : Manifest) : m.offered = m.entityNames.flatMap requestsOf := by
  rw [Manifest.offered, Manifest.entityNames, Manifest.records_ofManifest]
  simp only [List.flatMap_map, List.map_flatMap, EntityModule.ofRecord, routes, List.map_map]
  rfl

theorem clientKeys_eq (m : Manifest) :
    m.clientKeys = m.entityNames.map fun name ↦ camel (pluralOf name) := by
  rw [Manifest.clientKeys, ClientModule.ofBlueprint, Manifest.records_ofManifest]
  simp only [Manifest.entityNames, List.map_map, Function.comp_def, CallGroup.ofRecord,
    Record.ofEntity, Entity.normalize]

/-- No two operations of an entity have the same method and path. -/
theorem requestsOf_nodup (entity : String) : (requestsOf entity).Nodup := by
  have hne : "/" ++ kebab (pluralOf entity) ≠ "/" ++ kebab (pluralOf entity) ++ "/:id" := by
    intro heq
    have hlength := congrArg String.length heq
    rw [String.length_append (t := "/:id")] at hlength
    exact absurd hlength (Nat.ne_of_lt (Nat.lt_add_of_pos_right (by decide)))
  simp [requestsOf, Operation.all, method, PerOperation.ofOperation, Routes.ofEntity, hne]

/-- The first part of a path is the plural with hyphens. -/
theorem first_part_of_mem_requestsOf {entity : String} (h : isPascal entity = true)
    {request : String × String} (hmem : request ∈ requestsOf entity) :
    request.2.toList.tail.takeWhile (· ≠ '/') = (kebab (pluralOf entity)).toList := by
  have hname : IsName (kebab (pluralOf entity)) :=
    isName_kebab (isName_pluralize (isName_snake (isName_of_isPascal h)))
  have hgo : ∀ c ∈ (kebab (pluralOf entity)).toList, decide (c ≠ '/') = true := by
    intro c hc
    rw [decide_eq_true_eq]
    rintro rfl
    exact absurd (hname _ hc) (by decide)
  have hpath : request.2.toList.tail = (kebab (pluralOf entity)).toList ++ [] ∨
      request.2.toList.tail = (kebab (pluralOf entity)).toList ++ "/:id".toList := by
    obtain ⟨op, -, rfl⟩ := List.mem_map.mp hmem
    cases op <;> simp [PerOperation.ofOperation, Routes.ofEntity]
  rcases hpath with hpath | hpath <;> rw [hpath, List.takeWhile_append_of_pos hgo] <;> simp

/-- The requests of two entities are apart exactly if their plurals are. -/
theorem disjoint_requestsOf_iff {a b : String} (ha : isPascal a = true) (hb : isPascal b = true) :
    (requestsOf a).Disjoint (requestsOf b) ↔ pluralOf a ≠ pluralOf b := by
  constructor
  · intro hdisjoint heq
    have hsame : requestsOf a = requestsOf b := by
      simp only [requestsOf, Routes.ofEntity, heq]
    rw [← hsame] at hdisjoint
    exact hdisjoint (List.mem_map_of_mem (a := Operation.list) (by decide))
      (List.mem_map_of_mem (a := Operation.list) (by decide))
  · intro hne request hmem hmem'
    apply hne
    rw [← kebab_pluralOf_inj ha hb, ← String.toList_inj, ← first_part_of_mem_requestsOf ha hmem,
      first_part_of_mem_requestsOf hb hmem']

/-! ## Valid manifests -/

namespace Manifest

variable [Pattern.Checker] {m : Manifest} (hvalid : m.validate.valid = true)

include hvalid

theorem offered_nodup_iff : m.offered.Nodup ↔ (m.entityNames.map pluralOf).Nodup := by
  have heach : ∀ name ∈ m.entityNames, (requestsOf name).Nodup := fun name _ ↦ requestsOf_nodup name
  have hpairs := List.Pairwise.iff_of_mem (l := m.entityNames) fun {_ _} ha hb ↦
    disjoint_requestsOf_iff (isPascal_of_valid hvalid ha) (isPascal_of_valid hvalid hb)
  rw [offered_eq, List.nodup_flatMap, and_iff_right heach]
  exact hpairs.trans List.pairwise_map.symm

theorem clientKeys_nodup_iff : m.clientKeys.Nodup ↔ (m.entityNames.map pluralOf).Nodup := by
  have hne : ∀ {a b}, a ∈ m.entityNames → b ∈ m.entityNames →
      (camel (pluralOf a) ≠ camel (pluralOf b) ↔ pluralOf a ≠ pluralOf b) := fun ha hb ↦
    (camel_pluralOf_inj (isPascal_of_valid hvalid ha) (isPascal_of_valid hvalid hb)).not
  rw [clientKeys_eq]
  exact List.pairwise_map.trans ((List.Pairwise.iff_of_mem hne).trans List.pairwise_map.symm)

/-- Of two entities with the same plural at least one has been given a table. -/
theorem isSome_table_of_pluralOf_eq {e f : Entity} (he : e ∈ m.entities) (hf : f ∈ m.entities)
    (hne : e.name ≠ f.name) (hplural : pluralOf e.name = pluralOf f.name) :
    e.table.isSome = true ∨ f.table.isSome = true := by
  obtain ⟨-, hduplicates, -⟩ := m.valid_iff.mp hvalid
  have hnodup := Lint.tableNames_nodup_of_duplicates hduplicates
  rw [normalize, List.map_map] at hnodup
  by_contra hnone
  rw [not_or, Bool.not_eq_true, Bool.not_eq_true, Option.isSome_eq_false_iff,
    Option.isSome_eq_false_iff, Option.isNone_iff_eq_none, Option.isNone_iff_eq_none] at hnone
  have htable : e.tableName = f.tableName := by
    rw [Entity.tableName, Entity.tableName, hnone.1, hnone.2]
    exact hplural
  exact hne (congrArg Entity.name (List.inj_on_of_nodup_map hnodup he hf htable))

/-- The routes that a valid manifest leads to are pairwise distinct, and so are the keys of the
client, exactly if no two entities have the same plural.  Entities with the same plural pass the
lints only where one of them has been given a table. -/
theorem routes_distinct_iff :
    (m.offered.Nodup ↔ (m.entityNames.map pluralOf).Nodup) ∧
      (m.clientKeys.Nodup ↔ (m.entityNames.map pluralOf).Nodup) ∧
      ∀ e ∈ m.entities, ∀ f ∈ m.entities, e.name ≠ f.name → pluralOf e.name = pluralOf f.name →
        e.table.isSome = true ∨ f.table.isSome = true :=
  ⟨offered_nodup_iff hvalid, clientKeys_nodup_iff hvalid,
    fun _ he _ hf hne hplural ↦ isSome_table_of_pluralOf_eq hvalid he hf hne hplural⟩

end Manifest

def tabled (first second table : String) : Manifest where
  database := some (.sqlite "app.db")
  entities := [{ name := first }, { name := second, table := some table }]

theorem Manifest.routes_distinct_tabled :
    (tabled "Person" "People" "crowd").validate.valid = true ∧
      (tabled "Person" "People" "crowd").offered.Nodup ∧
      (tabled "Person" "People" "crowd").clientKeys.Nodup := by
  have hvalid : (tabled "Person" "People" "crowd").validate.valid = true := by decide +kernel
  have hplurals : ((tabled "Person" "People" "crowd").entityNames.map pluralOf).Nodup := by
    decide +kernel
  obtain ⟨hoffered, hkeys, -⟩ := routes_distinct_iff hvalid
  exact ⟨hvalid, hoffered.mpr hplurals, hkeys.mpr hplurals⟩

/-- News are not counted, so they share the plural of what is new. -/
theorem Manifest.valid_with_repeated_routes :
    (tabled "New" "News" "press").validate.valid = true ∧
      ¬ (tabled "New" "News" "press").offered.Nodup ∧
      ¬ (tabled "New" "News" "press").clientKeys.Nodup := by
  decide +kernel

end Scaffold

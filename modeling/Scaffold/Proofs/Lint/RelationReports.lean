import Scaffold.Proofs.Lint.Relations
import Scaffold.Proofs.Lint.Reports

/-!
# Reports about relations

Relations are looked at by one lint alone, in one walk that remembers the fields of junction tables.
Taken apart by their codes, its reports are three lists: the relations whose target is missing,
those with a pivot that they cannot have, and the declarations of fields that differ from the first
one of the same field.  The walk and its memory do not show in any of the three.
-/

namespace Scaffold

namespace Lint

/-! ## The lint that looks at relations -/

theorem topic_ne_relations_of_mem_duplicates {n : Manifest} {f : Finding} (h : f ∈ duplicates n) :
    f.topic ≠ .relations := by
  rw [duplicates_eq, List.mem_append, List.mem_append, List.mem_flatMap] at h
  rcases h with (hentity | ⟨p, -, hp⟩) | hstorage
  · simp [topic_of_mem_entitiesTwice hentity]
  · simp only [List.mem_append] at hp
    rcases hp with hnamed | hreserved | htwice
    · simp [topic_of_mem_relationsNamedAsFields hnamed]
    · simp [topic_of_mem_reservedFields hreserved]
    · simp [topic_of_mem_columnsTwice htwice]
  · simp [topic_of_mem_storage hstorage]

theorem topic_ne_relations_of_mem_configuration {n : Manifest} {f : Finding}
    (h : f ∈ configuration n) : f.topic ≠ .relations := by
  rw [configuration_eq, List.mem_append, List.mem_flatMap] at h
  rcases h with hsettings | ⟨e, -, htenant⟩
  · simp [topic_of_mem_settings hsettings]
  · simp [topic_of_mem_tenantConflicts htenant]

/-- The findings about relations are those of the lint for relations. -/
theorem filter_findings_relations [Pattern.Checker] (n : Manifest) :
    (findings n).filter (·.topic = .relations) = relations n := by
  have hnone {found : List Finding} (h : ∀ f ∈ found, f.topic ≠ .relations) :
      found.filter (·.topic = .relations) = [] :=
    List.filter_eq_nil_iff.mpr fun f hf ↦ by simpa using h f hf
  have hself : (relations n).filter (·.topic = .relations) = relations n :=
    List.filter_eq_self.mpr fun f hf ↦ by simpa using topic_of_mem_relations hf
  simp only [findings, List.filter_append, hself]
  rw [hnone fun f hf ↦ by simp [topic_of_mem_names hf],
    hnone fun f ↦ topic_ne_relations_of_mem_duplicates,
    hnone fun f ↦ topic_ne_relations_of_mem_configuration,
    hnone fun f hf ↦ by simp [topic_of_mem_fields hf],
    hnone fun f hf ↦ by simp [topic_of_mem_advice hf]]
  simp only [List.nil_append, List.append_nil]

def relationCodes : List DiagnosticCode :=
  [.relationTargetNotFound, .invalidPivot, .pivotFieldConflict]

theorem topic_of_code_mem {f : Finding} (h : f.code ∈ relationCodes) : f.topic = .relations := by
  cases f <;> first | rfl | simp [relationCodes, Finding.code] at h

theorem placesOf_relation_errors [Pattern.Checker] (m : Manifest) {code : DiagnosticCode}
    (h : code ∈ relationCodes) :
    placesOf code m.validate.errors =
      ((relations m.normalize).filter (·.code = code)).map Finding.path := by
  have herror : code.severity = .error := by
    revert code
    decide
  rw [m.placesOf_errors herror, ← filter_findings_relations, List.filter_filter]
  refine congrArg (List.map _) (List.filter_congr fun f _ ↦ ?_)
  by_cases hcode : f.code = code
  · simp [hcode, topic_of_code_mem (hcode ▸ h)]
  · simp [hcode]

/-! ## The walk, taken apart -/

/-- The report about a field of a junction table, given the first declaration before it. -/
def pivotReport? (p : PivotField × Option PivotField) : Option Finding :=
  p.2.bind fun first ↦
    if first.field != p.1.field then some (.pivotConflict p.1.place first.place p.1.junction)
    else none

theorem code_of_mem_danglingTarget {m : Manifest} {r : OwnedRelation} {f : Finding}
    (h : f ∈ danglingTarget m r) : f.code = .relationTargetNotFound := by
  rw [(List.mem_ite_nil_right.mp h).2 |> List.mem_singleton.mp]
  rfl

theorem code_of_mem_misplacedPivot {r : OwnedRelation} {f : Finding}
    (h : f ∈ misplacedPivot r) : f.code = .invalidPivot := by
  rw [(List.mem_ite_nil_right.mp h).2 |> List.mem_singleton.mp]
  rfl

theorem code_of_mem_pivotConflicts {earlier : List PivotField} {r : OwnedRelation} {f : Finding}
    (h : f ∈ pivotConflicts earlier r) : f.code = .pivotFieldConflict := by
  obtain ⟨p, -, hp⟩ := List.mem_filterMap.mp h
  obtain ⟨first, -, hfirst⟩ := Option.bind_eq_some_iff.mp hp
  split at hfirst
  · cases hfirst
    rfl
  · simp at hfirst

/-- The reports of the walk by their codes, whatever it remembers at the start. -/
theorem filter_relationsFrom (m : Manifest) (earlier : List PivotField)
    (rs : List OwnedRelation) :
    (relationsFrom m earlier rs).filter (·.code = .relationTargetNotFound) =
        rs.flatMap (danglingTarget m) ∧
      (relationsFrom m earlier rs).filter (·.code = .invalidPivot) = rs.flatMap misplacedPivot ∧
      (relationsFrom m earlier rs).filter (·.code = .pivotFieldConflict) =
        (withEarlier PivotField.key earlier (rs.flatMap OwnedRelation.pivotFields)).filterMap
          pivotReport? := by
  induction rs generalizing earlier with
  | nil => exact ⟨rfl, rfl, rfl⟩
  | cons r rs ih =>
      obtain ⟨htarget, hpivot, hconflict⟩ := ih (earlier ++ r.pivotFields)
      simp only [relationsFrom, List.filter_append, List.flatMap_cons, withEarlier_append,
        List.filterMap_append, htarget, hpivot, hconflict,
        filter_code fun _ ↦ code_of_mem_danglingTarget (m := m) (r := r),
        filter_code fun _ ↦ code_of_mem_misplacedPivot (r := r),
        filter_code fun _ ↦ code_of_mem_pivotConflicts (r := r)]
      refine ⟨?_, ?_, ?_⟩
      · simp
      · simp
      · simp only [reduceCtorEq, ↓reduceIte, List.nil_append]
        rfl

/-! ## The three lists -/

theorem flatMap_ite_nil {α β : Type} (p : α → Prop) [DecidablePred p] (f : α → List β)
    (xs : List α) : (xs.flatMap fun x ↦ if p x then f x else []) = (xs.filter p).flatMap f := by
  induction xs with
  | nil => rfl
  | cons x xs ih => by_cases hp : p x <;> simp [hp, ih]

theorem paths_reported {α : Type} (p : α → Bool) (report : α → Finding) (xs : List α) :
    (xs.flatMap fun x ↦ if p x = true then [report x] else []).map Finding.path =
      (xs.filter p).map fun x ↦ (report x).path := by
  rw [flatMap_ite_nil, ← List.map_eq_flatMap, List.map_map]
  simp only [Bool.decide_eq_true]
  rfl

/-- A property of relations that is the same in normal form picks the same relations. -/
theorem places_ownedRelations (m : Manifest) {p : OwnedRelation → Bool} {q : Relation → Prop}
    [DecidablePred q] (h : ∀ r : OwnedRelation, p r.normalize = true ↔ q r.relation)
    (ending : String) :
    ((ownedRelations m.normalize).filter p).map
        (fun r ↦ relationPath r.owner r.name ++ ending) =
      m.entities.flatMap fun e ↦ (e.relations.entries.filter fun r ↦ q r.2).map fun r ↦
        relationPath e.name r.1 ++ ending := by
  rw [ownedRelations_normalize, List.filter_map, List.map_map, ownedRelations,
    List.filter_flatMap, List.map_flatMap]
  refine List.flatMap_congr fun e _ ↦ ?_
  rw [List.filter_map, List.map_map]
  refine congrArg (List.map _) (List.filter_congr fun r _ ↦ ?_)
  rw [Bool.eq_iff_iff, decide_eq_true_iff]
  exact h ⟨e.name, r.1, r.2⟩

theorem isDangling_normalize (m : Manifest) (r : OwnedRelation) :
    r.normalize.isDangling m.normalize = true ↔
      r.relation.external = false ∧ r.relation.entity ∉ m.entities.map Entity.name := by
  rw [← Bool.not_eq_false, isDangling_eq_false_iff]
  simp [OwnedRelation.normalize, Relation.normalize, Manifest.normalize, Entity.normalize]

theorem hasMisplacedPivot_normalize (r : OwnedRelation) :
    r.normalize.hasMisplacedPivot = true ↔
      r.relation.pivot.isSome = true ∧ r.relation.kind ≠ .belongsToMany := by
  simp [OwnedRelation.hasMisplacedPivot, OwnedRelation.normalize, Relation.normalize]

def junctionFields (n : Manifest) : List PivotField :=
  n.entities.flatMap fun e ↦
    (e.relations.entries.filter fun r ↦ r.2.kind = .belongsToMany).flatMap fun r ↦
      r.2.pivot.toList.flatMap fun pivot ↦ pivot.fields.entries.map fun f ↦
        ⟨r.2.junctionName e.name, ⟨.pivot e.name r.1, f.1⟩, f.2⟩

theorem pivotFields_eq_junctionFields (n : Manifest) : pivotFields n = junctionFields n := by
  rw [pivotFields, ownedRelations, List.flatMap_assoc, junctionFields]
  refine List.flatMap_congr fun e _ ↦ ?_
  rw [List.flatMap_map, ← flatMap_ite_nil]
  refine List.flatMap_congr fun r _ ↦ ?_
  rw [OwnedRelation.pivotFields]
  split
  · cases r.2.pivot <;> simp
  · rfl

/-- Whether the field differs from the first declaration of it among the given ones.  Numbers are
compared by value, as everywhere in fields. -/
def PivotField.differsFromFirst (before : List PivotField) (d : PivotField) : Bool :=
  (before.find? (·.key == d.key)).any (·.field != d.field)

/-- The declarations that differ from the first one of the same field, which is in front of them. -/
def conflicting (ds : List PivotField) : List PivotField :=
  (ds.zipIdx.filter fun p ↦ p.1.differsFromFirst (ds.take p.2)).map Prod.fst

theorem path_pivotReport? (d : PivotField) (first? : Option PivotField) :
    (pivotReport? (d, first?)).map Finding.path =
      if first?.any (·.field != d.field) = true then some d.place.path else none := by
  cases first? with
  | none => rfl
  | some first =>
      simp only [pivotReport?, Option.bind_some, Option.any_some]
      split <;> rfl

theorem paths_pivotReports (ds : List PivotField) :
    ((withEarlier PivotField.key [] ds).filterMap pivotReport?).map Finding.path =
      (conflicting ds).map fun d ↦ d.place.path := by
  rw [withEarlier_eq_map_zipIdx, List.filterMap_map, List.map_filterMap, conflicting,
    List.map_map, ← List.filterMap_eq_filter, List.map_filterMap]
  refine List.filterMap_congr fun p _ ↦ ?_
  rw [Function.comp_apply, path_pivotReport?, List.nil_append, Option.guard,
    apply_ite (Option.map _)]
  rfl

end Lint

open Lint

/-- Each breach of a rule for relations is reported once, in the order of declaration: a target that
is neither declared nor external, a pivot of a relation without many on both sides, and a field of a
junction table that is declared differently from the first time. -/
theorem Manifest.relation_reports_exact [Pattern.Checker] (m : Manifest) :
    placesOf .relationTargetNotFound m.validate.errors =
        (m.entities.flatMap fun e ↦
          (e.relations.entries.filter fun r ↦
            r.2.external = false ∧ r.2.entity ∉ m.entities.map Entity.name).map fun r ↦
              e.name ++ ".relations." ++ r.1 ++ ".entity") ∧
      placesOf .invalidPivot m.validate.errors =
        (m.entities.flatMap fun e ↦
          (e.relations.entries.filter fun r ↦
              r.2.pivot.isSome ∧ r.2.kind ≠ .belongsToMany).map fun r ↦
            e.name ++ ".relations." ++ r.1 ++ ".pivot") ∧
      placesOf .pivotFieldConflict m.validate.errors =
        (conflicting (junctionFields m.normalize)).map fun d ↦ d.place.path := by
  obtain ⟨htarget, hpivot, hconflict⟩ :=
    filter_relationsFrom m.normalize [] (ownedRelations m.normalize)
  refine ⟨?_, ?_, ?_⟩
  · rw [placesOf_relation_errors m (by decide), relations, htarget]
    refine (paths_reported _ _ _).trans ?_
    exact places_ownedRelations m
      (q := fun r ↦ r.external = false ∧ r.entity ∉ m.entities.map Entity.name)
      (isDangling_normalize m) ".entity"
  · rw [placesOf_relation_errors m (by decide), relations, hpivot]
    refine (paths_reported _ _ _).trans ?_
    exact places_ownedRelations m (q := fun r ↦ r.pivot.isSome = true ∧ r.kind ≠ .belongsToMany)
      hasMisplacedPivot_normalize ".pivot"
  · rw [placesOf_relation_errors m (by decide), relations, hconflict, ← pivotFields,
      pivotFields_eq_junctionFields]
    exact paths_pivotReports _

end Scaffold

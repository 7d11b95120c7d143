import Mathlib.Data.Finset.Card
import Scaffold.Proofs.Lint.Reports
import Scaffold.Proofs.Manifest.Decoded
import Scaffold.Proofs.Repeats

/-!
# What is wrong with fields

The fields of entities and of junction tables are looked at one by one, each together with the map
it stands in.  Values, defaults and sources have a code each, and none of them is reported exactly
if all fields are sound.  Of a value that is declared more than once, all declarations but the first
are reported, so that the reports make up for the difference between the values and the distinct
ones.
-/

namespace Scaffold

structure PlacedField where
  place : FieldPlace
  siblings : Assoc Field
  field : Field

def placedIn (owner : FieldsOf) (fields : Assoc Field) : List PlacedField :=
  fields.entries.map fun f ↦ ⟨⟨owner, f.1⟩, fields, f.2⟩

def Manifest.placedFields (m : Manifest) : List PlacedField :=
  m.entities.flatMap fun e ↦ placedIn (.entity e.name) e.fields ++
    e.relations.entries.flatMap fun r ↦
      placedIn (.pivot e.name r.1) ((r.2.pivot.map Pivot.fields).getD {})

theorem Manifest.map_field_placedFields (m : Manifest) :
    m.placedFields.map PlacedField.field = m.everyField := by
  have hplaced (owner : FieldsOf) (fields : Assoc Field) :
      (placedIn owner fields).map PlacedField.field = fields.entries.map Prod.snd := by
    rw [placedIn, List.map_map]
    rfl
  rw [placedFields, everyField, List.map_flatMap]
  refine List.flatMap_congr fun e _ ↦ ?_
  simp only [Entity.everyField, List.map_flatMap, List.map_append, hplaced]

/-! ## Sound fields -/

def Literal.Suits (value : Literal) : FieldKind → Prop
  | .text | .date => ∃ s, value = .text s
  | .number => (∃ i, value = .integer i) ∨ ∃ x, value = .float x
  | .boolean => ∃ b, value = .flag b
  | .enum values => ∃ s ∈ values, value = .text s
  | .computed .. => False

/-- A field whose values, default and sources make sense: an enum has values and none of them
twice, a default is a value of the type, and what a field is computed from stands beside it and is
not computed itself. -/
structure PlacedField.Sound (p : PlacedField) : Prop where
  values : ∀ values, p.field.kind = .enum values → values ≠ [] ∧ values.Nodup
  default : ∀ value, p.field.default = some value → value.Suits p.field.kind
  sources : ∀ names expression, p.field.kind = .computed names expression →
    ∀ name ∈ names, ∃ g, Assoc.get? p.siblings name = some g ∧ g.isComputed = false

/-- Where the values of an enum are at fault: at the list, where it is empty, and at each value that
has been declared before. -/
def PlacedField.enumFaults (p : PlacedField) : List String :=
  match p.field.kind with
  | .enum [] => [p.place.path ++ ".values"]
  | .enum values =>
      (values.zipIdx.filter fun v ↦ v.1 ∈ values.take v.2).map fun v ↦
        s!"{p.place.path}.values[{v.2}]"
  | _ => []

/-! ## Repeated values -/

/-- The repeated values with their positions, found behind values that have come before. -/
theorem map_fst_withEarlier_zipIdx (earlier : List (String × Nat)) (values : List String)
    (k : Nat) :
    ((withEarlier Prod.fst earlier (values.zipIdx k)).filterMap fun p ↦ p.2.map (p.1, ·)).map
        Prod.fst =
      (values.zipIdx k).filter fun v ↦ v.1 ∈ earlier.map Prod.fst ++ values.take (v.2 - k) := by
  induction values generalizing earlier k with
  | nil => rfl
  | cons value values ih =>
      -- the value at the front is one that has come before for all that follow
      have htail : (values.zipIdx (k + 1)).filter (fun v ↦ v.1 ∈
            (earlier ++ [(value, k)]).map Prod.fst ++ values.take (v.2 - (k + 1))) =
          (values.zipIdx (k + 1)).filter fun v ↦ v.1 ∈
            earlier.map Prod.fst ++ (value :: values).take (v.2 - k) := by
        refine List.filter_congr fun v hv ↦ ?_
        have hpast : v.2 - k = v.2 - (k + 1) + 1 := by
          have := List.le_snd_of_mem_zipIdx hv
          omega
        simp [hpast]
      rw [List.zipIdx_cons, withEarlier]
      cases hfound : earlier.find? (Prod.fst · == value) with
      | none =>
          have hnew : value ∉ earlier.map Prod.fst ++ (value :: values).take (k - k) := by
            have hother := (find?_key_eq_none_iff Prod.fst earlier (value, k)).mp hfound
            simpa using fun n hn ↦ hother (value, n) hn rfl
          rw [List.filterMap_cons_none (by simp), ih,
            List.filter_cons_of_neg (by simpa using hnew), htail]
      | some first =>
          have hold : value ∈ earlier.map Prod.fst ++ (value :: values).take (k - k) := by
            have hkey := List.find?_some hfound
            have hmem := List.mem_map_of_mem (f := Prod.fst) (List.mem_of_find?_eq_some hfound)
            simpa [beq_iff_eq.mp hkey] using hmem
          rw [List.filterMap_cons_some (by rfl), List.map_cons, ih,
            List.filter_cons_of_pos (by simpa using hold), htail]

theorem map_fst_repeats_zipIdx (values : List String) :
    (repeats Prod.fst values.zipIdx).map Prod.fst =
      values.zipIdx.filter fun v ↦ v.1 ∈ values.take v.2 :=
  map_fst_withEarlier_zipIdx [] values 0

/-- The declarations of a value after its first make up for what is missing among the distinct
values. -/
theorem length_filter_mem_take (values : List String) :
    (values.zipIdx.filter fun v ↦ v.1 ∈ values.take v.2).length + values.toFinset.card =
      values.length := by
  induction values using List.reverseRecOn with
  | nil => rfl
  | append_singleton values value ih =>
      have hearlier : ((values.zipIdx).filter fun v ↦ v.1 ∈ (values ++ [value]).take v.2) =
          values.zipIdx.filter fun v ↦ v.1 ∈ values.take v.2 := by
        refine List.filter_congr fun v hv ↦ ?_
        rw [List.take_append_of_le_length (List.snd_lt_of_mem_zipIdx hv).le]
      rw [List.zipIdx_append, List.filter_append, hearlier, List.toFinset_append,
        List.length_append, List.length_append]
      have hunion : values.toFinset ∪ [value].toFinset = insert value values.toFinset := by simp
      rw [hunion]
      by_cases hmem : value ∈ values
      · have hlast : (([value].zipIdx (0 + values.length)).filter fun v ↦
            v.1 ∈ (values ++ [value]).take v.2).length = 1 := by
          simp [hmem]
        rw [hlast, Finset.insert_eq_of_mem (List.mem_toFinset.mpr hmem), List.length_singleton]
        omega
      · have hlast : (([value].zipIdx (0 + values.length)).filter fun v ↦
            v.1 ∈ (values ++ [value]).take v.2).length = 0 := by
          simp [hmem]
        rw [hlast, Finset.card_insert_of_notMem (by simpa using hmem), List.length_singleton]
        omega

theorem PlacedField.length_enumFaults {p : PlacedField} {values : List String}
    (hkind : p.field.kind = .enum values) (hvalues : values ≠ []) :
    p.enumFaults.length = values.length - values.toFinset.card := by
  have hcount := length_filter_mem_take values
  have hfaults : p.enumFaults.length =
      (values.zipIdx.filter fun v ↦ v.1 ∈ values.take v.2).length := by
    unfold enumFaults
    cases values with
    | nil => exact absurd rfl hvalues
    | cons value values => rw [hkind, List.length_map]
  omega

example : PlacedField.enumFaults ⟨⟨.entity "Post", "status"⟩, {},
    { kind := .enum ["draft", "live", "draft", "draft"] }⟩ =
      ["Post.fields.status.values[2]", "Post.fields.status.values[3]"] := by
  decide

namespace Lint

/-! ## When nothing is found -/

theorem repeatedValues_eq_nil_iff (place : FieldPlace) (values : List String) :
    repeatedValues place values = [] ↔ values.Nodup := by
  rw [repeatedValues, List.map_eq_nil_iff, repeats_eq_nil_iff, List.zipIdx_map_fst]

theorem enumValues_eq_nil_iff (place : FieldPlace) (f : Field) :
    enumValues place f = [] ↔ ∀ values, f.kind = .enum values → values ≠ [] ∧ values.Nodup := by
  unfold enumValues
  cases f.kind with
  | enum values =>
      simp only [FieldKind.enum.injEq, forall_eq', List.isEmpty_iff]
      by_cases hempty : values = []
      · simp [hempty]
      · rw [if_neg hempty, repeatedValues_eq_nil_iff, and_iff_right hempty]
  | text | number | boolean | date | computed => simp

theorem defaultProblem?_eq_none_iff (place : FieldPlace) (kind : FieldKind) (value : Literal) :
    defaultProblem? place kind value = none ↔ value.Suits kind := by
  cases kind <;> cases value <;> simp [defaultProblem?, Literal.Suits]

theorem default_eq_nil_iff (place : FieldPlace) (f : Field) :
    default place f = [] ↔ ∀ value, f.default = some value → value.Suits f.kind := by
  simp only [default, Option.toList_eq_nil_iff, Option.bind_eq_none_iff,
    defaultProblem?_eq_none_iff]

theorem sourceFieldProblem?_eq_none_iff (place : FieldPlace) (siblings : Assoc Field)
    (source : String) (index : Nat) :
    sourceFieldProblem? place siblings source index = none ↔
      ∃ g, Assoc.get? siblings source = some g ∧ g.isComputed = false := by
  unfold sourceFieldProblem?
  cases Assoc.get? siblings source with
  | none => simp
  | some g => simp

/-- A computed field is accepted exactly if all its sources are stored fields beside it. -/
theorem sourceFields_eq_nil_iff (place : FieldPlace) (siblings : Assoc Field) (f : Field) :
    sourceFields place siblings f = [] ↔
      ∀ names expression, f.kind = .computed names expression →
        ∀ name ∈ names, ∃ g, Assoc.get? siblings name = some g ∧ g.isComputed = false := by
  unfold sourceFields
  cases f.kind with
  | computed names expression =>
      simp only [List.filterMap_eq_nil_iff, sourceFieldProblem?_eq_none_iff,
        FieldKind.computed.injEq, and_imp]
      constructor
      · rintro h _ _ rfl - name hname
        obtain ⟨p, hp, rfl⟩ := List.mem_map.mp ((List.zipIdx_map_fst 0 names).symm ▸ hname)
        exact h p hp
      · intro h p hp
        exact h names expression rfl rfl p.1 (List.fst_mem_of_mem_zipIdx hp)
  | text | number | boolean | date | enum => simp

/-! ## Reports by codes -/

def placed [Pattern.Checker] (p : PlacedField) : List Finding :=
  field p.place.owner p.siblings p.place.field p.field

theorem fields_eq [Pattern.Checker] (m : Manifest) : fields m = m.placedFields.flatMap placed := by
  have hplaced (owner : FieldsOf) (fs : Assoc Field) :
      fieldMap owner fs = (placedIn owner fs).flatMap placed := by
    rw [placedIn, List.flatMap_map]
    rfl
  simp only [fields, Manifest.placedFields, List.flatMap_assoc, List.flatMap_append, hplaced]

/-- A rule is reported for its type, its pattern or its bound. -/
theorem code_of_mem_rule [Pattern.Checker] {place : FieldPlace} {kind : FieldKind} {r : Rule}
    {i : Nat} {f : Finding} (h : f ∈ rule place kind r i) :
    f.code ∈ [.validationTypeMismatch, .invalidRegex, .invalidValidationRange] := by
  unfold rule at h
  split at h
  · rw [List.mem_singleton.mp h]
    simp [Finding.code]
  · cases r with
    | email | url | integer | positive => simp at h
    | regex pattern =>
        cases hproblem : Pattern.Checker.problem? pattern with
        | none => simp [hproblem] at h
        | some problem =>
            simp only [hproblem, List.mem_singleton] at h
            simp [h, Finding.code]
    | min bound | max bound =>
        rw [(List.mem_ite_nil_left.mp h).2 |> List.mem_singleton.mp]
        simp [Finding.code]

theorem code_of_mem_rules [Pattern.Checker] {place : FieldPlace} {fld : Field} {f : Finding}
    (h : f ∈ rules place fld) :
    f.code ∈ [.validationTypeMismatch, .invalidRegex, .invalidValidationRange] := by
  rcases List.mem_append.mp h with h | h
  · obtain ⟨p, -, hp⟩ := List.mem_flatMap.mp h
    exact code_of_mem_rule hp
  · unfold crossedBounds at h
    split at h
    · rw [(List.mem_ite_nil_right.mp h).2 |> List.mem_singleton.mp]
      simp [Finding.code]
    · simp at h

theorem code_of_mem_enumValues {place : FieldPlace} {fld : Field} {f : Finding}
    (h : f ∈ enumValues place fld) : f.code = .invalidEnum := by
  unfold enumValues at h
  split at h
  · split at h
    · rw [List.mem_singleton.mp h]
      rfl
    · obtain ⟨p, -, rfl⟩ := List.mem_map.mp h
      rfl
  · simp at h

theorem code_of_mem_default {place : FieldPlace} {fld : Field} {f : Finding}
    (h : f ∈ default place fld) : f.code = .invalidDefault := by
  obtain ⟨value, -, hvalue⟩ := Option.bind_eq_some_iff.mp (Option.mem_toList.mp h)
  unfold defaultProblem? at hvalue
  split at hvalue
  case h_7 =>
    split at hvalue
    · simp at hvalue
    · cases hvalue
      rfl
  all_goals cases hvalue <;> rfl

/-- A source of a computed field is reported as not found. -/
theorem code_of_mem_sourceFields {place : FieldPlace} {siblings : Assoc Field} {fld : Field}
    {f : Finding} (h : f ∈ sourceFields place siblings fld) :
    f.code = .computedSourceNotFound := by
  unfold sourceFields at h
  split at h
  · obtain ⟨p, -, hp⟩ := List.mem_filterMap.mp h
    unfold sourceFieldProblem? at hp
    split at hp
    · cases hp
      rfl
    · split at hp
      · cases hp
        rfl
      · simp at hp
  · simp at h

theorem filter_invalidEnum_placed [Pattern.Checker] (p : PlacedField) :
    (placed p).filter (·.code = .invalidEnum) = enumValues p.place p.field := by
  have hrules : (rules p.place p.field).filter (·.code = .invalidEnum) = [] :=
    List.filter_eq_nil_iff.mpr fun f hf heq ↦ by
      simpa [of_decide_eq_true heq] using code_of_mem_rules hf
  rw [placed, field, List.filter_append, List.filter_append, List.filter_append, hrules,
    filter_code (fun _ ↦ code_of_mem_enumValues), filter_code (fun _ ↦ code_of_mem_default),
    filter_code (fun _ ↦ code_of_mem_sourceFields)]
  simp

/-- Nothing is found at a field, rules apart, exactly if the field is sound. -/
theorem forall_placed_iff_sound [Pattern.Checker] (p : PlacedField) :
    (∀ f ∈ placed p, f.code ∉ [.invalidEnum, .invalidDefault, .computedSourceNotFound]) ↔
      p.Sound := by
  have hnone {found : List Finding}
      (h : ∀ f ∈ found, f.code ∈ [.invalidEnum, .invalidDefault, .computedSourceNotFound]) :
      (∀ f ∈ found, f.code ∉ [.invalidEnum, .invalidDefault, .computedSourceNotFound]) ↔
        found = [] := by
    rw [List.eq_nil_iff_forall_not_mem]
    exact ⟨fun hall f hf ↦ hall f hf (h f hf), fun hempty f hf ↦ absurd hf (hempty f)⟩
  have hrules : ∀ f ∈ rules p.place p.field,
      f.code ∉ [.invalidEnum, .invalidDefault, .computedSourceNotFound] := by
    intro f hf hcode
    have hother := code_of_mem_rules hf
    simp only [List.mem_cons, List.not_mem_nil, or_false] at hcode hother
    rcases hcode with hcode | hcode | hcode <;> simp [hcode] at hother
  rw [placed, field, List.forall_mem_append, List.forall_mem_append, List.forall_mem_append,
    and_iff_right hrules, hnone fun f hf ↦ by simp [code_of_mem_enumValues hf],
    hnone fun f hf ↦ by simp [code_of_mem_default hf],
    hnone fun f hf ↦ by simp [code_of_mem_sourceFields hf], enumValues_eq_nil_iff,
    default_eq_nil_iff, sourceFields_eq_nil_iff]
  constructor
  · rintro ⟨⟨hvalues, hdefault⟩, hsources⟩
    exact ⟨hvalues, hdefault, hsources⟩
  · intro h
    exact ⟨⟨h.values, h.default⟩, h.sources⟩

/-- Each value that has been declared before is reported at its position. -/
theorem map_path_enumValues (p : PlacedField) :
    (enumValues p.place p.field).map Finding.path = p.enumFaults := by
  unfold enumValues PlacedField.enumFaults
  cases p.field.kind with
  | enum values =>
      cases values with
      | nil => rfl
      | cons value values =>
          simp only [List.isEmpty_cons, Bool.false_eq_true, ↓reduceIte]
          rw [repeatedValues, List.map_map, ← map_fst_repeats_zipIdx, List.map_map]
          rfl
  | text | number | boolean | date | computed => rfl

/-! ## The report of the lint -/

theorem forall_check_iff_sound [Pattern.Checker] (m : Manifest) :
    (∀ d ∈ fieldRulesLint.check m,
        d.code ∉ [.invalidEnum, .invalidDefault, .computedSourceNotFound]) ↔
      ∀ p ∈ m.placedFields, p.Sound := by
  change (∀ d ∈ (fields m).map Finding.diagnostic, _) ↔ _
  rw [List.forall_mem_map, fields_eq, List.forall_mem_flatMap]
  exact forall₂_congr fun p _ ↦ forall_placed_iff_sound p

theorem placesOf_invalidEnum [Pattern.Checker] (m : Manifest) :
    placesOf .invalidEnum (fieldRulesLint.check m) =
      m.placedFields.flatMap PlacedField.enumFaults := by
  change placesOf _ ((fields m).map Finding.diagnostic) = _
  rw [placesOf_findings, fields_eq, List.filter_flatMap, List.map_flatMap]
  refine List.flatMap_congr fun p _ ↦ ?_
  rw [filter_invalidEnum_placed, map_path_enumValues]

end Lint

end Scaffold

import Scaffold.Proofs.Manifest.Canonical

/-!
# The extent of the canonical document

The canonical document of a manifest is nested ten deep at most, and its numbers are those of the
fields of the manifest.
-/

namespace Scaffold

open Data Json

variable {α : Type} {P : Numeral → Prop} {k : Nat}

/-! ## Members that may be left out -/

theorem within_member? {key : String} {value : Option α} {encode : α → Value}
    (h : ∀ a, value = some a → Within P k (encode a)) :
    ∀ e ∈ member? key value encode, Within P k e.2 := by
  cases value with
  | none => simp [member?]
  | some a => simpa [member?] using h a rfl

theorem within_listMember? {key : String} {values : List α} {encode : α → Value}
    (h : ∀ a ∈ values, Within P k (encode a)) :
    ∀ e ∈ listMember? key values encode, Within P (k + 1) e.2 := by
  cases values with
  | nil => simp [listMember?]
  | cons a values =>
      simp only [listMember?, List.isEmpty_cons, Bool.false_eq_true, if_false,
        List.forall_mem_singleton]
      exact .array (List.forall_mem_map.mpr h)

theorem within_encodeMap {m : Assoc α} {encode : α → Value}
    (h : ∀ e ∈ m.entries, Within P k (encode e.2)) : Within P (k + 1) (encodeMap encode m) :=
  .object (List.forall_mem_map.mpr h)

theorem within_mapMember? {key : String} {m : Assoc α} {encode : α → Value}
    (h : ∀ e ∈ m.entries, Within P k (encode e.2)) :
    ∀ e ∈ mapMember? key encode m, Within P (k + 1) e.2 := by
  unfold mapMember?
  split
  · simp
  · simpa using within_encodeMap h

theorem within_texts (values : List String) : Within P (k + 1) (encodeTexts values) :=
  .array (List.forall_mem_map.mpr fun s _ ↦ .string s)

/-! ## Fields and relations -/

theorem within_rule {r : Rule} (h : r.Fits) : Within Numeral.Writable (k + 1) r.toJson := by
  refine .object ?_
  cases r with
  | email | url | integer | positive => simpa using .string _
  | regex pattern => simpa using ⟨.string _, .string _⟩
  | min bound | max bound => simpa using ⟨.string _, .float h⟩

theorem within_literal {l : Literal} (h : l.Fits) : Within Numeral.Writable k l.toJson := by
  cases l with
  | text s => exact .string s
  | integer i => exact .integer h
  | float x => exact .float h
  | flag b => exact .bool b

theorem within_kind (kind : FieldKind) : ∀ e ∈ kind.members, Within P (k + 1) e.2 := by
  cases kind with
  | text | number | boolean | date => simpa [FieldKind.members] using .string _
  | enum values => simpa [FieldKind.members] using ⟨.string _, within_texts values⟩
  | computed sources expression =>
      simpa [FieldKind.members] using ⟨.string _, within_texts sources, .string _⟩

theorem within_field {f : Field} (h : f.Fits) : Within Numeral.Writable (k + 3) f.toJson := by
  refine .object ?_
  simp only [List.forall_mem_append]
  exact ⟨⟨⟨⟨within_kind f.kind, within_member? fun b _ ↦ .bool b⟩,
    within_member? fun b _ ↦ .bool b⟩, within_member? fun l hl ↦ within_literal (h.default l hl)⟩,
    within_listMember? fun r hr ↦ within_rule (h.rules r hr)⟩

theorem within_fields {m : Assoc Field} (h : FieldsFit m) :
    ∀ e ∈ m.entries, Within Numeral.Writable (k + 3) e.2.toJson := fun e he ↦ within_field (h e he)

theorem within_pivot {p : Pivot} (h : FieldsFit p.fields) :
    Within Numeral.Writable (k + 5) p.toJson := by
  refine .object ?_
  simp only [List.forall_mem_append]
  exact ⟨within_member? fun s _ ↦ .string s, within_mapMember? (within_fields h)⟩

theorem within_relation {r : Relation} (h : r.Fits) :
    Within Numeral.Writable (k + 6) r.toJson := by
  refine .object ?_
  simp only [List.forall_mem_append, List.forall_mem_cons]
  refine ⟨⟨⟨⟨.string _, .string _, by simp⟩, within_member? fun s _ ↦ .string s⟩,
    within_member? fun p hp ↦ within_pivot (h p hp)⟩, ?_⟩
  cases r.external with
  | false => simp
  | true => simpa using .bool true

/-! ## Settings -/

theorem within_database (d : Database) : Within P (k + 1) d.toJson := by
  refine .object ?_
  simp only [List.forall_mem_append, List.forall_mem_cons]
  exact ⟨⟨.string _, within_member? fun s _ ↦ .string s⟩, within_member? fun s _ ↦ .string s⟩

theorem within_auth (a : Auth) : Within P (k + 2) a.toJson := by
  refine .object ?_
  simp only [List.forall_mem_append]
  exact ⟨within_member? fun b _ ↦ .bool b, within_listMember? fun s _ ↦ .string s⟩

theorem within_localization (l : Localization) : Within P (k + 2) l.toJson := by
  refine .object ?_
  simp only [List.forall_mem_append]
  exact ⟨within_member? fun s _ ↦ .string s, within_listMember? fun s _ ↦ .string s⟩

theorem within_tenancy (t : Tenancy) : Within P (k + 1) t.toJson := by
  refine .object ?_
  simp only [List.forall_mem_append]
  exact ⟨within_member? fun b _ ↦ .bool b, within_member? fun s _ ↦ .string s⟩

theorem within_observability (s : Observability) : Within P (k + 1) s.toJson := by
  refine .object ?_
  simp only [List.forall_mem_append]
  exact ⟨⟨within_member? fun b _ ↦ .bool b, within_member? fun b _ ↦ .bool b⟩,
    within_member? fun b _ ↦ .bool b⟩

theorem within_endpoints (e : Endpoints) : Within P (k + 1) e.toJson := by
  refine .object ?_
  simp only [List.forall_mem_append]
  exact ⟨⟨⟨⟨within_member? fun s _ ↦ .string s, within_member? fun s _ ↦ .string s⟩,
    within_member? fun s _ ↦ .string s⟩, within_member? fun s _ ↦ .string s⟩,
    within_member? fun s _ ↦ .string s⟩

theorem within_source (s : Source) : Within P (k + 2) s.toJson := by
  refine .object (List.forall_mem_cons.mpr ⟨.string _, ?_⟩)
  split
  · simp
  · simpa using within_endpoints s.endpoints

/-! ## Entities and the manifest -/

theorem within_behaviors (b : Behaviors) : Within P (k + 1) b.toJson := by
  refine .object ?_
  simp only [List.forall_mem_append]
  exact ⟨⟨within_member? fun b _ ↦ .bool b, within_member? fun b _ ↦ .bool b⟩,
    within_member? fun b _ ↦ .bool b⟩

theorem within_behaviors_member (b : Behaviors) : ∀ e ∈ b.member?, Within P (k + 1) e.2 := by
  unfold Behaviors.member?
  split
  · simp
  · simpa using within_behaviors b

theorem within_protection (p : Protection) : Within P (k + 1) p.toJson := by
  refine .object ?_
  simp only [List.forall_mem_cons]
  exact ⟨.bool _, .bool _, .bool _, .bool _, .bool _, by simp⟩

theorem within_entity {e : Entity} (h : e.Fits) : Within Numeral.Writable (k + 8) e.toJson := by
  refine .object ?_
  simp only [List.forall_mem_append, List.forall_mem_cons]
  exact ⟨⟨⟨⟨⟨.string _, within_member? fun s _ ↦ .string s⟩,
    within_encodeMap (within_fields h.fields),
    within_mapMember? fun r hr ↦ within_relation (h.relations r hr)⟩, within_behaviors_member _⟩,
    within_member? fun p _ ↦ within_protection p⟩, within_member? fun s _ ↦ within_source s⟩

theorem within_defaults (d : Defaults) : Within P (k + 2) d.toJson := by
  refine .object ?_
  simp only [List.forall_mem_append]
  exact ⟨within_behaviors_member _, within_member? fun p _ ↦ within_protection p⟩

theorem within_manifest {m : Manifest} (h : m.Fits) : Within Numeral.Writable 10 m.toJson := by
  refine .object ?_
  simp only [List.forall_mem_append, List.forall_mem_cons]
  exact ⟨⟨⟨⟨⟨⟨⟨⟨⟨.array (List.forall_mem_map.mpr fun e he ↦ within_entity (h e he)),
    within_member? fun d _ ↦ within_database d⟩, within_member? fun a _ ↦ within_auth a⟩,
    within_member? fun m _ ↦ .string _⟩, within_member? fun l _ ↦ within_localization l⟩,
    within_member? fun t _ ↦ within_tenancy t⟩, within_member? fun s _ ↦ within_observability s⟩,
    within_member? fun d _ ↦ within_defaults d⟩, within_member? fun s _ ↦ within_source s⟩,
    within_member? fun s _ ↦ .string s⟩

end Scaffold

import Scaffold.Proofs.Data.Reordering
import Scaffold.Proofs.Manifest.Agreement
import Scaffold.Proofs.Manifest.Survival

/-!
# Shorthands of fields

A field that is written with shorthands is the field that would be written without them.  It is
clear from the draft alone whether it is one, and which: the shorthands come behind the rules that
are written out, in an order of their own, and the order of the members makes no difference.  The
canonical document of the field has no shorthands, and is the same field again unless one of its
numbers is lost in it.
-/

namespace Scaffold

open Data Json

variable {o : Origin}

/-! ## Drafts that are fields -/

namespace FieldDraft

/-- Whether the members of a draft go together. -/
structure Coherent (d : FieldDraft) : Prop where
  type : d.type ∈ ["text", "number", "boolean", "date", "enum", "computed"]
  values : d.values.isSome = true ↔ d.type = "enum"
  sourceFields : d.sourceFields.isSome = true ↔ d.type = "computed"
  expression : d.expression.isSome = true ↔ d.type = "computed"
  requirement : ¬ ∃ b, d.required = some b ∧ d.optional = some b

def Asks (d : FieldDraft) : Rule → Prop
  | .email => d.email = some true
  | .url => d.url = some true
  | .regex pattern => d.regex = some pattern
  | .min bound => d.min = some bound
  | .max bound => d.max = some bound
  | .integer => d.integer = some true
  | .positive => d.positive = some true

/-- The field that a draft stands for. -/
structure StandsFor (d : FieldDraft) (f : Field) : Prop where
  type : f.kind.typeName = d.type
  values : ∀ values, f.kind = .enum values → d.values = some values
  computation : ∀ sources expression, f.kind = .computed sources expression →
    d.sourceFields = some sources ∧ d.expression = some expression
  required : f.required = d.required.or (d.optional.map (!·))
  unique : f.unique = d.unique
  default : f.default = d.default
  /-- The rules that are written out come first, and the others in a fixed order. -/
  rules : ∃ added, f.rules = d.rules ++ added ∧ (∀ r, r ∈ added ↔ d.Asks r) ∧
    (added.map Rule.name).Sublist ["email", "url", "regex", "min", "max", "integer", "positive"]

variable {d : FieldDraft} {f : Field}

/-- A draft has a type exactly if it names one and gives the members that belong to it. -/
theorem kind_eq_ok_iff {k : FieldKind} : d.kind = .ok k ↔
    k.typeName = d.type ∧ (∀ values, k = .enum values → d.values = some values) ∧
      ∀ sources expression, k = .computed sources expression →
        d.sourceFields = some sources ∧ d.expression = some expression := by
  constructor
  · intro h
    unfold kind at h
    split at h
    case h_7 => cases h
    case h_5 | h_6 =>
      split at h <;> cases h
      simp_all [FieldKind.typeName]
    all_goals
      cases h
      simp_all [FieldKind.typeName]
  · rintro ⟨htype, hvalues, hcomputation⟩
    unfold kind
    rw [← htype]
    cases k with
    | text | number | boolean | date => rfl
    | enum values => simp only [FieldKind.typeName, hvalues values rfl]
    | computed sources expression =>
        obtain ⟨hsources, hexpression⟩ := hcomputation sources expression rfl
        simp only [FieldKind.typeName, hsources, hexpression]

theorem stray_eq_ok_iff : d.stray = .ok () ↔
    (d.values.isSome = true → d.type = "enum") ∧
      (d.sourceFields.isSome = true → d.type = "computed") ∧
      (d.expression.isSome = true → d.type = "computed") := by
  unfold stray
  split
  case isTrue => simp_all
  case isFalse => split <;> grind

theorem requirement_eq_ok_iff {required : Option Bool} : d.requirement = .ok required ↔
    (¬ ∃ b, d.required = some b ∧ d.optional = some b) ∧
      required = d.required.or (d.optional.map (!·)) := by
  unfold requirement
  cases d.required with
  | none => cases d.optional <;> simp [eq_comm]
  | some required =>
      cases d.optional with
      | none => simp [eq_comm]
      | some optional =>
          by_cases h : required = optional
          · simp [h]
          · simp [h, eq_comm]

theorem mem_shorthands {r : Rule} : r ∈ d.shorthands ↔ d.Asks r := by
  cases r <;> simp [shorthands, switched, Asks]

/-- Shorthands come in a fixed order, each at most once. -/
theorem names_shorthands : (d.shorthands.map Rule.name).Sublist
    ["email", "url", "regex", "min", "max", "integer", "positive"] := by
  have hswitched (r : Rule) (switch : Option Bool) :
      ((switched r switch).map Rule.name).Sublist [r.name] := by
    unfold switched
    split <;> simp
  have hgiven {α : Type} (make : α → Rule) (name : String) (hname : ∀ a, (make a).name = name)
      (given : Option α) : ((given.toList.map make).map Rule.name).Sublist [name] := by
    cases given <;> simp [hname]
  simp only [shorthands, List.map_append]
  exact ((((((hswitched .email _).append (hswitched .url _)).append
    (hgiven .regex "regex" (fun _ ↦ rfl) _)).append (hgiven .min "min" (fun _ ↦ rfl) _)).append
    (hgiven .max "max" (fun _ ↦ rfl) _)).append (hswitched .integer _)).append
    (hswitched .positive _)

/-- There is a type for a draft exactly if its name is known and what it needs is there. -/
theorem exists_kind_iff : (∃ k, d.kind = .ok k) ↔
    d.type ∈ ["text", "number", "boolean", "date", "enum", "computed"] ∧
      (d.type = "enum" → d.values.isSome = true) ∧
      (d.type = "computed" → d.sourceFields.isSome = true ∧ d.expression.isSome = true) := by
  constructor
  · rintro ⟨k, hk⟩
    obtain ⟨htype, hvalues, hcomputation⟩ := kind_eq_ok_iff.mp hk
    rw [← htype]
    cases k with
    | text | number | boolean | date => simp [FieldKind.typeName]
    | enum values => simp [FieldKind.typeName, hvalues values rfl]
    | computed sources expression =>
        simp [FieldKind.typeName, hcomputation sources expression rfl]
  · -- with the type known, the members that belong to it tell the kind
    rintro ⟨htype, henum, hcomputed⟩
    simp only [List.mem_cons, List.not_mem_nil, or_false] at htype
    rcases htype with htype | htype | htype | htype | htype | htype
    · exact ⟨.text, kind_eq_ok_iff.mpr (by simp [FieldKind.typeName, htype])⟩
    · exact ⟨.number, kind_eq_ok_iff.mpr (by simp [FieldKind.typeName, htype])⟩
    · exact ⟨.boolean, kind_eq_ok_iff.mpr (by simp [FieldKind.typeName, htype])⟩
    · exact ⟨.date, kind_eq_ok_iff.mpr (by simp [FieldKind.typeName, htype])⟩
    · obtain ⟨values, hvalues⟩ := Option.isSome_iff_exists.mp (henum htype)
      exact ⟨.enum values, kind_eq_ok_iff.mpr (by simp [FieldKind.typeName, htype, hvalues])⟩
    · obtain ⟨sources, hsources⟩ := Option.isSome_iff_exists.mp (hcomputed htype).1
      obtain ⟨expression, hexpression⟩ := Option.isSome_iff_exists.mp (hcomputed htype).2
      exact ⟨.computed sources expression,
        kind_eq_ok_iff.mpr (by simp [FieldKind.typeName, htype, hsources, hexpression])⟩

/-- A draft is a field exactly if its members go together. -/
theorem exists_settle_iff : (∃ f, d.settle = .ok f) ↔ d.Coherent := by
  constructor
  · rintro ⟨f, hf⟩
    obtain ⟨hkind, hstray, hrequired, -⟩ := settle_eq_ok_iff.mp hf
    obtain ⟨htype, henum, hcomputed⟩ := exists_kind_iff.mp ⟨_, hkind⟩
    obtain ⟨hvalues, hsources, hexpression⟩ := stray_eq_ok_iff.mp hstray
    exact ⟨htype, ⟨hvalues, henum⟩, ⟨hsources, fun h ↦ (hcomputed h).1⟩,
      ⟨hexpression, fun h ↦ (hcomputed h).2⟩, (requirement_eq_ok_iff.mp hrequired).1⟩
  · intro h
    obtain ⟨kind, hkind⟩ := exists_kind_iff.mpr ⟨h.type, h.values.mpr, fun htype ↦
      ⟨h.sourceFields.mpr htype, h.expression.mpr htype⟩⟩
    have hstray := stray_eq_ok_iff.mpr ⟨h.values.mp, h.sourceFields.mp, h.expression.mp⟩
    have hrequired := requirement_eq_ok_iff.mpr ⟨h.requirement, rfl⟩
    exact ⟨⟨kind, _, d.unique, d.default, _⟩,
      settle_eq_ok_iff.mpr ⟨hkind, hstray, hrequired, rfl, rfl, rfl⟩⟩

theorem standsFor_of_settle (h : d.settle = .ok f) : d.StandsFor f := by
  obtain ⟨hkind, -, hrequired, hunique, hdefault, hrules⟩ := settle_eq_ok_iff.mp h
  obtain ⟨htype, hvalues, hcomputation⟩ := kind_eq_ok_iff.mp hkind
  exact ⟨htype, hvalues, hcomputation, (requirement_eq_ok_iff.mp hrequired).2, hunique, hdefault,
    d.shorthands, hrules, fun _ ↦ mem_shorthands, names_shorthands⟩

end FieldDraft

/-! ## Members in another order -/

/-- The same value once more.  Only in a text has it a place, which may be another one. -/
def SameValue : Origin → Tree → Tree → Prop
  | .jsonText => Alike .texts
  | .jsonValue | .toml => Eq

structure Data.Members.Rearranged (o : Origin) (members members' : Members) : Prop where
  complete : members'.Complete
  entries : Rearranges (fun e e' ↦ e.1 = e'.1 ∧ SameValue o e.2 e'.2)
    members.entries members'.entries

/-- Each slot of a field sets a part of the draft that no other slot sets. -/
theorem fieldSlots_commute : (fieldSlots o).Pairwise Slot.Commutes := by
  simp only [fieldSlots, List.pairwise_cons, List.forall_mem_cons, List.not_mem_nil, false_imp_iff,
    implies_true, List.Pairwise.nil, and_true]
  and_intros <;> exact Slot.commutes_of_put fun _ _ _ ↦ rfl

theorem SameValue.read_eq_ok {slot : Slot FieldDraft} (hslot : slot ∈ fieldSlots o) {t t' : Tree}
    (h : SameValue o t t') {r r' : FieldDraft} (hread : slot.read t r = .ok r') :
    slot.read t' r = .ok r' := by
  cases o with
  | jsonText =>
      have hslots : List.Forall₂ (Slot.Agrees .texts) (fieldSlots .jsonText)
          (fieldSlots .jsonText) := fieldSlots_agree (c := .texts)
      have hagrees := List.forall₂_same.mp hslots slot hslot
      exact ((hagrees.read r t t' h).eq_ok_iff r').mp hread
  | jsonValue | toml => exact h ▸ hread

theorem decodeField_of_rearranged {start start' : Position} {nesting : Nat}
    {members members' : Members} {f : Field} (hmembers : members.Rearranged o members')
    (h : decodeField o (.object start nesting members) = .ok f) :
    decodeField o (.object start' nesting members') = .ok f := by
  obtain ⟨d, hread, hsettle⟩ := bind_eq_ok.mp h
  obtain ⟨_, hdepth, hread⟩ := bind_eq_ok.mp hread
  have hdepth' : depthFault? start' nesting = none :=
    depthFault?_eq_none_iff.mpr (depthFault?_eq_none_iff.mp (noFault_eq_ok.mp hdepth))
  have hread' : recordMembers (fieldSlots o) {} members' = .ok d :=
    recordMembers_of_rearranges fieldSlots_commute
      (fun _ hslot _ _ hsame _ _ ↦ hsame.read_eq_ok hslot) hmembers.complete hmembers.entries hread
  exact bind_eq_ok.mpr
    ⟨d, bind_eq_ok.mpr ⟨(), noFault_eq_ok.mpr hdepth', hread'⟩, hsettle⟩

/-! ## The canonical text of a field -/

def Literal.doubles : Literal → List Double
  | .float x => [x]
  | _ => []

def Rule.doubles : Rule → List Double
  | .min bound | .max bound => [bound]
  | _ => []

def Field.doubles (f : Field) : List Double :=
  f.default.toList.flatMap Literal.doubles ++ f.rules.flatMap Rule.doubles

theorem Literal.readBack_iff {l : Literal} :
    l.toJson.ReadBack ↔ ∀ x ∈ l.doubles, ReadsBack x := by
  cases l <;> simp [toJson, doubles, Value.ReadBack, Value.numerals]

theorem Rule.readBack_iff {r : Rule} : r.toJson.ReadBack ↔ ∀ x ∈ r.doubles, ReadsBack x := by
  cases r <;> simp [toJson, doubles, Value.ReadBack, Value.numerals, Value.memberNumerals]

theorem Rule.fits_iff {r : Rule} : r.Fits ↔ ∀ x ∈ r.doubles, x.isFinite = true := by
  cases r <;> simp [Fits, doubles, Numeral.Writable]

namespace Field

variable {f : Field}

theorem forall_doubles {P : Double → Prop} : (∀ x ∈ f.doubles, P x) ↔
    (∀ l, f.default = some l → ∀ x ∈ l.doubles, P x) ∧ ∀ r ∈ f.rules, ∀ x ∈ r.doubles, P x := by
  simp only [doubles, List.forall_mem_append, List.forall_mem_flatMap, Option.mem_toList]

/-- A field can be written exactly if its default has 64 bits and its doubles are finite. -/
theorem fits_iff_doubles : f.Fits ↔ f.Sized ∧ ∀ x ∈ f.doubles, x.isFinite = true := by
  rw [forall_doubles]
  constructor
  · intro h
    refine ⟨fun i hi ↦ h.default _ hi, fun l hl x hx ↦ ?_,
      fun r hr ↦ Rule.fits_iff.mp (h.rules r hr)⟩
    cases l with
    | text | integer | flag => cases hx
    | float y => exact List.mem_singleton.mp hx ▸ h.default _ hl
  · rintro ⟨hsized, hdefault, hrules⟩
    refine ⟨fun l hl ↦ ?_, fun r hr ↦ Rule.fits_iff.mpr (hrules r hr)⟩
    cases l with
    | text | flag => trivial
    | integer i => exact hsized i hl
    | float x => exact hdefault _ hl x (List.mem_singleton.mpr rfl)

/-- A field is read back exactly if all its doubles are. -/
theorem readBack_iff_doubles : f.toJson.ReadBack ↔ ∀ x ∈ f.doubles, ReadsBack x := by
  rw [forall_doubles]
  constructor
  · intro h
    have hmembers := readBack_object.mp h
    refine ⟨fun l hl ↦ Literal.readBack_iff.mp ?_, fun r hr ↦ Rule.readBack_iff.mp ?_⟩
    · exact hmembers ("default", l.toJson) (by simp [hl, member?])
    · have hne : f.rules ≠ [] := List.ne_nil_of_mem hr
      have hrules := hmembers ("validations", .array (f.rules.map Rule.toJson))
        (by simp [hne, listMember?])
      exact readBack_array.mp hrules r.toJson (List.mem_map_of_mem hr)
  · rintro ⟨hdefault, hrules⟩
    refine readBack_field (fun l hl ↦ Literal.readBack_iff.mpr (hdefault l hl)) fun _ ↦ ?_
    refine readBack_array.mpr (List.forall_mem_map.mpr fun r hr ↦ ?_)
    exact Rule.readBack_iff.mpr (hrules r hr)

/-- A field whose whole numbers fit comes back from its canonical text exactly if its other numbers
are finite and read back. -/
theorem Sized.decodeText_pretty_iff (h : f.Sized) :
    decodeText (decodeField .jsonText) f.toJson.pretty = .ok f ↔
      ∀ x ∈ f.doubles, x.isFinite = true ∧ ReadsBack x := by
  rw [forall₂_and]
  constructor
  · -- no number of a text is infinite, so a field that comes back had none either
    intro hback
    obtain ⟨g, hread, hend⟩ := bind_eq_ok.mp hback
    obtain ⟨_, -, hend⟩ := bind_eq_ok.mp hend
    cases hend
    have hfits : f.Fits := fits_of_decodeField (read_finite _) hread
    have hreadBack : f.toJson.ReadBack :=
      (recovers_field f).readBack (within_field (k := 0) hfits) (by decide) hback
    exact ⟨(fits_iff_doubles.mp hfits).2, readBack_iff_doubles.mp hreadBack⟩
  · rintro ⟨hfinite, hreads⟩
    have hfits : f.Fits := fits_iff_doubles.mpr ⟨h, hfinite⟩
    have hrereads : Within Rereads 3 f.toJson :=
      (within_field hfits).imp fun n hn hwritable ↦ rereads_of_writable hwritable
        fun x hx _ ↦ readBack_iff_doubles.mpr hreads x (hx ▸ hn)
    exact decodeText_pretty (decodes_field hfits) hrereads (by decide)

end Field

/-- Shorthands say nothing that cannot be said without them.  A draft is a field exactly if its
members go together, and which field is told by the members alone.  The members of a field that was
read may come in any order, and its canonical text is the same field once more exactly if no number
is lost in it. -/
theorem FieldDraft.shorthands_are_rules (d : FieldDraft) (o : Origin) (t : Tree) (f : Field) :
    ((∃ g, d.settle = .ok g) ↔ d.Coherent) ∧ (d.settle = .ok f → d.StandsFor f) ∧
      (decodeField o t = .ok f →
        (∀ start nesting members, t = .object start nesting members →
          ∀ start' members', members.Rearranged o members' →
            decodeField o (.object start' nesting members') = .ok f) ∧
        (decodeText (decodeField .jsonText) f.toJson.pretty = .ok f ↔
          ∀ x ∈ f.doubles, x.isFinite = true ∧ ReadsBack x)) := by
  refine ⟨exists_settle_iff, standsFor_of_settle, fun h ↦ ⟨?_, ?_⟩⟩
  · rintro start nesting members rfl start' members' hmembers
    exact decodeField_of_rearranged hmembers h
  · exact (sized_of_decodeField h).decodeText_pretty_iff

def boundBehind : Members :=
  .more default ⟨.ok "type", ⟨1, 7⟩, default⟩ (.string ⟨1, 9⟩ ⟨1, 17⟩ (.ok "number")) <|
    .more default ⟨.ok "min", ⟨1, 24⟩, default⟩
      (.number ⟨1, 26⟩ ⟨1, 29⟩ (.ok (.float (Double.round false 1 2)))) <|
    .done (.closed ⟨1, 30⟩)

def boundInFront : Members :=
  .more default ⟨.ok "min", ⟨1, 6⟩, default⟩
      (.number ⟨1, 8⟩ ⟨1, 11⟩ (.ok (.float (Double.round false 1 2)))) <|
    .more default ⟨.ok "type", ⟨1, 19⟩, default⟩ (.string ⟨1, 21⟩ ⟨1, 29⟩ (.ok "number")) <|
    .done (.closed ⟨1, 30⟩)

theorem FieldDraft.shorthands_are_rules_bounded :
    let d : FieldDraft := { type := "number", min := some (Double.round false 1 2) }
    let f : Field := { kind := .number, rules := [.min (Double.round false 1 2)] }
    d.settle = .ok f ∧ d.Coherent ∧ d.StandsFor f ∧
      decodeField .jsonText (.object ⟨1, 1⟩ 0 boundBehind) = .ok f ∧
      boundBehind.Rearranged .jsonText boundInFront ∧
      decodeField .jsonText (.object ⟨1, 1⟩ 0 boundInFront) = .ok f ∧
      decodeText (decodeField .jsonText) f.toJson.pretty = .ok f := by
  intro d f
  have hsettle : d.settle = .ok f := rfl
  have hread : decodeField .jsonText (.object ⟨1, 1⟩ 0 boundBehind) = .ok f := rfl
  have hmembers : boundBehind.Rearranged .jsonText boundInFront := by
    refine ⟨⟨⟨_, rfl⟩, ⟨_, rfl⟩, rfl⟩, _, List.Perm.swap _ _ _, ?_⟩
    exact .cons ⟨rfl, .number _ _ _ _ (.ok _)⟩ (.cons ⟨rfl, .string _ _ _ _ (.ok _)⟩ .nil)
  obtain ⟨hfield, hstands, hdocument⟩ := shorthands_are_rules d .jsonText _ f
  obtain ⟨horder, hcanonical⟩ := hdocument hread
  refine ⟨hsettle, hfield.mp ⟨f, hsettle⟩, hstands hsettle, hread, hmembers,
    horder _ _ _ rfl _ _ hmembers, hcanonical.mpr fun x hx ↦ ?_⟩
  have hx : x = Double.round false 1 2 := by simpa [f, Field.doubles, Rule.doubles] using hx
  rw [hx]
  decide +kernel

def longDefault : String := "\x7b\"type\": \"number\", \"default\": 31.2452701914394380\x7d"

theorem FieldDraft.canonical_default_astray :
    ∃ f g, decodeText (decodeField .jsonText) longDefault = .ok f ∧
      decodeText (decodeField .jsonText) f.toJson.pretty = .ok g ∧ g ≠ f := by
  have hread : (decodeText (decodeField .jsonText) longDefault).toOption.any (fun f ↦
      (decodeText (decodeField .jsonText) f.toJson.pretty).toOption.any fun g ↦ g ≠ f) = true := by
    decide +kernel
  obtain ⟨f, hf, hback⟩ := exists_ok_of_any hread
  obtain ⟨g, hg, hne⟩ := exists_ok_of_any hback
  exact ⟨f, g, hf, hg, of_decide_eq_true hne⟩

end Scaffold

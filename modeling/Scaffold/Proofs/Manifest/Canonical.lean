import Scaffold.Manifest.Canonical
import Scaffold.Manifest.Decode
import Scaffold.Proofs.Json.Decoding

/-!
# The canonical document is decoded

Each part of a manifest is decoded from its canonical value as it is.  A part that is left out of
the document is one that the decoder supplies by itself.
-/

namespace Scaffold

open Data Json

variable {α σ : Type} {o : Origin}

/-! ## What a canonical document can hold -/

/-- A whole number of 64 bits with a sign, or a finite double. -/
def Data.Numeral.Writable : Numeral → Prop
  | .integer i => -(twoTo 63 : Int) ≤ i ∧ i < twoTo 63
  | .float x => x.isFinite = true

def Literal.Fits : Literal → Prop
  | .integer i => Numeral.Writable (.integer i)
  | .float x => Numeral.Writable (.float x)
  | _ => True

def Rule.Fits : Rule → Prop
  | .min bound | .max bound => Numeral.Writable (.float bound)
  | _ => True

structure Field.Fits (f : Field) : Prop where
  default : ∀ l, f.default = some l → l.Fits
  rules : ∀ r ∈ f.rules, r.Fits

def FieldsFit (m : Assoc Field) : Prop := ∀ f ∈ m.entries, f.2.Fits

def Relation.Fits (r : Relation) : Prop := ∀ p, r.pivot = some p → FieldsFit p.fields

structure Entity.Fits (e : Entity) : Prop where
  fields : FieldsFit e.fields
  relations : ∀ r ∈ e.relations.entries, r.2.Fits

/-- Every number can be written. -/
def Manifest.Fits (m : Manifest) : Prop := ∀ e ∈ m.entities, e.Fits

/-! ## Members that may be left out -/

section Members

variable {slots : List (Slot σ)} {r r' : σ} {key : String} {decode : Tree → Decoded α}
  {encode : α → Value} {ms : List (String × Value)}

theorem fills_optional {put : σ → Option α → σ} {value : Option α}
    (hslot : slots.find? (·.key == key) = some (.optional key decode put))
    (hnone : put r none = r)
    (h : ∀ a, value = some a → Decodes decode (encode a) a ∧ encode a ≠ .null)
    (hrest : Fills slots (put r value) ms r') :
    Fills slots r (member? key value encode ++ ms) r' := by
  cases value with
  | none =>
      rw [hnone] at hrest
      exact hrest
  | some a => exact .optional hslot (h a rfl).1 (h a rfl).2 hrest

theorem fills_omissible {put : σ → Option α → σ} {value : Option α}
    (hslot : slots.find? (·.key == key) = some (.omissible key decode put))
    (hnone : put r none = r)
    (h : ∀ a, value = some a → Decodes decode (encode a) a ∧ encode a ≠ .null)
    (hrest : Fills slots (put r value) ms r') :
    Fills slots r (member? key value encode ++ ms) r' := by
  cases value with
  | none =>
      rw [hnone] at hrest
      exact hrest
  | some a => exact .omissible hslot (h a rfl).1 (h a rfl).2 hrest

theorem fills_list {put : σ → List α → σ} {values : List α}
    (hslot : slots.find? (·.key == key) = some (.defaulted key (list o decode) put))
    (hnil : put r [] = r) (h : ∀ a ∈ values, Decodes decode (encode a) a)
    (hrest : Fills slots (put r values) ms r') :
    Fills slots r (listMember? key values encode ++ ms) r' := by
  cases values with
  | nil =>
      rw [hnil] at hrest
      exact hrest
  | cons a values => exact .defaulted hslot (decodes_list h) hrest

theorem fills_map {put : σ → Assoc α → σ} {m : Assoc α}
    (hslot : slots.find? (·.key == key) = some (.defaulted key (uniqueMap o decode) put))
    (hempty : put r {} = r) (h : ∀ e ∈ m.entries, Decodes decode (encode e.2) e.2)
    (hrest : Fills slots (put r m) ms r') :
    Fills slots r (mapMember? key encode m ++ ms) r' := by
  unfold mapMember?
  split
  case isTrue hm =>
      obtain rfl : m = {} := Assoc.ext (List.isEmpty_iff.mp hm)
      rw [hempty] at hrest
      exact hrest
  case isFalse => exact .defaulted hslot (decodes_uniqueMap h) hrest

end Members

/-! ## Keys of written objects -/

theorem keys_append {ms ms' : List (String × Value)} {ks ks' : List String}
    (h : (ms.map Prod.fst).Sublist ks) (h' : (ms'.map Prod.fst).Sublist ks') :
    ((ms ++ ms').map Prod.fst).Sublist (ks ++ ks') := by
  rw [List.map_append]
  exact h.append h'

theorem keys_cons (key : String) (v : Value) {ms : List (String × Value)} {ks : List String}
    (h : (ms.map Prod.fst).Sublist ks) : (((key, v) :: ms).map Prod.fst).Sublist (key :: ks) :=
  h.cons_cons key

theorem keys_ite (p : Prop) [Decidable p] (key : String) (v : Value) :
    ((if p then [] else [(key, v)]).map Prod.fst).Sublist [key] := by
  split
  · exact List.nil_sublist _
  · exact List.Sublist.refl _

theorem keys_member? (key : String) (value : Option α) (encode : α → Value) :
    ((member? key value encode).map Prod.fst).Sublist [key] := by
  cases value with
  | none => exact List.nil_sublist _
  | some a => exact List.Sublist.refl _

theorem keys_listMember? (key : String) (values : List α) (encode : α → Value) :
    ((listMember? key values encode).map Prod.fst).Sublist [key] := by
  cases values with
  | nil => exact List.nil_sublist _
  | cons a values => exact List.Sublist.refl _

theorem keys_mapMember? (key : String) (encode : α → Value) (m : Assoc α) :
    ((mapMember? key encode m).map Prod.fst).Sublist [key] := keys_ite _ _ _

/-! ## Fields -/

/-- A literal is decoded from its canonical value. -/
theorem decodes_literal {l : Literal} (h : l.Fits) : Decodes (decodeLiteral o) l.toJson l := by
  intro t ht
  cases l with
  | text s =>
      cases ht
      rfl
  | float x =>
      cases ht with
      | float h =>
          obtain ⟨p, q, rfl⟩ := h
          rfl
  | flag b =>
      cases ht
      rfl
  | integer i =>
      have hword : isWord64 i = true := by
        have htwo : (twoTo 63 : Int) ≤ twoTo 64 := by decide
        simp only [isWord64, Bool.and_eq_true, decide_eq_true_eq]
        exact ⟨h.1, by have := h.2; omega⟩
      cases ht with
      | integer hnumber =>
          obtain ⟨p, q, rfl⟩ := hnumber
          simp only [decodeLiteral, buffered, Tree.strictFault?, tokenFault?, noFault, hword, bind,
            Except.bind, pure, Except.pure, if_true, if_pos (And.intro h.2 h.1)]

theorem decodes_ruleForm {name : String} (h : name ∈ ruleForms.map Prod.fst) :
    Decodes (ruleForm o) (.string name) ((ruleForms.lookup name).getD .pattern) := by
  intro t ht
  simp only [ruleForm, decodes_variant h t ht]
  rfl

theorem decodes_rule_of_walks {ms : List (String × Value)} {p : RuleProgress} {r : Rule}
    (h : Walks (ruleStep o) .nothing ms p) (hfinish : ruleFinish p = .ok r) :
    Decodes (decodeRule o) (.object ms) r := by
  intro t ht
  cases ht with
  | object start hn hmembers =>
      simp only [decodeRule, depthFault?_eq_none hn, noFault, walkMembers_of_walks h hmembers,
        hfinish, bind, Except.bind]
      rfl

/-- A rule is read from its name and, where it has one, its value. -/
theorem decodes_rule (r : Rule) : Decodes (decodeRule o) r.toJson r := by
  have hplain : ∀ name, name ∈ ruleForms.map Prod.fst → ∀ ms p,
      Walks (ruleStep o) (.named ((ruleForms.lookup name).getD .pattern)) ms p →
        Walks (ruleStep o) .nothing (("rule", .string name) :: ms) p :=
    fun name hname ms p hrest ↦ .cons rfl ((decodes_ruleForm hname).map RuleProgress.named) hrest
  cases r with
  | email => exact decodes_rule_of_walks (hplain "email" (by decide) _ _ (.nil _)) rfl
  | url => exact decodes_rule_of_walks (hplain "url" (by decide) _ _ (.nil _)) rfl
  | integer => exact decodes_rule_of_walks (hplain "integer" (by decide) _ _ (.nil _)) rfl
  | positive => exact decodes_rule_of_walks (hplain "positive" (by decide) _ _ (.nil _)) rfl
  | regex pattern =>
      exact decodes_rule_of_walks (hplain "regex" (by decide) _ _
        (.cons rfl (((decodes_text pattern).map Rule.regex).map RuleProgress.complete)
          (.nil _))) rfl
  | min bound =>
      exact decodes_rule_of_walks (hplain "min" (by decide) _ _
        (.cons rfl (((decodes_double bound).map Rule.min).map RuleProgress.complete) (.nil _))) rfl
  | max bound =>
      exact decodes_rule_of_walks (hplain "max" (by decide) _ _
        (.cons rfl (((decodes_double bound).map Rule.max).map RuleProgress.complete) (.nil _))) rfl

def Field.draft (f : Field) : FieldDraft :=
  { type := f.kind.typeName
    values := match f.kind with
      | .enum values => some values
      | _ => none
    sourceFields := match f.kind with
      | .computed sources _ => some sources
      | _ => none
    expression := match f.kind with
      | .computed _ expression => some expression
      | _ => none
    required := f.required, unique := f.unique, default := f.default, rules := f.rules }

theorem Field.settle_draft (f : Field) : f.draft.settle = .ok f := by
  obtain ⟨kind, required, unique, default, rules⟩ := f
  cases kind <;> cases required <;>
    simp [Field.draft, FieldDraft.settle, FieldDraft.kind, FieldKind.typeName, FieldDraft.stray,
      FieldDraft.requirement, FieldDraft.shorthands, FieldDraft.switched, bind, Except.bind, pure,
      Except.pure]

theorem decodes_texts (values : List String) :
    Decodes (list o (text o)) (encodeTexts values) values :=
  decodes_list fun s _ ↦ decodes_text s

theorem fills_kind (k : FieldKind) {ms : List (String × Value)} {d : FieldDraft}
    (hrest : Fills (fieldSlots o) (Field.draft { kind := k }) ms d) :
    Fills (fieldSlots o) {} (k.members ++ ms) d := by
  cases k with
  | text | number | boolean | date => exact .required rfl (decodes_text _) hrest
  | enum values =>
      refine .required rfl (decodes_text _) ?_
      exact .optional rfl (decodes_texts values) (by simp [encodeTexts]) hrest
  | computed sources expression =>
      refine .required rfl (decodes_text _) ?_
      refine .optional rfl (decodes_texts sources) (by simp [encodeTexts]) ?_
      exact .optional rfl (decodes_text expression) (by simp) hrest

theorem decodes_flag_bool (b : Bool) : Decodes (flag o) (.bool b) b ∧ Value.bool b ≠ .null :=
  ⟨decodes_flag b, by simp⟩

theorem keys_kind (k : FieldKind) :
    (k.members.map Prod.fst).Sublist ["type", "values", "sourceFields", "expression"] := by
  cases k <;> simp [FieldKind.members]

/-- A field is decoded from its canonical value. -/
theorem decodes_field {f : Field} (h : f.Fits) :
    Decodes (decodeField o) f.toJson f := by
  suffices hdraft : Decodes (record o "RawField" (fieldSlots o) {}) f.toJson f.draft by
    intro t ht
    simp only [decodeField, hdraft t ht, bind, Except.bind, f.settle_draft]
    rfl
  unfold Field.toJson
  refine decodes_record (.of_append_nil ?_) ?_ ?_
  · simp only [List.append_assoc]
    refine fills_kind f.kind ?_
    refine fills_optional rfl rfl (fun b _ ↦ decodes_flag_bool b) ?_
    refine fills_optional rfl rfl (fun b _ ↦ decodes_flag_bool b) ?_
    refine fills_optional rfl rfl (fun l hl ↦ ⟨decodes_literal (h.default l hl), ?_⟩) ?_
    · cases l <;> simp [Literal.toJson]
    refine fills_list rfl rfl (fun r _ ↦ decodes_rule r) ?_
    exact .done rfl
  · exact (keys_append (keys_append (keys_append (keys_append (keys_kind _) (keys_member? ..))
      (keys_member? ..)) (keys_member? ..)) (keys_listMember? ..)).nodup (by decide)
  · simp [fieldSlots, Slot.required, Slot.optional, Slot.defaulted, FieldKind.members]

/-! ## Relations -/

theorem decodes_named {β : Type} {table : List (String × β)} {fallback b : β} {name : String}
    (hname : name ∈ table.map Prod.fst) (hb : (table.lookup name).getD fallback = b) :
    Decodes (named o table fallback) (.string name) b := by
  intro t ht
  simp only [named, decodes_variant hname t ht, bind, Except.bind, hb]
  rfl

theorem decodes_string (s : String) : Decodes (text o) (.string s) s ∧ Value.string s ≠ .null :=
  ⟨decodes_text s, by simp⟩

theorem decodes_pivot {p : Pivot} (h : FieldsFit p.fields) :
    Decodes (record o "RawPivot" (pivotSlots o) {}) p.toJson p := by
  unfold Pivot.toJson
  refine decodes_record (.of_append_nil ?_) ?_ ?_
  · simp only [List.append_assoc]
    refine fills_optional rfl rfl (fun s _ ↦ decodes_string s) ?_
    refine fills_map rfl rfl (fun f hf ↦ decodes_field (h f hf)) ?_
    exact .done rfl
  · exact (keys_append (keys_member? ..) (keys_mapMember? ..)).nodup (by decide)
  · simp [pivotSlots, Slot.optional, Slot.defaulted]

/-- A relation is decoded from its canonical value. -/
theorem decodes_relation {r : Relation} (h : r.Fits) :
    Decodes (decodeRelation o) r.toJson r := by
  unfold Relation.toJson
  refine decodes_record (.of_append_nil ?_) ?_ ?_
  · simp only [List.append_assoc, List.cons_append, List.nil_append]
    refine .required rfl (decodes_named (b := r.kind) ?_ ?_) ?_
    · cases r.kind <;> decide
    · cases r.kind <;> decide
    refine .required rfl (decodes_text r.entity) ?_
    refine fills_optional rfl rfl (fun s _ ↦ decodes_string s) ?_
    refine fills_optional rfl rfl (fun p hp ↦ ⟨decodes_pivot (h p hp), by simp [Pivot.toJson]⟩) ?_
    cases hexternal : r.external with
    | false => exact .done (by rw [← hexternal])
    | true => exact .defaulted rfl (decodes_flag true) (.done (by rw [← hexternal]))
  · have hexternal : ((if r.external = true then [("external", Value.bool true)] else []).map
        Prod.fst).Sublist ["external"] := by
      cases r.external <;> simp
    exact (keys_append (keys_append (keys_append (keys_cons _ _ (keys_cons _ _ (.refl _)))
      (keys_member? ..)) (keys_member? ..)) hexternal).nodup (by decide)
  · simp [relationSlots, Slot.required, Slot.optional, Slot.defaulted]

/-! ## Settings -/

/-- A database is decoded from its canonical value. -/
theorem decodes_database (d : Database) : Decodes (decodeDatabase o) d.toJson d := by
  unfold Database.toJson
  refine decodes_record (.of_append_nil ?_) ?_ ?_
  · simp only [List.append_assoc, List.cons_append]
    refine .required rfl (decodes_named (b := d.kind) ?_ ?_) ?_
    · cases d.kind <;> decide
    · cases d.kind <;> decide
    refine fills_omissible rfl rfl (fun s _ ↦ decodes_string s) ?_
    refine fills_omissible rfl rfl (fun s _ ↦ decodes_string s) ?_
    exact .done rfl
  · exact (keys_append (keys_cons _ _ (keys_member? ..)) (keys_member? ..)).nodup (by decide)
  · simp [databaseSlots, Slot.required, Slot.omissible]

theorem decodes_auth (a : Auth) : Decodes (decodeAuth o) a.toJson a := by
  unfold Auth.toJson
  refine decodes_record (.of_append_nil ?_) ?_ ?_
  · simp only [List.append_assoc]
    refine fills_omissible rfl rfl (fun b _ ↦ decodes_flag_bool b) ?_
    refine fills_list rfl rfl (fun s _ ↦ decodes_text s) ?_
    exact .done rfl
  · exact (keys_append (keys_member? ..) (keys_listMember? ..)).nodup (by decide)
  · simp [authSlots, Slot.omissible, Slot.defaulted]

theorem decodes_mode (m : Mode) : Decodes (decodeMode o) (.string m.name) m :=
  decodes_named (by cases m <;> decide) (by cases m <;> decide)

theorem decodes_localization (l : Localization) :
    Decodes (record o "I18nConfig" (localizationSlots o) {}) l.toJson l := by
  unfold Localization.toJson
  refine decodes_record (.of_append_nil ?_) ?_ ?_
  · simp only [List.append_assoc]
    refine fills_omissible rfl rfl (fun s _ ↦ decodes_string s) ?_
    refine fills_list rfl rfl (fun s _ ↦ decodes_text s) ?_
    exact .done rfl
  · exact (keys_append (keys_member? ..) (keys_listMember? ..)).nodup (by decide)
  · simp [localizationSlots, Slot.omissible, Slot.defaulted]

theorem decodes_tenancy (t : Tenancy) :
    Decodes (record o "TenancyConfig" (tenancySlots o) {}) t.toJson t := by
  unfold Tenancy.toJson
  refine decodes_record (.of_append_nil ?_) ?_ ?_
  · simp only [List.append_assoc]
    refine fills_omissible rfl rfl (fun b _ ↦ decodes_flag_bool b) ?_
    refine fills_omissible rfl rfl (fun s _ ↦ decodes_string s) ?_
    exact .done rfl
  · exact (keys_append (keys_member? ..) (keys_member? ..)).nodup (by decide)
  · simp [tenancySlots, Slot.omissible]

theorem decodes_observability (s : Observability) :
    Decodes (record o "ObservabilityConfig" (observabilitySlots o) {}) s.toJson s := by
  unfold Observability.toJson
  refine decodes_record (.of_append_nil ?_) ?_ ?_
  · simp only [List.append_assoc]
    refine fills_omissible rfl rfl (fun b _ ↦ decodes_flag_bool b) ?_
    refine fills_omissible rfl rfl (fun b _ ↦ decodes_flag_bool b) ?_
    refine fills_omissible rfl rfl (fun b _ ↦ decodes_flag_bool b) ?_
    exact .done rfl
  · exact (keys_append (keys_append (keys_member? ..) (keys_member? ..))
      (keys_member? ..)).nodup (by decide)
  · simp [observabilitySlots, Slot.omissible]

/-- Endpoints are decoded from their canonical value. -/
theorem decodes_endpoints (e : Endpoints) :
    Decodes (record o "Endpoints" (endpointSlots o) Endpoints.none) e.toJson e := by
  unfold Endpoints.toJson
  refine decodes_record (.of_append_nil ?_) ?_ ?_
  · simp only [List.append_assoc]
    refine fills_omissible rfl rfl (fun s _ ↦ decodes_string s) ?_
    refine fills_omissible rfl rfl (fun s _ ↦ decodes_string s) ?_
    refine fills_omissible rfl rfl (fun s _ ↦ decodes_string s) ?_
    refine fills_omissible rfl rfl (fun s _ ↦ decodes_string s) ?_
    refine fills_omissible rfl rfl (fun s _ ↦ decodes_string s) ?_
    exact .done rfl
  · exact (keys_append (keys_append (keys_append (keys_append (keys_member? ..)
      (keys_member? ..)) (keys_member? ..)) (keys_member? ..)) (keys_member? ..)).nodup (by decide)
  · simp [endpointSlots, Slot.omissible]

theorem endpoints_eq_none {e : Endpoints} (h : Endpoints.isEmpty e = true) :
    e = Endpoints.none := by
  obtain ⟨list, get, create, update, remove⟩ := e
  simp [Endpoints.isEmpty, PerOperation.toList] at h
  simp [Endpoints.none, PerOperation.const, h]

theorem decodes_source (s : Source) : Decodes (decodeSource o) s.toJson s := by
  unfold Source.toJson
  refine decodes_record (.of_append_nil ?_) ?_ ?_
  · simp only [List.cons_append]
    refine .required rfl (decodes_text s.baseUrl) ?_
    split
    case isTrue hempty =>
        exact .done (by rw [← endpoints_eq_none hempty])
    case isFalse => exact .defaulted rfl (decodes_endpoints s.endpoints) (.done rfl)
  · exact (keys_cons _ _ (keys_ite _ _ _)).nodup (by decide)
  · simp [sourceSlots, Slot.required, Slot.defaulted]

/-! ## Entities -/

theorem decodes_behaviors (b : Behaviors) : Decodes (decodeBehaviors o) b.toJson b := by
  unfold Behaviors.toJson
  refine decodes_record (.of_append_nil ?_) ?_ ?_
  · simp only [List.append_assoc]
    refine fills_optional rfl rfl (fun b _ ↦ decodes_flag_bool b) ?_
    refine fills_optional rfl rfl (fun b _ ↦ decodes_flag_bool b) ?_
    refine fills_optional rfl rfl (fun b _ ↦ decodes_flag_bool b) ?_
    exact .done rfl
  · exact (keys_append (keys_append (keys_member? ..) (keys_member? ..))
      (keys_member? ..)).nodup (by decide)
  · simp [behaviorSlots, Slot.optional]

/-- Switches that are all unset are left out, and come back as a record of unset switches. -/
theorem fills_behaviors {slots : List (Slot σ)} {put : σ → Option Behaviors → σ} {r r' : σ}
    {b : Behaviors} {ms : List (String × Value)}
    (hslot : slots.find? (·.key == "behaviors") =
      some (.optional "behaviors" (decodeBehaviors o) put))
    (hunset : put r (some {}) = r) (hrest : Fills slots (put r (some b)) ms r') :
    Fills slots r (b.member? ++ ms) r' := by
  unfold Behaviors.member?
  split
  case isTrue hb =>
      obtain rfl : b = {} := by simpa [Behaviors.isUnset, Behaviors.unset] using hb
      rw [hunset] at hrest
      exact hrest
  case isFalse =>
      exact .optional hslot (decodes_behaviors b) (by simp [Behaviors.toJson]) hrest

theorem keys_behaviors (b : Behaviors) : (b.member?.map Prod.fst).Sublist ["behaviors"] :=
  keys_ite _ _ _

/-- A protection is decoded from its canonical value. -/
theorem decodes_protection (p : Protection) : Decodes (decodeProtection o) p.toJson p := by
  intro t ht
  unfold Protection.toJson at ht
  cases ht with
  | object start hn hmembers =>
      have hfills : Fills (operationSlots o) Protection.none
          [("list", .bool p.list), ("get", .bool p.get), ("create", .bool p.create),
            ("update", .bool p.update), ("remove", .bool p.remove)] p := by
        refine .defaulted rfl (decodes_flag p.list) ?_
        refine .defaulted rfl (decodes_flag p.get) ?_
        refine .defaulted rfl (decodes_flag p.create) ?_
        refine .defaulted rfl (decodes_flag p.update) ?_
        refine .defaulted rfl (decodes_flag p.remove) ?_
        exact .done rfl
      simp only [decodeProtection, depthFault?_eq_none hn, noFault, bind, Except.bind]
      exact recordMembers_of_fills hfills (show ["list", "get", "create", "update", "remove"].Nodup
        by decide) (by simp [operationSlots, Slot.defaulted]) hmembers

theorem decodes_protection_member (p : Protection) :
    Decodes (decodeProtection o) p.toJson p ∧ p.toJson ≠ .null :=
  ⟨decodes_protection p, by simp [Protection.toJson]⟩

theorem decodes_source_member (s : Source) :
    Decodes (decodeSource o) s.toJson s ∧ s.toJson ≠ .null :=
  ⟨decodes_source s, by simp [Source.toJson]⟩

/-- An entity is decoded from its canonical value. -/
theorem decodes_entity {e : Entity} (h : e.Fits) : Decodes (decodeEntity o) e.toJson e := by
  suffices hdraft : Decodes (decodeEntityDraft o) e.toJson
      ⟨some e.name, { e with name := "" }⟩ by
    intro t ht
    simp only [decodeEntity, hdraft t ht, bind, Except.bind]
    rfl
  unfold Entity.toJson
  refine decodes_record (.of_append_nil ?_) ?_ ?_
  · simp only [List.append_assoc, List.cons_append]
    refine .optional rfl (decodes_text e.name) (by simp) ?_
    refine fills_optional rfl rfl (fun s _ ↦ decodes_string s) ?_
    refine .defaulted rfl (decodes_uniqueMap fun f hf ↦ decodes_field (h.fields f hf)) ?_
    refine fills_map rfl rfl (fun r hr ↦ decodes_relation (h.relations r hr)) ?_
    refine fills_behaviors rfl rfl ?_
    refine fills_optional rfl rfl (fun p _ ↦ decodes_protection_member p) ?_
    refine fills_optional rfl rfl (fun s _ ↦ decodes_source_member s) ?_
    exact .done rfl
  · exact (keys_append (keys_append (keys_append (keys_append
      (keys_cons _ _ (keys_member? ..)) (keys_cons _ _ (keys_mapMember? ..)))
      (keys_behaviors _)) (keys_member? ..)) (keys_member? ..)).nodup (by decide)
  · simp [entitySlots, Slot.optional, Slot.defaulted]

/-! ## The manifest -/

theorem decodes_defaults (d : Defaults) :
    Decodes (record o "RawDefaults" (defaultsSlots o) {}) d.toJson d := by
  unfold Defaults.toJson
  refine decodes_record (.of_append_nil ?_) ?_ ?_
  · simp only [List.append_assoc]
    refine fills_behaviors rfl rfl ?_
    refine fills_optional rfl rfl (fun p _ ↦ decodes_protection_member p) ?_
    exact .done rfl
  · exact (keys_append (keys_behaviors _) (keys_member? ..)).nodup (by decide)
  · simp [defaultsSlots, Slot.optional]

theorem decodes_entities {es : List Entity} (h : ∀ e ∈ es, e.Fits) :
    Decodes (decodeEntities o) (.array (es.map Entity.toJson)) es := by
  intro t ht
  cases ht with
  | array p hn hitems =>
      have hwalk := walkItems_denote (fun e he ↦ decodes_entity (o := o) (h e he)) hitems []
      simp only [decodeEntities, depthFault?_eq_none hn, hwalk]
      simp [noFault, bind, Except.bind, pure, Except.pure]

/-- The canonical value of a manifest is decoded as the manifest. -/
theorem decodes_manifest {m : Manifest} (h : m.Fits) :
    Decodes (decodeManifest o) m.toJson m := by
  unfold Manifest.toJson
  refine decodes_record (.of_append_nil ?_) ?_ ?_
  · simp only [List.append_assoc, List.cons_append]
    refine .required rfl (decodes_entities h) ?_
    refine fills_optional rfl rfl
      (fun d _ ↦ ⟨decodes_database d, by simp [Database.toJson]⟩) ?_
    refine fills_optional rfl rfl (fun a _ ↦ ⟨decodes_auth a, by simp [Auth.toJson]⟩) ?_
    refine fills_optional rfl rfl (fun m _ ↦ ⟨decodes_mode m, by simp⟩) ?_
    refine fills_optional rfl rfl
      (fun l _ ↦ ⟨decodes_localization l, by simp [Localization.toJson]⟩) ?_
    refine fills_optional rfl rfl (fun t _ ↦ ⟨decodes_tenancy t, by simp [Tenancy.toJson]⟩) ?_
    refine fills_optional rfl rfl
      (fun s _ ↦ ⟨decodes_observability s, by simp [Observability.toJson]⟩) ?_
    refine fills_optional rfl rfl (fun d _ ↦ ⟨decodes_defaults d, by simp [Defaults.toJson]⟩) ?_
    refine fills_optional rfl rfl (fun s _ ↦ decodes_source_member s) ?_
    refine fills_optional rfl rfl (fun s _ ↦ decodes_string s) ?_
    exact .done rfl
  · exact (keys_append (keys_append (keys_append (keys_append (keys_append (keys_append
      (keys_append (keys_append (keys_cons _ _ (keys_member? ..)) (keys_member? ..))
      (keys_member? ..)) (keys_member? ..)) (keys_member? ..)) (keys_member? ..))
      (keys_member? ..)) (keys_member? ..)) (keys_member? ..)).nodup (by decide)
  · simp [manifestSlots, Slot.required, Slot.optional]

end Scaffold

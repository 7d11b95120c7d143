import Scaffold.Manifest.Document
import Scaffold.Proofs.Data.RepeatedKeys
import Scaffold.Proofs.Manifest.Decoded
import Scaffold.Proofs.Manifest.RoundTrip
import Scaffold.Proofs.Manifest.TextsAndValues

/-!
# Repeated keys in the text of a manifest

The objects of a manifest are records, maps with unique keys, and rules.  A record refuses a key
that it was given before, and so does a map; but a rule skips the keys that it does not know,
however often they come, and whatever their values hold.  So in a text that is accepted a key is
repeated only in the value of `$schema`, which nobody looks at, and in rules, among the keys they do
not know and within the values of those.
-/

namespace Scaffold

open Data

/-! ## Where keys may be repeated -/

/-- A rule may repeat keys other than its two, and anything may be in their values. -/
def ruleLeeway : Leeway
  | [], key => key ∉ ["rule", "value"]
  | .member name :: _, _ => name ∉ ["rule", "value"]
  | .item _ :: _, _ => False

def fieldLeeway : Leeway := ruleLeeway.inside.slot "validations" 8

def relationLeeway : Leeway := (fieldLeeway.inside.slot "fields" 1).slot "pivot" 3

def entityLeeway : Leeway :=
  (fieldLeeway.inside.slot "fields" 2).or (relationLeeway.inside.slot "relations" 3)

def manifestLeeway : Leeway :=
  (Leeway.all.slot "$schema" 0).or (entityLeeway.inside.slot "entities" 1)

/-! ## Rules and literals -/

theorem confines_named {L : Leeway} {α : Type} (table : List (String × α)) (fallback : α) :
    Confines L (named .jsonText table fallback) := by
  intro t a ht trail key hkey
  obtain ⟨name, hname, -⟩ := bind_eq_ok.mp ht
  exact confines_variant (table.map Prod.fst) t name hname trail key hkey

theorem isScalar_of_ruleValue {form : RuleForm} {t : Tree} {rule : Rule}
    (h : ruleValue .jsonText form t = .ok rule) : t.isScalar = true := by
  cases t with
  | null | bool | number | string | broken => rfl
  | list | object =>
      cases form with
      | plain =>
          simp only [ruleValue] at h
          exact absurd h mismatchEntered_ne_ok
      | pattern | bound => cases h

def RuleProgress.Seen : RuleProgress → String → Prop
  | .nothing, _ => False
  | .named _, key => key = "rule"
  | .valued _, key => key = "value"
  | .complete _, key => key ∈ ["rule", "value"]

/-- A value that came before the name of its rule has been put aside. -/
def RuleProgress.Owes (p : RuleProgress) (key : String) (t : Tree) : Prop :=
  key = "value" ∧ p = .valued t

/-- What reading a member of a rule comes to. -/
theorem ruleStep_cases {p p' : RuleProgress} {key : String} {read : Tree → Decoded RuleProgress}
    {t : Tree} (hstep : ruleStep .jsonText p key = .ok read) (hread : read t = .ok p') :
    (key = "rule" ∧ (∃ form, ruleForm .jsonText t = .ok form) ∧
      ((p = .nothing ∧ ∃ form, p' = .named form) ∨
        ∃ value form rule, p = .valued value ∧ ruleValue .jsonText form value = .ok rule ∧
          p' = .complete rule)) ∨
      (key = "value" ∧ ((p = .nothing ∧ p' = .valued t) ∨
        ∃ form rule, p = .named form ∧ ruleValue .jsonText form t = .ok rule ∧
          p' = .complete rule)) ∨
      (key ∉ ["rule", "value"] ∧ p' = p) := by
  unfold ruleStep at hstep
  split at hstep
  case h_1 =>
      cases hstep
      obtain ⟨form, hform, rfl⟩ := map_eq_ok.mp hread
      exact .inl ⟨rfl, ⟨form, hform⟩, .inl ⟨rfl, form, rfl⟩⟩
  case h_2 value =>
      cases hstep
      obtain ⟨form, hform, hread⟩ := bind_eq_ok.mp hread
      split at hread
      case h_1 rule hrule =>
          cases hread
          exact .inl ⟨rfl, ⟨form, hform⟩, .inr ⟨value, form, rule, rfl, hrule, rfl⟩⟩
      case h_2 => cases hread
  case h_3 => cases hstep
  case h_4 =>
      cases hstep
      obtain ⟨-, -, hread⟩ := bind_eq_ok.mp hread
      cases hread
      exact .inr (.inl ⟨rfl, .inl ⟨rfl, rfl⟩⟩)
  case h_5 form =>
      cases hstep
      obtain ⟨rule, hrule, rfl⟩ := map_eq_ok.mp hread
      exact .inr (.inl ⟨rfl, .inr ⟨form, rule, rfl, hrule, rfl⟩⟩)
  case h_6 => cases hstep
  case h_7 hrule hvalue _ _ _ _ =>
      cases hstep
      obtain ⟨-, -, hread⟩ := bind_eq_ok.mp hread
      cases hread
      refine .inr (.inr ⟨?_, rfl⟩)
      simpa using ⟨hrule, hvalue⟩

theorem keeps_of_isScalar {t : Tree} (h : t.isScalar = true) (L : Leeway) (step : Data.Step) :
    t.Keeps L step := by
  intro trail key hkey
  rw [t.repeats_of_isScalar h] at hkey
  cases hkey

/-- A rule notices when one of its two keys is repeated. -/
theorem watches_ruleStep :
    Watches ruleLeeway (ruleStep .jsonText) RuleProgress.Seen RuleProgress.Owes where
  fresh hstep hread hseen := by
    obtain ⟨rfl, -, ⟨rfl, -⟩ | ⟨value, form, rule, rfl, -⟩⟩ |
      ⟨rfl, ⟨rfl, -⟩ | ⟨form, rule, rfl, -⟩⟩ | ⟨hstray, -⟩ := ruleStep_cases hstep hread
    · exact hseen.elim
    · exact absurd hseen (by simp [RuleProgress.Seen])
    · exact hseen.elim
    · exact absurd hseen (by simp [RuleProgress.Seen])
    · exact hstray
  kept hstep hread k hk := by
    obtain ⟨rfl, -, ⟨rfl, form, rfl⟩ | ⟨value, form, rule, rfl, -, rfl⟩⟩ |
      ⟨rfl, ⟨rfl, rfl⟩ | ⟨form, rule, rfl, -, rfl⟩⟩ | ⟨hstray, rfl⟩ := ruleStep_cases hstep hread
    · exact .inl (hk.resolve_right id)
    · exact .inl (by simpa [RuleProgress.Seen] using hk)
    · exact .inl (hk.resolve_right id)
    · exact .inl (by simpa [RuleProgress.Seen, or_comm] using hk)
    · rcases hk with rfl | hseen
      · exact .inr hstray
      · exact .inl hseen
  inside {p key read t p'} hstep hread := by
    obtain ⟨rfl, ⟨form, hform⟩, -⟩ | ⟨rfl, ⟨rfl, rfl⟩ | ⟨form, rule, rfl, hrule, rfl⟩⟩ |
      ⟨hstray, rfl⟩ := ruleStep_cases hstep hread
    · exact .inl fun trail key hkey ↦
        (confines_named (L := Leeway.none) ruleForms .pattern t form hform trail key hkey).elim
    · -- a value in front of the name is kept, and looked at when the name has come
      exact .inr ⟨rfl, rfl⟩
    · exact .inl (keeps_of_isScalar (isScalar_of_ruleValue hrule) _ _)
    · exact .inl fun trail key _ ↦ hstray
  settles hstep hread k v howed := by
    obtain ⟨rfl, rfl⟩ := howed
    obtain ⟨rfl, -, ⟨⟨⟩, -⟩ | ⟨value, form, rule, heq, hrule, rfl⟩⟩ |
      ⟨rfl, ⟨⟨⟩, -⟩ | ⟨form, rule, ⟨⟩, -⟩⟩ | ⟨-, rfl⟩ := ruleStep_cases hstep hread
    · cases heq
      exact .inl (keeps_of_isScalar (isScalar_of_ruleValue hrule) _ _)
    · exact .inr ⟨rfl, rfl⟩

/-- A rule that is accepted repeats other keys at most. -/
theorem confines_decodeRule : Confines ruleLeeway (decodeRule .jsonText) := by
  intro t rule ht trail key hkey
  cases t with
  | null | bool | number | string | broken => simp [Tree.repeats] at hkey
  | object p n members =>
      obtain ⟨-, -, ht⟩ := bind_eq_ok.mp ht
      obtain ⟨p', hwalk, ht⟩ := bind_eq_ok.mp ht
      refine watches_ruleStep.repeats_object hwalk ?_ hkey
      -- a rule without a name is refused, so no value is left over
      rintro key value ⟨-, rfl⟩
      cases ht
  | list p n items =>
      exfalso
      obtain ⟨-, -, ht⟩ := bind_eq_ok.mp ht
      cases items with
      | done ending =>
          obtain ⟨-, -, ht⟩ := bind_eq_ok.mp ht
          cases ht
      | more stop early name rest =>
          obtain ⟨form, hform, ht⟩ := bind_eq_ok.mp ht
          cases rest with
          | done ending =>
              obtain ⟨-, -, ht⟩ := bind_eq_ok.mp ht
              cases ht
          | more stop early value rest =>
              obtain ⟨rule, hrule, ht⟩ := bind_eq_ok.mp ht
              obtain ⟨_, hleft, -⟩ := bind_eq_ok.mp ht
              cases rest with
              | more => cases hleft
              | done =>
                  have hname := confines_named (L := Leeway.none) ruleForms .pattern name form
                    (placed_eq_ok.mp hform)
                  have hvalue := isScalar_of_ruleValue (placed_eq_ok.mp hrule)
                  rcases trail with - | ⟨_ | _ | _ | i, trail⟩
                  · simp [Tree.repeats] at hkey
                  · simp [Tree.repeats] at hkey
                  · exact hname trail key (by simpa [Tree.repeats, Items.repeats] using hkey)
                  · simp [Tree.repeats, Items.repeats, Tree.repeats_of_isScalar hvalue] at hkey
                  · simp [Tree.repeats, Items.repeats] at hkey

theorem confines_decodeLiteral {L : Leeway} : Confines L (decodeLiteral .jsonText) := by
  refine confines_of_isScalar fun t a h ↦ ?_
  cases t with
  | null | bool | number | string | broken => rfl
  | list | object =>
      obtain ⟨-, -, h⟩ := bind_eq_ok.mp h
      cases h

/-! ## Fields and relations -/

section

open Slot Leeway

theorem confines_texts : Confines Leeway.none (list .jsonText (text .jsonText)) :=
  inside_none ▸ confines_text.list

/-- A field that is accepted repeats keys inside of its validations at most. -/
theorem confines_decodeField : Confines fieldLeeway (decodeField .jsonText) := by
  intro t field ht
  obtain ⟨draft, hdraft, -⟩ := bind_eq_ok.mp ht
  refine confines_record ?_ "RawField" {} t draft hdraft
  simp only [fieldSlots, List.zipIdx_cons, List.zipIdx_nil, List.forall_mem_cons]
  exact ⟨plain_required confines_text, plain_optional confines_flag, plain_optional confines_flag,
    plain_optional confines_flag, plain_optional confines_decodeLiteral,
    plain_optional confines_texts, plain_optional confines_texts, plain_optional confines_text,
    confined_defaulted confines_decodeRule.list fun _ _ ↦ id, plain_optional confines_flag,
    plain_optional confines_flag, plain_optional confines_text, plain_optional confines_double,
    plain_optional confines_double, plain_optional confines_flag, plain_optional confines_flag,
    by simp⟩

theorem confines_pivot :
    Confines (fieldLeeway.inside.slot "fields" 1)
      (record .jsonText "RawPivot" (pivotSlots .jsonText) {}) := by
  refine confines_record ?_ _ _
  simp only [pivotSlots, List.zipIdx_cons, List.zipIdx_nil, List.forall_mem_cons]
  exact ⟨plain_optional confines_text,
    confined_defaulted confines_decodeField.uniqueMap fun _ _ ↦ id, by simp⟩

theorem confines_decodeRelation : Confines relationLeeway (decodeRelation .jsonText) := by
  refine confines_record ?_ _ _
  simp only [relationSlots, List.zipIdx_cons, List.zipIdx_nil, List.forall_mem_cons]
  exact ⟨plain_required (confines_named _ _), plain_required confines_text,
    plain_optional confines_text, confined_optional confines_pivot fun _ _ ↦ id,
    plain_defaulted confines_flag, by simp⟩

/-! ## Entities -/

theorem confines_decodeBehaviors : Confines Leeway.none (decodeBehaviors .jsonText) := by
  refine confines_record ?_ _ _
  simp only [behaviorSlots, List.zipIdx_cons, List.zipIdx_nil, List.forall_mem_cons]
  exact ⟨plain_optional confines_flag, plain_optional confines_flag, plain_optional confines_flag,
    by simp⟩

theorem confines_decodeSource : Confines Leeway.none (decodeSource .jsonText) := by
  have hendpoints : Confines Leeway.none
      (record .jsonText "Endpoints" (endpointSlots .jsonText) Endpoints.none) := by
    refine confines_record ?_ _ _
    simp only [endpointSlots, List.zipIdx_cons, List.zipIdx_nil, List.forall_mem_cons]
    exact ⟨plain_omissible confines_text, plain_omissible confines_text,
      plain_omissible confines_text, plain_omissible confines_text, plain_omissible confines_text,
      by simp⟩
  refine confines_record ?_ _ _
  simp only [sourceSlots, List.zipIdx_cons, List.zipIdx_nil, List.forall_mem_cons]
  exact ⟨plain_required confines_text, plain_defaulted hendpoints, by simp⟩

/-- A protection that is accepted repeats no keys. -/
theorem confines_decodeProtection : Confines Leeway.none (decodeProtection .jsonText) := by
  intro t p ht trail key hkey
  cases t with
  | null | bool | number | string | broken => simp [Tree.repeats] at hkey
  | list =>
      simp only [decodeProtection] at ht
      exact absurd ht mismatchEntered_ne_ok
  | object start n members =>
      obtain ⟨-, -, ht⟩ := bind_eq_ok.mp ht
      refine confines_recordMembers ?_ ht hkey
      simp only [operationSlots, List.zipIdx_cons, List.zipIdx_nil, List.forall_mem_cons]
      exact ⟨plain_defaulted confines_flag, plain_defaulted confines_flag,
        plain_defaulted confines_flag, plain_defaulted confines_flag,
        plain_defaulted confines_flag, by simp⟩

theorem confines_decodeEntityDraft : Confines entityLeeway (decodeEntityDraft .jsonText) := by
  refine confines_record ?_ _ _
  simp only [entitySlots, List.zipIdx_cons, List.zipIdx_nil, List.forall_mem_cons]
  exact ⟨plain_optional confines_text, plain_optional confines_text,
    confined_defaulted confines_decodeField.uniqueMap fun _ _ ↦ .inl,
    confined_defaulted confines_decodeRelation.uniqueMap fun _ _ ↦ .inr,
    plain_optional confines_decodeBehaviors, plain_optional confines_decodeProtection,
    plain_optional confines_decodeSource, by simp⟩

theorem watches_entityStep : Watches entityLeeway.inside (entityStep .jsonText)
    (fun read name ↦ name ∈ read.map Entity.name) fun _ _ _ ↦ False := by
  refine .of_collects _ fun {read name _ t _} hstep hread ↦ ?_
  obtain ⟨hnew, d, e, hd, he, rfl⟩ := entityStep_eq_ok hstep hread
  have hname : e.name = name := by rw [EntityDraft.eq_of_under he]
  refine ⟨hnew, fun k hk ↦ ?_, confines_decodeEntityDraft t d hd⟩
  simpa [hname] using hk

/-- Entities that are accepted repeat keys inside of an entity at most. -/
theorem confines_decodeEntities : Confines entityLeeway.inside (decodeEntities .jsonText) := by
  intro t entities ht trail key hkey
  cases t with
  | null | bool | number | string | broken => simp [Tree.repeats] at hkey
  | list p n items =>
      have hentity : Confines entityLeeway (decodeEntity .jsonText) := by
        intro t e ht
        obtain ⟨draft, hdraft, -⟩ := bind_eq_ok.mp ht
        exact confines_decodeEntityDraft t draft hdraft
      exact hentity.list (.list p n items) entities ht trail key hkey
  | object p n members =>
      obtain ⟨-, -, ht⟩ := bind_eq_ok.mp ht
      obtain ⟨read, hread, -⟩ := bind_eq_ok.mp ht
      exact watches_entityStep.repeats_object hread (fun _ _ ↦ id) hkey

/-! ## The manifest -/

/-- A manifest that is accepted repeats keys below `$schema` and inside of its entities at most. -/
theorem confines_decodeManifest : Confines manifestLeeway (decodeManifest .jsonText) := by
  have hdatabase : Confines Leeway.none (decodeDatabase .jsonText) := by
    refine confines_record ?_ _ _
    simp only [databaseSlots, List.zipIdx_cons, List.zipIdx_nil, List.forall_mem_cons]
    exact ⟨plain_required (confines_named _ _), plain_omissible confines_text,
      plain_omissible confines_text, by simp⟩
  have hauth : Confines Leeway.none (decodeAuth .jsonText) := by
    refine confines_record ?_ _ _
    simp only [authSlots, List.zipIdx_cons, List.zipIdx_nil, List.forall_mem_cons]
    exact ⟨plain_omissible confines_flag, plain_defaulted confines_texts, by simp⟩
  have hlocalization : Confines Leeway.none
      (record .jsonText "I18nConfig" (localizationSlots .jsonText) {}) := by
    refine confines_record ?_ _ _
    simp only [localizationSlots, List.zipIdx_cons, List.zipIdx_nil, List.forall_mem_cons]
    exact ⟨plain_omissible confines_text, plain_defaulted confines_texts, by simp⟩
  have htenancy : Confines Leeway.none
      (record .jsonText "TenancyConfig" (tenancySlots .jsonText) {}) := by
    refine confines_record ?_ _ _
    simp only [tenancySlots, List.zipIdx_cons, List.zipIdx_nil, List.forall_mem_cons]
    exact ⟨plain_omissible confines_flag, plain_omissible confines_text, by simp⟩
  have hobservability : Confines Leeway.none
      (record .jsonText "ObservabilityConfig" (observabilitySlots .jsonText) {}) := by
    refine confines_record ?_ _ _
    simp only [observabilitySlots, List.zipIdx_cons, List.zipIdx_nil, List.forall_mem_cons]
    exact ⟨plain_omissible confines_flag, plain_omissible confines_flag,
      plain_omissible confines_flag, by simp⟩
  have hdefaults : Confines Leeway.none
      (record .jsonText "RawDefaults" (defaultsSlots .jsonText) {}) := by
    refine confines_record ?_ _ _
    simp only [defaultsSlots, List.zipIdx_cons, List.zipIdx_nil, List.forall_mem_cons]
    exact ⟨plain_optional confines_decodeBehaviors, plain_optional confines_decodeProtection,
      by simp⟩
  refine confines_record ?_ _ _
  simp only [manifestSlots, List.zipIdx_cons, List.zipIdx_nil, List.forall_mem_cons]
  exact ⟨confined_optional confines_ignored fun _ _ ↦ .inl,
    confined_required confines_decodeEntities fun _ _ ↦ .inr, plain_optional hdatabase,
    plain_optional hauth, plain_optional (confines_named _ _), plain_optional hlocalization,
    plain_optional htenancy, plain_optional hobservability, plain_optional hdefaults,
    plain_optional confines_decodeSource, plain_optional confines_text, by simp⟩

end

/-- Where an object in a text that is accepted has the same key twice, the object lies in the value
of `$schema`, or it is a rule and the key is neither of the two that a rule has, or it lies in the
value of such a key. -/
theorem Manifest.repeated_keys_of_ofJson {source : String} {m : Manifest}
    (h : Manifest.ofJson source = .ok m) {trail : Trail} {key : String}
    (hkey : (Json.Document.read source).root.repeats key trail = true) :
    manifestLeeway trail key := by
  obtain ⟨hroot, -⟩ := decodeText_eq_ok.mp (Manifest.ofJson_eq_ok.mp h)
  exact confines_decodeManifest _ m hroot trail key hkey

def remarkedPost (remarks : String) : String :=
  "\x7b\"$schema\":\x7b\"a\":[\x7b\"b\":1,\"b\":2\x7d]\x7d,\"entities\":[\x7b\"name\":\"Post\"," ++
    "\"fields\":\x7b\"to\":\x7b\"type\":\"text\",\"validations\":[\x7b\"rule\":\"email\"" ++
    remarks ++ "\x7d]\x7d\x7d\x7d]\x7d"

theorem Manifest.repeated_keys_remarkedPost :
    ∃ m, Manifest.ofJson (remarkedPost "") = .ok m ∧
      (Json.Document.read (remarkedPost "")).root.repeats "b"
        [.member "$schema", .member "a", .item 0] = true ∧
      manifestLeeway [.member "$schema", .member "a", .item 0] "b" := by
  obtain ⟨m, hm⟩ := exists_ok_of_isOk (x := Manifest.ofJson (remarkedPost "")) (by decide +kernel)
  have hkey : (Json.Document.read (remarkedPost "")).root.repeats "b"
      [.member "$schema", .member "a", .item 0] = true := by
    decide +kernel
  exact ⟨m, hm, hkey, Manifest.repeated_keys_of_ofJson hm hkey⟩

/-- A rule is accepted with a key that comes twice, and with an object in which one does. -/
theorem Manifest.accepts_repeated_remarks :
    (Manifest.ofJson (remarkedPost ",\"note\":1,\"note\":\x7b\"c\":1,\"c\":2\x7d")).isOk = true ∧
      let root := (Json.Document.read
        (remarkedPost ",\"note\":1,\"note\":\x7b\"c\":1,\"c\":2\x7d")).root
      let rule : Trail := [.member "entities", .item 0, .member "fields", .member "to",
        .member "validations", .item 0]
      root.repeats "note" rule = true ∧ root.repeats "c" (rule ++ [.member "note"]) = true := by
  decide +kernel

end Scaffold

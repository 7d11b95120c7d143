import Scaffold.Manifest.Patch
import Scaffold.Proofs.Data.Agreement
import Scaffold.Proofs.Manifest.Decoded

/-!
# Decoders of a manifest that agree

Every decoder of a manifest and its parts agrees with itself: on two texts that hold the same, and
on a text and its value.
-/

namespace Scaffold

open Data

variable {c : Comparison}

/-! ## Rules and literals -/

theorem consistent_named {α : Type} (table : List (String × α)) (fallback : α) :
    Consistent c (named .jsonText table fallback) (named c.origin table fallback) := by
  intro t t' ht
  refine (consistent_variant (table.map Prod.fst) t t' ht).bind ?_
  rintro name _ rfl
  exact .ok rfl

theorem consistent_ruleForm : Consistent c (ruleForm .jsonText) (ruleForm c.origin) :=
  consistent_named ruleForms .pattern

theorem consistent_ruleValue {o o' : Origin} (form : RuleForm) :
    Consistent c (ruleValue o form) (ruleValue o' form) := by
  intro t t' ht
  cases form with
  | plain rule =>
      cases ht with
      | null => exact .ok rfl
      | bool | number | string | list | object | broken =>
          simp only [ruleValue]
          exact agree_mismatchEntered _ _ _ _
  | pattern => exact (consistent_text t t' ht).map fun _ _ hab ↦ congrArg Rule.regex hab
  | bound rule => exact (consistent_double t t' ht).map fun _ _ hab ↦ congrArg rule hab

/-- Rules that have been read equally far.  A value that came before its name is still a tree. -/
inductive RuleProgress.Alike (c : Comparison) : RuleProgress → RuleProgress → Prop
  | nothing : Alike c .nothing .nothing
  | named (form : RuleForm) : Alike c (.named form) (.named form)
  | valued {t t' : Tree} (h : Data.Alike c t t') : Alike c (.valued t) (.valued t')
  | complete (rule : Rule) : Alike c (.complete rule) (.complete rule)

/-- Both forms of a document go on alike with a member of a rule. -/
theorem ruleStep_agree {p p' : RuleProgress} (key : String) {t t' : Tree} (h : p.Alike c p')
    (ht : Alike c t t') : StepsAgree (RuleProgress.Alike c) t t' (ruleStep .jsonText p key)
      (ruleStep c.origin p' key) := by
  by_cases hname : key = "rule"
  · subst hname
    cases h with
    | nothing =>
        refine .ok ((consistent_ruleForm t t' ht).map ?_)
        rintro form _ rfl
        exact .named form
    | @valued value value' hvalue =>
        refine .ok ((consistent_ruleForm t t' ht).bind ?_)
        rintro form _ rfl
        have hrule : Agree Eq (ruleValue .jsonText form value) (ruleValue c.origin form value') :=
          consistent_ruleValue form _ _ hvalue
        generalize ruleValue .jsonText form value = x, ruleValue c.origin form value' = y at hrule
        cases hrule with
        | @ok rule _ h =>
            cases h
            exact .ok (.complete rule)
        | error f g => exact .error _ _
    | named | complete => exact .error _ _
  by_cases hvalue : key = "value"
  · subst hvalue
    cases h with
    | nothing => exact .ok ((consistent_buffered t t' ht).bind fun _ _ _ ↦ .ok (.valued ht))
    | named form =>
        refine .ok ((consistent_ruleValue form t t' ht).map ?_)
        rintro rule _ rfl
        exact .complete rule
    | valued | complete => exact .error _ _
  · have hother (o : Origin) (p : RuleProgress) :
        ruleStep o p key = .ok fun t ↦ do
          ignored t
          return p := by
      unfold ruleStep
      split
      case h_7 => rfl
      all_goals contradiction
    rw [hother, hother]
    exact .ok ((consistent_ignored t t' ht).bind fun _ _ _ ↦ .ok h)

theorem RuleProgress.Alike.ruleFinish_eq {p p' : RuleProgress} (h : p.Alike c p') :
    ruleFinish p = ruleFinish p' := by
  cases h <;> rfl

/-- A rule is decoded alike from both forms of a document. -/
theorem consistent_decodeRule : Consistent c (decodeRule .jsonText) (decodeRule c.origin) := by
  intro t t' ht
  cases ht with
  | object hdepth hmembers =>
      refine hdepth.bind ?_
      refine (walkMembers_agree (fun _ _ key _ _ ↦ ruleStep_agree key)
        (hmembers.related fun _ _ _ _ ↦ id) .nothing).bind fun q q' hq ↦ ?_
      rw [hq.ruleFinish_eq]
      cases ruleFinish q' with
      | ok rule => exact .ok rfl
      | error e => exact .error _ _
  | list hdepth hitems =>
      refine hdepth.bind ?_
      cases hitems with
      | done h => exact h.bind (.error _ _)
      | more _ _ _ _ hname hrest =>
          refine ((consistent_ruleForm _ _ hname).placed _ _).bind ?_
          rintro form _ rfl
          cases hrest with
          | done h => exact h.bind (.error _ _)
          | more _ _ _ _ hvalue hrest =>
              refine ((consistent_ruleValue form _ _ hvalue).placed _ _).bind ?_
              rintro rule _ rfl
              exact (leaveItems_agree _ _ hrest).bind fun _ _ _ ↦ .ok rfl
  | number p q p' q' h | string p q p' q' h => cases h <;> exact .error _ _
  | null | bool | broken => exact .error _ _

/-- A literal is decoded alike from both forms of a document. -/
theorem consistent_decodeLiteral {o o' : Origin} :
    Consistent c (decodeLiteral o) (decodeLiteral o') := by
  intro t t' ht
  refine (consistent_buffered t t' ht).bind fun _ _ _ ↦ ?_
  cases ht with
  | number p q p' q' h =>
      cases h with
      | error => exact .error _ _
      | ok n =>
          cases n with
          | float x => exact .ok rfl
          | integer i =>
              dsimp only
              split <;> exact .ok rfl
  | string p q p' q' h =>
      cases h with
      | error => exact .error _ _
      | ok s => exact .ok rfl
  | bool => exact .ok rfl
  | null | list | object | broken => exact .error _ _

/-! ## Fields and relations -/

section

open Slot

theorem fieldSlots_agree :
    List.Forall₂ (Slot.Agrees c) (fieldSlots .jsonText) (fieldSlots c.origin) := by
  simp only [fieldSlots, List.forall₂_cons]
  exact ⟨agrees_required consistent_text _ _, agrees_optional consistent_flag _ _,
    agrees_optional consistent_flag _ _, agrees_optional consistent_flag _ _,
    agrees_optional consistent_decodeLiteral _ _, agrees_optional consistent_text.list _ _,
    agrees_optional consistent_text.list _ _, agrees_optional consistent_text _ _,
    agrees_defaulted consistent_decodeRule.list _ _, agrees_optional consistent_flag _ _,
    agrees_optional consistent_flag _ _, agrees_optional consistent_text _ _,
    agrees_optional consistent_double _ _, agrees_optional consistent_double _ _,
    agrees_optional consistent_flag _ _, agrees_optional consistent_flag _ _, .nil⟩

theorem consistent_decodeField : Consistent c (decodeField .jsonText) (decodeField c.origin) := by
  intro t t' ht
  refine (consistent_record fieldSlots_agree "RawField" {} t t' ht).bind ?_
  rintro draft _ rfl
  cases draft.settle with
  | ok field => exact .ok rfl
  | error e => exact .error _ _

theorem pivotSlots_agree :
    List.Forall₂ (Slot.Agrees c) (pivotSlots .jsonText) (pivotSlots c.origin) := by
  simp only [pivotSlots, List.forall₂_cons]
  exact ⟨agrees_optional consistent_text _ _,
    agrees_defaulted consistent_decodeField.uniqueMap _ _, .nil⟩

theorem relationSlots_agree :
    List.Forall₂ (Slot.Agrees c) (relationSlots .jsonText) (relationSlots c.origin) := by
  simp only [relationSlots, List.forall₂_cons]
  exact ⟨agrees_required (consistent_named _ _) _ _, agrees_required consistent_text _ _,
    agrees_optional consistent_text _ _,
    agrees_optional (consistent_record pivotSlots_agree _ _) _ _,
    agrees_defaulted consistent_flag _ _, .nil⟩

theorem consistent_decodeRelation :
    Consistent c (decodeRelation .jsonText) (decodeRelation c.origin) :=
  consistent_record relationSlots_agree _ _

/-! ## Entities and patches -/

theorem endpointSlots_agree :
    List.Forall₂ (Slot.Agrees c) (endpointSlots .jsonText) (endpointSlots c.origin) := by
  simp only [endpointSlots, List.forall₂_cons]
  exact ⟨agrees_omissible consistent_text _ _, agrees_omissible consistent_text _ _,
    agrees_omissible consistent_text _ _, agrees_omissible consistent_text _ _,
    agrees_omissible consistent_text _ _, .nil⟩

theorem consistent_decodeSource :
    Consistent c (decodeSource .jsonText) (decodeSource c.origin) := by
  refine consistent_record ?_ _ _
  simp only [sourceSlots, List.forall₂_cons]
  exact ⟨agrees_required consistent_text _ _,
    agrees_defaulted (consistent_record endpointSlots_agree _ _) _ _, .nil⟩

theorem consistent_decodeBehaviors :
    Consistent c (decodeBehaviors .jsonText) (decodeBehaviors c.origin) := by
  refine consistent_record ?_ _ _
  simp only [behaviorSlots, List.forall₂_cons]
  exact ⟨agrees_optional consistent_flag _ _, agrees_optional consistent_flag _ _,
    agrees_optional consistent_flag _ _, .nil⟩

theorem operationSlots_agree {o o' : Origin} :
    List.Forall₂ (Slot.Agrees c) (operationSlots o) (operationSlots o') := by
  simp only [operationSlots, List.forall₂_cons]
  exact ⟨agrees_defaulted consistent_flag _ _, agrees_defaulted consistent_flag _ _,
    agrees_defaulted consistent_flag _ _, agrees_defaulted consistent_flag _ _,
    agrees_defaulted consistent_flag _ _, .nil⟩

/-- A protection is decoded alike from both forms of a document. -/
theorem consistent_decodeProtection {o o' : Origin} :
    Consistent c (decodeProtection o) (decodeProtection o') := by
  intro t t' ht
  cases ht with
  | bool => exact .ok rfl
  | string p q p' q' h =>
      cases h with
      | error => exact .error _ _
      | ok s =>
          simp only [decodeProtection, token, bind, Except.bind]
          split
          · exact .ok rfl
          · exact .ok rfl
          · exact .error _ _
  | object hdepth hmembers =>
      exact hdepth.bind (recordMembers_agree operationSlots_agree Protection.none hmembers)
  | null | number | list | broken =>
      simp only [decodeProtection]
      exact agree_mismatchEntered _ _ _ _

theorem entitySlots_agree :
    List.Forall₂ (Slot.Agrees c) (entitySlots .jsonText) (entitySlots c.origin) := by
  simp only [entitySlots, List.forall₂_cons]
  exact ⟨agrees_optional consistent_text _ _, agrees_optional consistent_text _ _,
    agrees_defaulted consistent_decodeField.uniqueMap _ _,
    agrees_defaulted consistent_decodeRelation.uniqueMap _ _,
    agrees_optional consistent_decodeBehaviors _ _,
    agrees_optional consistent_decodeProtection _ _,
    agrees_optional consistent_decodeSource _ _, .nil⟩

theorem consistent_decodeEntityDraft :
    Consistent c (decodeEntityDraft .jsonText) (decodeEntityDraft c.origin) :=
  consistent_record entitySlots_agree _ _

theorem consistent_decodePatch : Consistent c (decodePatch .jsonText) (decodePatch c.origin) := by
  refine consistent_record ?_ _ _
  simp only [EntityPatch.slots, List.forall₂_cons]
  exact ⟨agrees_defaulted consistent_decodeField.uniqueMap _ _,
    agrees_defaulted consistent_text.list _ _,
    agrees_defaulted consistent_decodeRelation.uniqueMap _ _,
    agrees_defaulted consistent_text.list _ _,
    agrees_optional consistent_decodeBehaviors _ _,
    agrees_optional consistent_decodeProtection _ _,
    agrees_optional consistent_decodeSource _ _, agrees_optional consistent_text _ _, .nil⟩

/-! ## The manifest -/

theorem consistent_decodeEntity :
    Consistent c (decodeEntity .jsonText) (decodeEntity c.origin) := by
  intro t t' ht
  refine (consistent_decodeEntityDraft t t' ht).bind ?_
  rintro draft _ rfl
  exact .refl _

/-- Entities are decoded alike from both forms of a document, as a list and as a map. -/
theorem consistent_decodeEntities :
    Consistent c (decodeEntities .jsonText) (decodeEntities c.origin) := by
  intro t t' ht
  have hlist : Consistent c (list .jsonText (decodeEntity .jsonText))
      (list c.origin (decodeEntity c.origin)) :=
    consistent_decodeEntity.list
  cases ht with
  | list hdepth hitems => exact hlist _ _ (.list hdepth hitems)
  | object hdepth hmembers =>
      refine hdepth.bind ?_
      refine (walkMembers_agree (R := Eq) ?_ (hmembers.related fun _ _ _ _ ↦ id) rfl).bind ?_
      · rintro read _ name t t' rfl ht
        unfold entityStep
        split
        · exact .error _ _
        · refine .ok ((consistent_decodeEntityDraft t t' ht).bind ?_)
          rintro draft _ rfl
          exact .refl _
      · rintro read _ rfl
        exact .ok rfl
  | null | bool | number | string | broken =>
      simp only [decodeEntities]
      exact agree_mismatchEntered _ _ _ _

/-- The slots of a manifest agree in both forms of a document. -/
theorem manifestSlots_agree :
    List.Forall₂ (Slot.Agrees c) (manifestSlots .jsonText) (manifestSlots c.origin) := by
  have hdatabase : Consistent c (decodeDatabase .jsonText) (decodeDatabase c.origin) := by
    refine consistent_record ?_ _ _
    simp only [databaseSlots, List.forall₂_cons]
    exact ⟨agrees_required (consistent_named _ _) _ _, agrees_omissible consistent_text _ _,
      agrees_omissible consistent_text _ _, .nil⟩
  have hauth : Consistent c (decodeAuth .jsonText) (decodeAuth c.origin) := by
    refine consistent_record ?_ _ _
    simp only [authSlots, List.forall₂_cons]
    exact ⟨agrees_omissible consistent_flag _ _, agrees_defaulted consistent_text.list _ _, .nil⟩
  have hlocalization :
      List.Forall₂ (Slot.Agrees c) (localizationSlots .jsonText) (localizationSlots c.origin) := by
    simp only [localizationSlots, List.forall₂_cons]
    exact ⟨agrees_omissible consistent_text _ _, agrees_defaulted consistent_text.list _ _, .nil⟩
  have htenancy :
      List.Forall₂ (Slot.Agrees c) (tenancySlots .jsonText) (tenancySlots c.origin) := by
    simp only [tenancySlots, List.forall₂_cons]
    exact ⟨agrees_omissible consistent_flag _ _, agrees_omissible consistent_text _ _, .nil⟩
  have hobservability : List.Forall₂ (Slot.Agrees c) (observabilitySlots .jsonText)
      (observabilitySlots c.origin) := by
    simp only [observabilitySlots, List.forall₂_cons]
    exact ⟨agrees_omissible consistent_flag _ _, agrees_omissible consistent_flag _ _,
      agrees_omissible consistent_flag _ _, .nil⟩
  have hdefaults :
      List.Forall₂ (Slot.Agrees c) (defaultsSlots .jsonText) (defaultsSlots c.origin) := by
    simp only [defaultsSlots, List.forall₂_cons]
    exact ⟨agrees_optional consistent_decodeBehaviors _ _,
      agrees_optional consistent_decodeProtection _ _, .nil⟩
  simp only [manifestSlots, List.forall₂_cons]
  exact ⟨agrees_optional consistent_ignored _ _, agrees_required consistent_decodeEntities _ _,
    agrees_optional hdatabase _ _, agrees_optional hauth _ _,
    agrees_optional (consistent_named _ _) _ _,
    agrees_optional (consistent_record hlocalization _ _) _ _,
    agrees_optional (consistent_record htenancy _ _) _ _,
    agrees_optional (consistent_record hobservability _ _) _ _,
    agrees_optional (consistent_record hdefaults _ _) _ _,
    agrees_optional consistent_decodeSource _ _, agrees_optional consistent_text _ _, .nil⟩

end

end Scaffold

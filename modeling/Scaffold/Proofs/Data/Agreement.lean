import Mathlib.Data.List.Forall2
import Scaffold.Proofs.Data.Invariants

/-!
# Decoders that agree

A document may be decoded while its text is read, or from the value that the text stands for, and
the same content may stand in two texts.  The two trees then differ in their places and nothing
else, and the two decoders in what they report.  They agree if they fail together and otherwise give
the same; and what is put together from decoders that agree agrees as well.
-/

namespace Scaffold.Data

/-! ## Trees that differ in their places -/

/-- What is compared: a text with another text, either of which may have faults, or a text with its
value, neither of which has any. -/
inductive Comparison where
  | texts
  | textAndValue

/-- The reader of the second tree.  That of the first reads texts. -/
def Comparison.origin : Comparison → Origin
  | .texts => .jsonText
  | .textAndValue => .jsonValue

variable {c : Comparison}

inductive FaultsAlike (c : Comparison) : Option Fault → Option Fault → Prop
  | none : FaultsAlike c none none
  | some (hc : c = .texts) (f f' : Fault) : FaultsAlike c (some f) (some f')

/-- Two tokens of the same value, or two that cannot be decoded. -/
inductive TokensAlike (c : Comparison) {α : Type} : Except Fault α → Except Fault α → Prop
  | ok (a : α) : TokensAlike c (.ok a) (.ok a)
  | error (hc : c = .texts) (f f' : Fault) : TokensAlike c (.error f) (.error f')

mutual

/-- Two trees that hold the same. -/
inductive Alike (c : Comparison) : Tree → Tree → Prop
  | null (p q p' q' : Position) : Alike c (.null p q) (.null p' q')
  | bool (p q p' q' : Position) (b : Bool) : Alike c (.bool p q b) (.bool p' q' b)
  | number (p q p' q' : Position) {n n' : Except Fault Numeral} (h : TokensAlike c n n') :
      Alike c (.number p q n) (.number p' q' n')
  | string (p q p' q' : Position) {s s' : Except Fault String} (h : TokensAlike c s s') :
      Alike c (.string p q s) (.string p' q' s')
  | list {p p' : Position} {n n' : Nat} {items items' : Items}
      (hdepth : FaultsAlike c (depthFault? p n) (depthFault? p' n'))
      (h : ItemsAlike c items items') : Alike c (.list p n items) (.list p' n' items')
  | object {p p' : Position} {n n' : Nat} {members members' : Members}
      (hdepth : FaultsAlike c (depthFault? p n) (depthFault? p' n'))
      (h : MembersAlike c members members') : Alike c (.object p n members) (.object p' n' members')
  | broken (hc : c = .texts) (p p' : Position) (b b' : Breakage)
      (strict loose strict' loose' : Fault) :
      Alike c (.broken p b strict loose) (.broken p' b' strict' loose')

inductive ItemsAlike (c : Comparison) : Items → Items → Prop
  | done {ending ending' : Ending} (h : FaultsAlike c ending.strictFault? ending'.strictFault?) :
      ItemsAlike c (.done ending) (.done ending')
  | more (stop stop' : Position) (early early' : Fault) {t t' : Tree} {rest rest' : Items}
      (h : Alike c t t') (hrest : ItemsAlike c rest rest') :
      ItemsAlike c (.more stop early t rest) (.more stop' early' t' rest')

inductive MembersAlike (c : Comparison) : Members → Members → Prop
  | done {ending ending' : Ending} (h : FaultsAlike c ending.strictFault? ending'.strictFault?) :
      MembersAlike c (.done ending) (.done ending')
  | more (stop stop' : Position) {key key' : Key} (hkey : TokensAlike c key.text key'.text)
      {t t' : Tree} {rest rest' : Members} (h : Alike c t t')
      (hrest : MembersAlike c rest rest') :
      MembersAlike c (.more stop key t rest) (.more stop' key' t' rest')

end

/-! ## Faults -/

theorem faultsAlike_of_lt (p p' : Position) {n n' : Nat} (hn : n < nestingLimit)
    (hn' : n' < nestingLimit) : FaultsAlike c (depthFault? p n) (depthFault? p' n') := by
  rw [depthFault?_eq_none hn, depthFault?_eq_none hn']
  exact .none

theorem FaultsAlike.orElse {f f' g g' : Option Fault} (h : FaultsAlike c f f')
    (hg : FaultsAlike c g g') : FaultsAlike c (f <|> g) (f' <|> g') := by
  cases h with
  | none => exact hg
  | some hc f f' => exact .some hc f f'

/-- Endings that a strict reader finds alike are alike to one that skips. -/
theorem FaultsAlike.looseFault? {ending ending' : Ending}
    (h : FaultsAlike c ending.strictFault? ending'.strictFault?) :
    FaultsAlike c ending.looseFault? ending'.looseFault? := by
  cases ending with
  | closed | cut =>
      cases ending' with
      | closed | cut => exact .none
      | broken => cases h
  | broken =>
      cases ending' with
      | closed | cut => cases h
      | broken =>
          cases h with
          | some hc => exact .some hc _ _

theorem TokensAlike.tokenFault? {α : Type} {v v' : Except Fault α} (h : TokensAlike c v v') :
    FaultsAlike c (tokenFault? v) (tokenFault? v') := by
  cases h with
  | ok a => exact .none
  | error hc f f' => exact .some hc f f'

mutual

theorem Alike.strictFault? {t t' : Tree} (h : Alike c t t') :
    FaultsAlike c t.strictFault? t'.strictFault? := by
  cases h with
  | null | bool => exact .none
  | number p q p' q' h | string p q p' q' h => exact h.tokenFault?
  | list hdepth h => exact hdepth.orElse h.strictFault?
  | object hdepth h => exact hdepth.orElse h.strictFault?
  | broken hc => exact .some hc _ _

theorem ItemsAlike.strictFault? {items items' : Items} (h : ItemsAlike c items items') :
    FaultsAlike c items.strictFault? items'.strictFault? := by
  cases h with
  | done h => exact h
  | more stop stop' early early' h hrest => exact h.strictFault?.orElse hrest.strictFault?

theorem MembersAlike.strictFault? {members members' : Members}
    (h : MembersAlike c members members') :
    FaultsAlike c members.strictFault? members'.strictFault? := by
  cases h with
  | done h => exact h
  | more stop stop' hkey h hrest =>
      exact hkey.tokenFault?.orElse (h.strictFault?.orElse hrest.strictFault?)

end

mutual

theorem Alike.looseFault? {t t' : Tree} (h : Alike c t t') :
    FaultsAlike c t.looseFault? t'.looseFault? := by
  cases h with
  | null | bool | number | string => exact .none
  | list hdepth h => exact h.looseFault?
  | object hdepth h => exact h.looseFault?
  | broken hc => exact .some hc _ _

theorem ItemsAlike.looseFault? {items items' : Items} (h : ItemsAlike c items items') :
    FaultsAlike c items.looseFault? items'.looseFault? := by
  cases h with
  | done h => exact h.looseFault?
  | more stop stop' early early' h hrest => exact h.looseFault?.orElse hrest.looseFault?

theorem MembersAlike.looseFault? {members members' : Members}
    (h : MembersAlike c members members') :
    FaultsAlike c members.looseFault? members'.looseFault? := by
  cases h with
  | done h => exact h.looseFault?
  | more stop stop' hkey h hrest => exact h.looseFault?.orElse hrest.looseFault?

end

/-! ## Results that agree -/

/-- Two results that are failures both, or both successes with related values. -/
inductive Agree {α β : Type} (R : α → β → Prop) : Decoded α → Decoded β → Prop
  | ok {a : α} {b : β} (h : R a b) : Agree R (.ok a) (.ok b)
  | error (f g : Failure) : Agree R (.error f) (.error g)

namespace Agree

variable {α β γ δ : Type} {R : α → β → Prop} {S : γ → δ → Prop} {x : Decoded α} {y : Decoded β}

theorem of_ne_ok (hx : ∀ a, x ≠ .ok a) (hy : ∀ b, y ≠ .ok b) : Agree R x y := by
  cases x with
  | ok a => exact absurd rfl (hx a)
  | error f =>
      cases y with
      | ok b => exact absurd rfl (hy b)
      | error g => exact .error f g

theorem refl (x : Decoded α) : Agree Eq x x := by
  cases x with
  | ok a => exact .ok rfl
  | error f => exact .error f f

theorem bind {f : α → Decoded γ} {g : β → Decoded δ} (h : Agree R x y)
    (hfg : ∀ a b, R a b → Agree S (f a) (g b)) : Agree S (x >>= f) (y >>= g) := by
  cases h with
  | ok h => exact hfg _ _ h
  | error f g => exact .error f g

theorem map {f : α → γ} {g : β → δ} (h : Agree R x y) (hfg : ∀ a b, R a b → S (f a) (g b)) :
    Agree S (f <$> x) (g <$> y) := by
  cases h with
  | ok h => exact .ok (hfg _ _ h)
  | error f g => exact .error f g

theorem map_right {S : α → δ → Prop} {g : β → δ} (h : Agree R x y)
    (hg : ∀ a b, R a b → S a (g b)) : Agree S x (g <$> y) := by
  cases h with
  | ok h => exact .ok (hg _ _ h)
  | error f g => exact .error f g

theorem placed (h : Agree R x y) (p q : Position) : Agree R (x.placed p) (y.placed q) := by
  cases h with
  | ok h => exact .ok h
  | error f g => exact .error _ _

/-- What is known of the first result by itself. -/
theorem and_left {Q : α → Prop} (h : Agree R x y) (hQ : ∀ a, x = .ok a → Q a) :
    Agree (fun a b ↦ R a b ∧ Q a) x y := by
  cases h with
  | ok h => exact .ok ⟨h, hQ _ rfl⟩
  | error f g => exact .error f g

theorem eq_ok_iff {x y : Decoded α} (h : Agree Eq x y) (a : α) : x = .ok a ↔ y = .ok a := by
  cases h with
  | ok h => rw [h]
  | error => simp

end Agree

/-- Two decoders that agree on trees that hold the same. -/
def Consistent (c : Comparison) {α : Type} (decode decode' : Tree → Decoded α) : Prop :=
  ∀ t t', Alike c t t' → Agree Eq (decode t) (decode' t')

variable {α σ σ' : Type} {o o' : Origin}

theorem agree_mismatchEntered {β : Type} {R : α → β → Prop} (expected expected' : String)
    (t t' : Tree) : Agree R (mismatchEntered o expected t) (mismatchEntered o' expected' t') :=
  .of_ne_ok (fun _ ↦ mismatchEntered_ne_ok) fun _ ↦ mismatchEntered_ne_ok

theorem TokensAlike.agree {v v' : Except Fault α} (h : TokensAlike c v v') :
    Agree Eq (token v) (token v') := by
  cases h with
  | ok a => exact .ok rfl
  | error hc f f' => exact .error _ _

theorem FaultsAlike.agree {f f' : Option Fault} (h : FaultsAlike c f f') :
    Agree Eq (noFault f) (noFault f') := by
  cases h with
  | none => exact .ok rfl
  | some hc f f' => exact .error _ _

/-- Where there is no fault, it is what follows that has to agree. -/
theorem FaultsAlike.bind {γ δ : Type} {S : γ → δ → Prop} {f : Unit → Decoded γ}
    {g : Unit → Decoded δ} {fault fault' : Option Fault} (h : FaultsAlike c fault fault')
    (hfg : Agree S (f ()) (g ())) : Agree S (noFault fault >>= f) (noFault fault' >>= g) :=
  h.agree.bind fun _ _ _ ↦ hfg

/-! ## Scalars -/

theorem consistent_text : Consistent c (text o) (text o') := by
  intro t t' h
  cases h with
  | string p q p' q' h => exact h.agree
  | number p q p' q' h => cases h <;> exact .error _ _
  | null | bool | list | object | broken => exact .error _ _

theorem consistent_flag : Consistent c (flag o) (flag o') := by
  intro t t' h
  cases h with
  | bool p q p' q' b => exact .ok rfl
  | string p q p' q' h | number p q p' q' h => cases h <;> exact .error _ _
  | null | list | object | broken => exact .error _ _

/-- Reading a double gives the same in both forms of a document. -/
theorem consistent_double : Consistent c (double o) (double o') := by
  intro t t' h
  cases h with
  | number p q p' q' h =>
      cases h with
      | error => exact .error _ _
      | ok n =>
          cases n with
          | float x => exact .ok rfl
          | integer i =>
              simp only [double, token, bind, Except.bind]
              split
              · exact .ok rfl
              · exact .error _ _
  | string p q p' q' h => cases h <;> exact .error _ _
  | null | bool | list | object | broken => exact .error _ _

theorem Consistent.nullable {decode decode' : Tree → Decoded α} (h : Consistent c decode decode') :
    Consistent c (nullable decode) (nullable decode') := by
  intro t t' ht
  have hsome := (h t t' ht).map (f := some) (g := some) (S := Eq) fun _ _ ↦ congrArg some
  cases ht with
  | null => exact .ok rfl
  | bool | string | number | list | object | broken => exact hsome

/-- Buffering a tree gives the same in both forms of a document. -/
theorem consistent_buffered : Consistent c (buffered o) (buffered o') := by
  intro t t' h
  refine h.strictFault?.bind ?_
  cases h with
  | number p q p' q' h =>
      cases h with
      | error => exact .ok rfl
      | ok n =>
          cases n with
          | float x => exact .ok rfl
          | integer i =>
              dsimp only
              split
              · exact .ok rfl
              · exact .error _ _
  | null | bool | string | list | object | broken => exact .ok rfl

theorem consistent_ignored : Consistent c ignored ignored := fun _ _ h ↦ h.looseFault?.agree

/-! ## Lists and maps -/

theorem walkItems_agree {R : σ → σ' → Prop} {step : σ → Tree → Decoded σ}
    {step' : σ' → Tree → Decoded σ'}
    (hstep : ∀ s s' t t', R s s' → Alike c t t' → Agree R (step s t) (step' s' t'))
    {items items' : Items} (h : ItemsAlike c items items') {s : σ} {s' : σ'} (hs : R s s') :
    Agree R (walkItems step s items) (walkItems step' s' items') := by
  fun_induction walkItems step s items generalizing items' s' with
  | case1 s ending =>
      cases h with
      | done h => exact h.bind (.ok hs)
  | case2 s stop early value rest ih =>
      cases h with
      | more stop stop' early early' h hrest =>
          exact ((hstep s s' _ _ hs h).placed _ _).bind fun a b hab ↦ ih a hrest hab

/-- Two looks at one key that both refuse it, or both say how to read its value. -/
inductive StepsAgree (R : σ → σ' → Prop) (t t' : Tree) :
    Except ShapeError (Tree → Decoded σ) → Except ShapeError (Tree → Decoded σ') → Prop
  | ok {read : Tree → Decoded σ} {read' : Tree → Decoded σ'} (h : Agree R (read t) (read' t')) :
      StepsAgree R t t' (.ok read) (.ok read')
  | error (e e' : ShapeError) : StepsAgree R t t' (.error e) (.error e')

theorem StepsAgree.and_left {R : σ → σ' → Prop} {Q : σ → Prop} {t t' : Tree}
    {look : Except ShapeError (Tree → Decoded σ)} {look' : Except ShapeError (Tree → Decoded σ')}
    (h : StepsAgree R t t' look look')
    (hQ : ∀ read s, look = .ok read → read t = .ok s → Q s) :
    StepsAgree (fun a b ↦ R a b ∧ Q a) t t' look look' := by
  cases h with
  | ok h => exact .ok (h.and_left fun s ↦ hQ _ s rfl)
  | error e e' => exact .error e e'

/-- Members with the same keys whose values are related, each by what its key asks for. -/
inductive MembersRelated (c : Comparison) (T : String → Tree → Tree → Prop) :
    Members → Members → Prop
  | done {ending ending' : Ending} (h : FaultsAlike c ending.strictFault? ending'.strictFault?) :
      MembersRelated c T (.done ending) (.done ending')
  | more (stop stop' : Position) {key key' : Key} (hkey : TokensAlike c key.text key'.text)
      {t t' : Tree} {rest rest' : Members} (h : ∀ name, key.text = .ok name → T name t t')
      (hrest : MembersRelated c T rest rest') :
      MembersRelated c T (.more stop key t rest) (.more stop' key' t' rest')

/-- Members that are alike are related in any way in which trees that are alike are related. -/
theorem MembersAlike.related {T : String → Tree → Tree → Prop} {members members' : Members}
    (h : MembersAlike c members members')
    (hT : ∀ name ∈ members.keys, ∀ t t', Alike c t t' → T name t t') :
    MembersRelated c T members members' := by
  match h with
  | .done h => exact .done h
  | .more stop stop' hkey h hrest =>
      rename_i key key' t t' rest rest'
      have hkeys : ∀ name ∈ rest.keys, name ∈ (Members.more stop key t rest).keys := by
        intro name hname
        rw [Members.keys]
        split
        · exact List.mem_cons_of_mem _ hname
        · exact hname
      refine .more stop stop' hkey (fun name hname ↦ hT name ?_ t t' h)
        (hrest.related fun name hname ↦ hT name (hkeys name hname))
      simp [Members.keys, hname]

/-- What follows two members with the same key, whose values are read alike. -/
theorem walkMembers_more_agree {R S : σ → σ' → Prop}
    {step : σ → String → Except ShapeError (Tree → Decoded σ)}
    {step' : σ' → String → Except ShapeError (Tree → Decoded σ')} {s : σ} {s' : σ'}
    {name : String} {t t' : Tree} {rest rest' : Members} (stop stop' : Position) {key key' : Key}
    (hkey : key.text = .ok name) (hkey' : key'.text = .ok name)
    (h : StepsAgree R t t' (step s name) (step' s' name))
    (hrest : ∀ a b, R a b → Agree S (walkMembers step a rest) (walkMembers step' b rest')) :
    Agree S (walkMembers step s (.more stop key t rest))
      (walkMembers step' s' (.more stop' key' t' rest')) := by
  rw [walkMembers, walkMembers, hkey, hkey']
  simp only [token, bind, Except.bind]
  generalize step s name = look, step' s' name = look' at h
  cases h with
  | ok hread => exact (hread.placed _ _).bind hrest
  | error e e' => exact .error _ _

theorem walkMembers_agree {R : σ → σ' → Prop} {T : String → Tree → Tree → Prop}
    {step : σ → String → Except ShapeError (Tree → Decoded σ)}
    {step' : σ' → String → Except ShapeError (Tree → Decoded σ')}
    (hstep : ∀ s s' key t t', R s s' → T key t t' → StepsAgree R t t' (step s key) (step' s' key))
    {members members' : Members} (h : MembersRelated c T members members') {s : σ} {s' : σ'}
    (hs : R s s') : Agree R (walkMembers step s members) (walkMembers step' s' members') := by
  induction h generalizing s s' with
  | done h => exact h.bind (.ok hs)
  | @more stop stop' key key' hkey t t' rest rest' h hrest ih =>
      obtain ⟨name, last, leave⟩ := key
      obtain ⟨name', last', leave'⟩ := key'
      cases hkey with
      | error hc f f' => exact .error _ _
      | ok name =>
          exact walkMembers_more_agree stop stop' rfl rfl (hstep s s' name t t' hs (h name rfl))
            fun _ _ ↦ ih

/-- Lists agree if their items do. -/
theorem Consistent.list {decode decode' : Tree → Decoded α} (h : Consistent c decode decode') :
    Consistent c (list o decode) (list o' decode') := by
  intro t t' ht
  cases ht with
  | list hdepth hitems =>
      refine hdepth.bind ?_
      refine (walkItems_agree (R := Eq) ?_ hitems rfl).bind ?_
      · rintro read _ t t' rfl ht
        exact (h t t' ht).map fun _ _ hab ↦ by rw [hab]
      · rintro read _ rfl
        exact .ok rfl
  | number p q p' q' h | string p q p' q' h => cases h <;> exact .error _ _
  | null | bool | object | broken => exact .error _ _

/-- Maps without repeated keys agree if their values do. -/
theorem Consistent.uniqueMap {decode decode' : Tree → Decoded α} (h : Consistent c decode decode') :
    Consistent c (uniqueMap o decode) (uniqueMap o' decode') := by
  intro t t' ht
  cases ht with
  | object hdepth hmembers =>
      refine hdepth.bind ?_
      refine walkMembers_agree (R := Eq) ?_ (hmembers.related fun _ _ _ _ ↦ id) rfl
      rintro read _ key t t' rfl ht
      split
      · exact .error _ _
      · exact .ok ((h t t' ht).map fun _ _ hab ↦ by rw [hab])
  | number p q p' q' h | string p q p' q' h => cases h <;> exact .error _ _
  | null | bool | list | broken => exact .error _ _

/-! ## Records -/

structure Slot.Agrees (c : Comparison) (slot slot' : Slot σ) : Prop where
  key : slot.key = slot'.key
  presence : slot.presence = slot'.presence
  read : ∀ r, Consistent c (slot.read · r) (slot'.read · r)

namespace Slot

variable {decode decode' : Tree → Decoded α} (h : Consistent c decode decode') (key : String)

include h

theorem agrees_of_put (presence : Presence) (put : σ → α → σ) :
    Slot.Agrees c ⟨key, presence, fun t s ↦ put s <$> decode t⟩
      ⟨key, presence, fun t s ↦ put s <$> decode' t⟩ where
  key := rfl
  presence := rfl
  read r t t' ht := (h t t' ht).map fun _ _ hab ↦ congrArg (put r) hab

theorem agrees_required (put : σ → α → σ) :
    (required key decode put).Agrees c (required key decode' put) :=
  agrees_of_put h key .required put

theorem agrees_defaulted (put : σ → α → σ) :
    (defaulted key decode put).Agrees c (defaulted key decode' put) :=
  agrees_of_put h key .defaulted put

theorem agrees_optional (put : σ → Option α → σ) :
    (optional key decode put).Agrees c (optional key decode' put) :=
  agrees_of_put h.nullable key .optional put

theorem agrees_omissible (put : σ → Option α → σ) :
    (omissible key decode put).Agrees c (omissible key decode' put) :=
  agrees_of_put h.nullable key .defaulted put

end Slot

section

variable {slots slots' : List (Slot σ)} (hslots : List.Forall₂ (Slot.Agrees c) slots slots')

include hslots

theorem find?_slots_agree (test : Slot σ → Bool)
    (htest : ∀ slot slot', slot.Agrees c slot' → test slot = test slot') :
    Option.Rel (Slot.Agrees c) (slots.find? test) (slots'.find? test) := by
  induction hslots with
  | nil => exact .none
  | @cons slot slot' slots slots' h _ ih =>
      rw [List.find?_cons, List.find?_cons, htest slot slot' h]
      cases test slot' with
      | true => exact .some h
      | false => exact ih

theorem recordStep_agree (s : Partial σ) (key : String) {t t' : Tree} (ht : Alike c t t') :
    StepsAgree Eq t t' (recordStep slots s key) (recordStep slots' s key) := by
  have hfind := find?_slots_agree hslots (·.key == key) fun slot slot' h ↦ by rw [h.key]
  unfold recordStep
  generalize slots.find? (·.key == key) = found, slots'.find? (·.key == key) = found' at hfind
  cases hfind with
  | none => exact .error _ _
  | some h =>
      dsimp only
      split
      · exact .error _ _
      · exact .ok ((h.read s.record t t' ht).map fun _ _ hab ↦ by rw [hab])

theorem find?_missing_agree (seen : List String) :
    Option.Rel (Slot.Agrees c)
      (slots.find? fun slot ↦ slot.presence == .required && !seen.contains slot.key)
      (slots'.find? fun slot ↦ slot.presence == .required && !seen.contains slot.key) :=
  find?_slots_agree hslots _ fun slot slot' h ↦ by rw [h.key, h.presence]

theorem recordMembers_agree (init : σ) {members members' : Members}
    (h : MembersAlike c members members') :
    Agree Eq (recordMembers slots init members) (recordMembers slots' init members') := by
  refine (walkMembers_agree (R := Eq) ?_ (h.related fun _ _ _ _ ↦ id) rfl).bind ?_
  · rintro s _ key t t' rfl ht
    exact recordStep_agree hslots s key ht
  · rintro s _ rfl
    have hfind := find?_missing_agree hslots s.seen
    generalize slots.find? _ = missing, slots'.find? _ = missing' at hfind
    cases hfind with
    | none => exact .ok rfl
    | some => exact .error _ _

/-- Reading slots by place agrees in what is read and in what is left. -/
theorem readSlots_agree (length length' : String) (i i' : Nat) (s : σ) {items items' : Items}
    (h : ItemsAlike c items items') :
    Agree (fun r r' ↦ r.1 = r'.1 ∧ ItemsAlike c r.2 r'.2) (readSlots length slots i s items)
      (readSlots length' slots' i' s items') := by
  induction hslots generalizing i i' s items items' with
  | nil => exact .ok ⟨rfl, h⟩
  | @cons slot slot' slots slots' hslot _ ih =>
      cases h with
      | done h =>
          refine h.bind ?_
          rw [hslot.presence]
          split
          · exact ih (i + 1) (i' + 1) s (.done h)
          · exact .error _ _
      | more stop stop' early early' h hrest =>
          refine ((hslot.read s _ _ h).placed _ _).bind ?_
          rintro r _ rfl
          exact ih (i + 1) (i' + 1) r hrest

end

/-- Leaving a list of which items are left agrees in both forms. -/
theorem leaveItems_agree (n n' : Nat) {left left' : Items} (h : ItemsAlike c left left') :
    Agree Eq (leaveItems .jsonText n left) (leaveItems c.origin n' left') := by
  cases h with
  | more => cases c <;> exact .error _ _
  | @done ending ending' h =>
      cases ending with
      | closed | cut =>
          cases ending' with
          | closed | cut => cases c <;> exact .ok rfl
          | broken => cases h
      | broken =>
          cases ending' with
          | closed | cut => cases h
          | broken =>
              cases h with
              | some hc =>
                  cases hc
                  exact .error _ _

theorem consistent_record {slots slots' : List (Slot σ)}
    (hslots : List.Forall₂ (Slot.Agrees c) slots slots') (name : String) (init : σ) :
    Consistent c (record .jsonText name slots init) (record c.origin name slots' init) := by
  intro t t' ht
  cases ht with
  | object hdepth hmembers => exact hdepth.bind (recordMembers_agree hslots init hmembers)
  | list hdepth hitems =>
      refine hdepth.bind ?_
      refine (readSlots_agree hslots _ _ 0 0 init hitems).bind ?_
      rintro ⟨s, left⟩ ⟨s', left'⟩ ⟨rfl, hleft⟩
      exact (leaveItems_agree _ _ hleft).bind fun _ _ _ ↦ .ok rfl
  | number p q p' q' h | string p q p' q' h => cases h <;> exact .error _ _
  | null | bool | broken => exact .error _ _

/-! ## Variants -/

theorem consistent_unit : Consistent c (unit o) (unit o') := by
  intro t t' h
  cases h with
  | null => exact .ok rfl
  | number p q p' q' h | string p q p' q' h => cases h <;> exact .error _ _
  | bool | list | object | broken => exact .error _ _

theorem knownVariant_agree (names : List String) (name : String) (p p' : Option Position) :
    Agree Eq (match knownVariant names name with
        | .ok name => .ok name
        | .error error => .error ⟨.shape error, p⟩)
      (match knownVariant names name with
        | .ok name => .ok name
        | .error error => .error ⟨.shape error, p'⟩) := by
  cases knownVariant names name with
  | ok name => exact .ok rfl
  | error e => exact .error _ _

/-- An object names a variant if it has one member. -/
theorem consistent_variantInText (names : List String) :
    Consistent .texts (variantInText names) (variantInText names) := by
  intro t t' ht
  cases ht with
  | string p q p' q' h =>
      cases h with
      | error => exact .error _ _
      | ok s => exact knownVariant_agree names s _ _
  | object hdepth hmembers =>
      refine hdepth.bind ?_
      cases hmembers with
      | @done ending ending' h => cases ending <;> cases ending' <;> exact .error _ _
      | @more stop stop' key key' hkey t t' rest rest' h hrest =>
          obtain ⟨name, last, leave⟩ := key
          obtain ⟨name', last', leave'⟩ := key'
          cases hkey with
          | error => exact .error _ _
          | ok name =>
              simp only [token, bind, Except.bind]
              cases knownVariant names name with
              | error e => exact .error _ _
              | ok name =>
                  refine (consistent_unit t t' h).bind fun _ _ _ ↦ ?_
                  cases hrest with
                  | more => exact .error _ _
                  | @done ending ending' h =>
                      cases ending with
                      | closed | cut =>
                          cases ending' with
                          | closed | cut => exact .ok rfl
                          | broken => cases h
                      | broken =>
                          cases ending' with
                          | closed | cut => cases h
                          | broken => exact .error _ _
  | broken hc p p' b b' => cases b <;> cases b' <;> exact .error _ _
  | null | bool | number | list => exact .error _ _

/-- A variant in a text and the same variant in a value are read alike. -/
theorem consistent_variantInValue (names : List String) :
    Consistent .textAndValue (variantInText names) (variantInValue names) := by
  intro t t' ht
  cases ht with
  | string p q p' q' h =>
      cases h with
      | error hc => cases hc
      | ok s => exact knownVariant_agree names s _ _
  | @object p p' n n' members members' hdepth hmembers =>
      have hnone : depthFault? p n = none := by
        generalize depthFault? p n = fault, depthFault? p' n' = fault' at hdepth
        cases hdepth with
        | none => rfl
        | some hc => cases hc
      cases hmembers with
      | @done ending ending' h =>
          cases ending <;> simp only [variantInText, hnone] <;> exact .error _ _
      | @more stop stop' key key' hkey t t' rest rest' h hrest =>
          obtain ⟨name, last, leave⟩ := key
          obtain ⟨name', last', leave'⟩ := key'
          cases hkey with
          | error hc => cases hc
          | ok name =>
              rw [variantInText, hnone]
              simp only [noFault, token, bind, Except.bind]
              cases hrest with
              | @done ending ending' hend =>
                  simp only [variantInValue, token, bind, Except.bind]
                  cases knownVariant names name with
                  | error e => exact .error _ _
                  | ok name =>
                      refine (consistent_unit t t' h).bind fun _ _ _ ↦ ?_
                      generalize ending'.strictFault? = fault' at hend
                      cases ending with
                      | broken =>
                          cases hend with
                          | some hc => cases hc
                      | closed | cut => exact .ok rfl
              | more =>
                  cases knownVariant names name with
                  | error e => exact .error _ _
                  | ok name =>
                      dsimp only
                      cases unit .jsonText t with
                      | error f => exact .error _ _
                      | ok => exact .error _ _
  | broken hc => cases hc
  | null | bool | number | list => exact .error _ _

theorem consistent_variant (names : List String) :
    Consistent c (variant .jsonText names) (variant c.origin names) := by
  cases c with
  | texts => exact consistent_variantInText names
  | textAndValue => exact consistent_variantInValue names

end Scaffold.Data

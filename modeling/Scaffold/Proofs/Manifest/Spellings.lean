import Scaffold.Proofs.Manifest.RoundTrip
import Scaffold.Proofs.Manifest.TextsAndValues

/-!
# Two spellings of entities

The entities of a manifest are written as a map from names to entities, or as a list of entities
that name themselves.  The two spellings lead to the same manifest, with the entities in the order
in which they are written.  An entity in a map may name itself as well, by the key it stands under;
`null` counts as no name, and any other name is refused.
-/

namespace Scaffold

open Data

/-! ## The name of an entity -/

/-- A value that gives a name, or that gives none. -/
inductive Declares : Tree → Option String → Prop
  | string (p q : Position) (name : String) : Declares (.string p q (.ok name)) (some name)
  | null (p q : Position) : Declares (.null p q) none

/-- The members of an entity, and the same members with a name somewhere among them. -/
inductive Named (name : Option String) : Members → Members → Prop
  | here (stop last leave : Position) {t : Tree} (ht : Declares t name) {members rest : Members}
      (h : MembersAlike .texts members rest) :
      Named name members (.more stop ⟨.ok "name", last, leave⟩ t rest)
  | later (stop stop' : Position) {key key' : Key} (hkey : TokensAlike .texts key.text key'.text)
      {t t' : Tree} (h : Alike .texts t t') {rest rest' : Members} (hrest : Named name rest rest') :
      Named name (.more stop key t rest) (.more stop' key' t' rest')

/-- A name that may be null is decoded as what the tree declares. -/
theorem nullable_text_eq_ok {t : Tree} {name : Option String} :
    nullable (text .jsonText) t = .ok name ↔ Declares t name := by
  constructor
  · intro h
    cases t with
    | null p q =>
        cases h
        exact .null p q
    | string p q value =>
        cases value with
        | ok s =>
            cases h
            exact .string p q s
        | error f => cases h
    | number p q value => cases value <;> cases h
    | bool | list | object | broken => cases h
  · intro h
    cases h <;> rfl

/-- A slot that neither looks at the name of a draft nor changes it. -/
def Data.Slot.LeavesName (slot : Slot EntityDraft) : Prop :=
  ∀ t d name, slot.read t { d with name } = (fun d ↦ { d with name }) <$> slot.read t d

theorem leavesName_of_put {α : Type} {key : String} {presence : Presence}
    {decode : Tree → Decoded α} {put : EntityDraft → α → EntityDraft}
    (h : ∀ d v name, put { d with name } v = { put d v with name }) :
    Slot.LeavesName ⟨key, presence, fun t d ↦ put d <$> decode t⟩ := by
  intro t d name
  change put { d with name } <$> decode t = (fun d ↦ { d with name }) <$> put d <$> decode t
  cases decode t with
  | error f => rfl
  | ok v => exact congrArg Except.ok (h d v name)

theorem leavesName_of_mem :
    ∀ slot ∈ entitySlots .jsonText, slot.key ≠ "name" → slot.LeavesName := by
  simp only [entitySlots, List.forall_mem_cons]
  exact ⟨fun h ↦ absurd rfl h, fun _ ↦ leavesName_of_put fun _ _ _ ↦ rfl,
    fun _ ↦ leavesName_of_put fun _ _ _ ↦ rfl, fun _ ↦ leavesName_of_put fun _ _ _ ↦ rfl,
    fun _ ↦ leavesName_of_put fun _ _ _ ↦ rfl, fun _ ↦ leavesName_of_put fun _ _ _ ↦ rfl,
    fun _ ↦ leavesName_of_put fun _ _ _ ↦ rfl, by simp⟩

theorem Data.Slot.LeavesName.name_eq {slot : Slot EntityDraft} (hslot : slot.LeavesName)
    {t : Tree} {d d' : EntityDraft} (h : slot.read t d = .ok d') : d'.name = d.name := by
  have hread := hslot t d d.name
  rw [show ({ d with name := d.name } : EntityDraft) = d from rfl, h] at hread
  have heq : d' = { d' with name := d.name } := Except.ok.inj hread
  rw [heq]

/-! ## Drafts with and without a name -/

/-- Drafts that have been read equally far, the second with a name. -/
structure SameButName (name : Option String) (s s' : Partial EntityDraft) : Prop where
  unnamed : s.record.name = none
  record : s'.record = { s.record with name }
  seen : ∀ key, key ≠ "name" → (key ∈ s'.seen ↔ key ∈ s.seen)

theorem read_sameButName {slot : Slot EntityDraft} (hslot : slot ∈ entitySlots .jsonText)
    (hkey : slot.key ≠ "name") {t t' : Tree} (ht : Alike .texts t t') (d : EntityDraft)
    (name : Option String) :
    Agree (fun e e' ↦ e' = { e with name } ∧ e.name = d.name) (slot.read t d)
      (slot.read t' { d with name }) := by
  have hleaves := leavesName_of_mem slot hslot hkey
  have hslots : List.Forall₂ (Slot.Agrees .texts) (entitySlots .jsonText) (entitySlots .jsonText) :=
    entitySlots_agree (c := .texts)
  have hread : Agree (fun e e' ↦ e = e' ∧ e.name = d.name) (slot.read t d) (slot.read t' d) :=
    ((List.forall₂_same.mp hslots slot hslot).read d t t' ht).and_left fun e ↦ hleaves.name_eq
  rw [hleaves t' d name]
  refine hread.map_right ?_
  rintro e _ ⟨rfl, hname⟩
  exact ⟨rfl, hname⟩

/-- A member other than the name is read alike by entities that differ in the name. -/
theorem recordStep_sameButName {name : Option String} {s s' : Partial EntityDraft}
    (h : SameButName name s s') {key : String} (hkey : key ≠ "name") {t t' : Tree}
    (ht : Alike .texts t t') :
    StepsAgree (SameButName name) t t' (recordStep (entitySlots .jsonText) s key)
      (recordStep (entitySlots .jsonText) s' key) := by
  have hcontains : s'.seen.contains key = s.seen.contains key := by
    rw [Bool.eq_iff_iff, List.contains_iff_mem, List.contains_iff_mem, h.seen key hkey]
  unfold recordStep
  rw [hcontains]
  cases hfind : (entitySlots .jsonText).find? (·.key == key) with
  | none => exact .error _ _
  | some slot =>
      have hslot : slot.key = key := by simpa using List.find?_some hfind
      dsimp only
      split
      · exact .error _ _
      · refine .ok ?_
        rw [h.record]
        refine (read_sameButName (List.mem_of_find?_eq_some hfind) (hslot ▸ hkey) ht s.record
          name).map ?_
        rintro e _ ⟨rfl, hname⟩
        refine ⟨hname.trans h.unnamed, rfl, fun k hk ↦ ?_⟩
        rw [List.mem_cons, List.mem_cons, h.seen k hk]

/-- Where the name has been read, the rest is the same. -/
theorem walkMembers_sameButName {name : Option String} {s s' : Partial EntityDraft}
    (h : SameButName name s s') {members members' : Members}
    (hmembers : MembersAlike .texts members members') (hname : "name" ∉ members.keys) :
    Agree (SameButName name) (walkMembers (recordStep (entitySlots .jsonText)) s members)
      (walkMembers (recordStep (entitySlots .jsonText)) s' members') := by
  refine walkMembers_agree (T := fun key t t' ↦ key ≠ "name" ∧ Alike .texts t t') ?_
    (hmembers.related fun key hkey t t' ht ↦ ⟨ne_of_mem_of_not_mem hkey hname, ht⟩) h
  rintro s s' key t t' hs ⟨hkey, ht⟩
  exact recordStep_sameButName hs hkey ht

/-- Reading an entity with a name and without one differs in the name only. -/
theorem walkMembers_named {name : Option String} {members members' : Members}
    (h : Named name members members') (hname : "name" ∉ members.keys) {s : Partial EntityDraft}
    (hunnamed : s.record.name = none) (hseen : "name" ∉ s.seen) :
    Agree (SameButName name) (walkMembers (recordStep (entitySlots .jsonText)) s members)
      (walkMembers (recordStep (entitySlots .jsonText)) s members') := by
  induction h generalizing s with
  | @here stop last leave t ht members rest h =>
      -- from here on both walks read the same members, the second with the name set
      have hstep : recordStep (entitySlots .jsonText) s "name" = .ok fun t ↦
          (fun r ↦ ⟨r, "name" :: s.seen⟩) <$>
            (fun v ↦ { s.record with name := v }) <$> nullable (text .jsonText) t := by
        have hfresh : s.seen.contains "name" = false := by simpa using hseen
        simp only [recordStep, entitySlots, List.find?_cons, Slot.optional, beq_self_eq_true]
        rw [hfresh, if_neg Bool.false_ne_true]
      have hread := nullable_text_eq_ok.mpr ht
      have hwalk : walkMembers (recordStep (entitySlots .jsonText)) s
          (.more stop ⟨.ok "name", last, leave⟩ t rest) =
            walkMembers (recordStep (entitySlots .jsonText))
              ⟨{ s.record with name }, "name" :: s.seen⟩ rest := by
        rw [walkMembers]
        simp only [token, bind, Except.bind, hstep, hread]
        rfl
      have hsame : SameButName name s ⟨{ s.record with name }, "name" :: s.seen⟩ := by
        refine ⟨hunnamed, rfl, fun key hkey ↦ ?_⟩
        rw [List.mem_cons, or_iff_right hkey]
      rw [hwalk]
      exact walkMembers_sameButName hsame h hname
  | @later stop stop' key key' hkey t t' h rest rest' hrest ih =>
      -- up to the name both walks are in the same state, in which no name has been read
      obtain ⟨k, last, leave⟩ := key
      obtain ⟨k', last', leave'⟩ := key'
      cases hkey with
      | error hc f f' => exact .error _ _
      | ok k =>
          rw [Members.keys, List.mem_cons, not_or] at hname
          have hslots : List.Forall₂ (Slot.Agrees .texts) (entitySlots .jsonText)
              (entitySlots .jsonText) :=
            entitySlots_agree (c := .texts)
          have hstep := (recordStep_agree hslots s k h).and_left
            (Q := fun s ↦ s.record.name = none ∧ "name" ∉ s.seen) fun read s₁ hlook hread ↦ by
              obtain ⟨slot, hfind, -, hr, hseen₁⟩ := recordStep_eq_ok hlook hread
              obtain ⟨hslot, rfl⟩ := mem_of_find?_key hfind
              rw [(leavesName_of_mem slot hslot (Ne.symm hname.1)).name_eq hr, hseen₁,
                List.mem_cons, not_or]
              exact ⟨hunnamed, hname.1, hseen⟩
          refine walkMembers_more_agree stop stop' rfl rfl hstep ?_
          rintro s₁ _ ⟨rfl, hunnamed₁, hseen₁⟩
          exact ih hname.2 hunnamed₁ hseen₁

inductive EntityNamed (name : Option String) : Tree → Tree → Prop
  | object {p p' : Position} {n n' : Nat}
      (hdepth : FaultsAlike .texts (depthFault? p n) (depthFault? p' n'))
      {members members' : Members} (hname : "name" ∉ members.keys)
      (h : Named name members members') :
      EntityNamed name (.object p n members) (.object p' n' members')

theorem decodeEntityDraft_named {name : Option String} {t t' : Tree} (h : EntityNamed name t t') :
    Agree (fun d d' ↦ d.name = none ∧ d' = { d with name }) (decodeEntityDraft .jsonText t)
      (decodeEntityDraft .jsonText t') := by
  cases h with
  | object hdepth hname h =>
      refine hdepth.bind ((walkMembers_named h hname rfl List.not_mem_nil).bind ?_)
      intro s s' hs
      -- No member of an entity is required.
      have hcomplete : ∀ seen : List String, (entitySlots .jsonText).find?
          (fun slot ↦ slot.presence == .required && !seen.contains slot.key) = none :=
        fun seen ↦ rfl
      rw [hcomplete, hcomplete]
      exact .ok ⟨hs.unnamed, hs.record⟩

/-! ## Maps and lists of entities -/

/-- The entries of a map of entities, and a list of the same entities, each with its key for a
name. -/
inductive Listed : Members → Items → Prop
  | done {ending ending' : Ending}
      (h : FaultsAlike .texts ending.strictFault? ending'.strictFault?) :
      Listed (.done ending) (.done ending')
  | more (stop stop' last leave : Position) (early : Fault) {name : String} {t t' : Tree}
      (h : EntityNamed (some name) t t') {rest : Members} {rest' : Items}
      (hrest : Listed rest rest') :
      Listed (.more stop ⟨.ok name, last, leave⟩ t rest) (.more stop' early t' rest')

/-- An entity that is kept under its name, and one that names itself. -/
theorem entity_under_named {name : String} {t t' : Tree} (h : EntityNamed (some name) t t') :
    Agree (fun e e' ↦ e = e' ∧ e.name = name)
      (decodeEntityDraft .jsonText t >>= fun d ↦ settled (d.under name))
      (decodeEntity .jsonText t') := by
  refine (decodeEntityDraft_named h).bind ?_
  rintro d _ ⟨hunnamed, rfl⟩
  rw [EntityDraft.under, hunnamed]
  exact .ok ⟨rfl, rfl⟩

theorem entityStep_of_not_mem {read : List Entity} {name : String}
    (h : name ∉ read.map Entity.name) :
    entityStep .jsonText read name = .ok fun t ↦ do
      let entity ← settled ((← decodeEntityDraft .jsonText t).under name)
      return entity :: read := by
  rw [entityStep, if_neg]
  simpa using h

/-- Entities as a map and as a list are read alike. -/
theorem walk_listed {members : Members} {items : Items} (h : Listed members items)
    {read : List Entity} (hnames : (members.keys ++ read.map Entity.name).Nodup) :
    Agree Eq (walkMembers (entityStep .jsonText) read members)
      (walkItems (fun read t ↦ (· :: read) <$> decodeEntity .jsonText t) read items) := by
  induction h generalizing read with
  | done h => exact h.bind (.ok rfl)
  | @more stop stop' last leave early name t t' h rest rest' hrest ih =>
      rw [Members.keys, List.cons_append, List.nodup_cons, List.mem_append, not_or] at hnames
      obtain ⟨⟨hlater, hnew⟩, hnames⟩ := hnames
      have hread : Agree (fun es es' ↦ es = es' ∧ es.map Entity.name = name :: read.map Entity.name)
          (do
            let entity ← settled ((← decodeEntityDraft .jsonText t).under name)
            return entity :: read)
          ((· :: read) <$> decodeEntity .jsonText t') := by
        rw [← bind_assoc, map_eq_pure_bind]
        refine (entity_under_named h).bind ?_
        rintro e _ ⟨rfl, rfl⟩
        exact .ok ⟨rfl, rfl⟩
      rw [walkMembers, walkItems]
      simp only [token, bind, Except.bind, entityStep_of_not_mem hnew]
      refine (hread.placed _ _).bind ?_
      rintro es _ ⟨rfl, hes⟩
      refine ih ?_
      rw [hes, List.nodup_middle, List.nodup_cons, List.mem_append, not_or]
      exact ⟨⟨hlater, hnew⟩, hnames⟩

/-- An entry of a map of entities, and the same entry, which may have been given a name that adds
nothing to its key. -/
def MayName (key : String) (t t' : Tree) : Prop :=
  Alike .texts t t' ∨ EntityNamed none t t' ∨ EntityNamed (some key) t t'

/-- An entity under a name may repeat that name. -/
theorem entity_under_mayName {key : String} {t t' : Tree} (h : MayName key t t') :
    Agree Eq (decodeEntityDraft .jsonText t >>= fun d ↦ settled (d.under key))
      (decodeEntityDraft .jsonText t' >>= fun d ↦ settled (d.under key)) := by
  obtain halike | hnull | hkey := h
  · refine (consistent_decodeEntityDraft (c := .texts) t t' halike).bind ?_
    rintro d _ rfl
    exact .refl _
  · refine (decodeEntityDraft_named hnull).bind ?_
    rintro d _ ⟨hunnamed, rfl⟩
    rw [EntityDraft.under, EntityDraft.under, hunnamed]
    exact .ok rfl
  · refine (decodeEntityDraft_named hkey).bind ?_
    rintro d _ ⟨hunnamed, rfl⟩
    rw [EntityDraft.under, EntityDraft.under, hunnamed]
    simp only [if_true]
    exact .ok rfl

theorem entityStep_mayName (read : List Entity) {key : String} {t t' : Tree}
    (h : MayName key t t') :
    StepsAgree Eq t t' (entityStep .jsonText read key) (entityStep .jsonText read key) := by
  unfold entityStep
  split
  · exact .error _ _
  · refine .ok ?_
    rw [← bind_assoc, ← bind_assoc]
    refine (entity_under_mayName h).bind ?_
    rintro e _ rfl
    exact .ok rfl

/-- Two spellings of the same entities. -/
inductive EntitiesRespelled : Tree → Tree → Prop
  | listed {p p' : Position} {n n' : Nat}
      (hdepth : FaultsAlike .texts (depthFault? p n) (depthFault? p' n'))
      {members : Members} {items : Items} (hnames : members.keys.Nodup)
      (h : Listed members items) : EntitiesRespelled (.object p n members) (.list p' n' items)
  | named {p p' : Position} {n n' : Nat}
      (hdepth : FaultsAlike .texts (depthFault? p n) (depthFault? p' n'))
      {members members' : Members} (h : MembersRelated .texts MayName members members') :
      EntitiesRespelled (.object p n members) (.object p' n' members')

/-- Entities are decoded alike from both spellings. -/
theorem decodeEntities_respelled {t t' : Tree} (h : EntitiesRespelled t t') :
    Agree Eq (decodeEntities .jsonText t) (decodeEntities .jsonText t') := by
  cases h with
  | listed hdepth hnames h =>
      refine hdepth.bind ((walk_listed h (by simpa using hnames)).bind ?_)
      rintro read _ rfl
      exact .ok rfl
  | named hdepth h =>
      refine hdepth.bind ((walkMembers_agree (R := Eq) ?_ h rfl).bind ?_)
      · rintro read _ key t t' rfl ht
        exact entityStep_mayName read ht
      · rintro read _ rfl
        exact .ok rfl

/-! ## Documents -/

/-- Two documents that spell their entities in one of the two ways each, and have the rest in
common. -/
inductive Respelled : Json.Document → Json.Document → Prop
  | mk {p p' : Position} {n n' : Nat}
      (hdepth : FaultsAlike .texts (depthFault? p n) (depthFault? p' n'))
      {members members' : Members}
      (h : MembersRelated .texts
        (fun key t t' ↦ if key = "entities" then EntitiesRespelled t t' else Alike .texts t t')
        members members')
      {trailing trailing' : Option Fault} (htrailing : FaultsAlike .texts trailing trailing') :
      Respelled ⟨.object p n members, trailing⟩ ⟨.object p' n' members', trailing'⟩

/-- The entities of a manifest are read alike from both spellings. -/
theorem manifestStep_entities (s : Partial Manifest) {t t' : Tree} (h : EntitiesRespelled t t') :
    StepsAgree Eq t t' (recordStep (manifestSlots .jsonText) s "entities")
      (recordStep (manifestSlots .jsonText) s "entities") := by
  have hfind : (manifestSlots .jsonText).find? (·.key == "entities") =
      some (.required "entities" (decodeEntities .jsonText)
        fun m v ↦ { m with entities := v }) := rfl
  unfold recordStep
  rw [hfind]
  dsimp only
  split
  · exact .error _ _
  · have hread : Agree Eq
        ((fun es ↦ { s.record with entities := es }) <$> decodeEntities .jsonText t)
        ((fun es ↦ { s.record with entities := es }) <$> decodeEntities .jsonText t') :=
      (decodeEntities_respelled h).map fun _ _ heq ↦ by rw [heq]
    exact .ok (hread.map fun _ _ heq ↦ by rw [heq])

/-- A manifest is decoded alike from both spellings. -/
theorem decodeManifest_respelled {d d' : Json.Document} (h : Respelled d d') :
    Agree Eq (decodeManifest .jsonText d.root) (decodeManifest .jsonText d'.root) := by
  have hslots : List.Forall₂ (Slot.Agrees .texts) (manifestSlots .jsonText)
      (manifestSlots .jsonText) :=
    manifestSlots_agree (c := .texts)
  cases h with
  | mk hdepth h =>
      refine hdepth.bind ((walkMembers_agree (R := Eq) ?_ h rfl).bind ?_)
      · rintro s _ key t t' rfl ht
        split at ht
        · rename_i hkey
          exact hkey ▸ manifestStep_entities s ht
        · exact recordStep_agree hslots s key ht
      · rintro s _ rfl
        split
        · exact .error _ _
        · exact .ok rfl

theorem Respelled.trailing {d d' : Json.Document} (h : Respelled d d') :
    FaultsAlike .texts d.trailing d'.trailing := by
  cases h with
  | mk hdepth h htrailing => exact htrailing

/-! ## Texts of the two spellings -/

namespace Json

mutual

/-- Two trees of one value are alike. -/
theorem Holds.alike {t t' : Tree} {v : Value} (h : Denotes t v) (h' : Denotes t' v) :
    Alike .texts t t' := by
  cases h with
  | null p q =>
      cases h'
      exact .null _ _ _ _
  | bool p q b =>
      cases h'
      exact .bool _ _ _ _ b
  | integer h =>
      cases h' with
      | integer h' =>
          obtain ⟨p, q, rfl⟩ := h
          obtain ⟨p', q', rfl⟩ := h'
          exact .number _ _ _ _ (.ok _)
  | float h =>
      cases h' with
      | float h' =>
          obtain ⟨p, q, rfl⟩ := h
          obtain ⟨p', q', rfl⟩ := h'
          exact .number _ _ _ _ (.ok _)
  | string p q s =>
      cases h'
      exact .string _ _ _ _ (.ok s)
  | array p hn h =>
      cases h' with
      | array p' hn' h' => exact .list (faultsAlike_of_lt p p' hn hn') (h.alike h')
  | object p hn h =>
      cases h' with
      | object p' hn' h' => exact .object (faultsAlike_of_lt p p' hn hn') (h.alike h')

theorem ItemsHold.alike {items items' : Items} {vs : List Value} (h : ItemsDenote items vs)
    (h' : ItemsDenote items' vs) : ItemsAlike .texts items items' := by
  cases h with
  | done stop =>
      cases h'
      exact .done .none
  | more stop early h hrest =>
      cases h' with
      | more stop' early' h' hrest' =>
          exact .more _ _ _ _ (h.alike h') (hrest.alike hrest')

theorem MembersHold.alike {members members' : Members} {ms : List (String × Value)}
    (h : MembersDenote members ms) (h' : MembersDenote members' ms) :
    MembersAlike .texts members members' := by
  cases h with
  | done stop =>
      cases h'
      exact .done .none
  | more stop last leave h hrest =>
      cases h' with
      | more stop' last' leave' h' hrest' =>
          exact .more _ _ (.ok _) (h.alike h') (hrest.alike hrest')

end

def Value.entityMap (entries : List (String × List (String × Value))) : Value :=
  .object (entries.map fun e ↦ (e.1, .object e.2))

def Value.entityList (entries : List (String × List (String × Value))) : Value :=
  .array (entries.map fun e ↦ .object (("name", .string e.1) :: e.2))

/-- A map of entities and the list of the same entities correspond. -/
theorem listed_of_denote {entries : List (String × List (String × Value))}
    (hnames : ∀ e ∈ entries, "name" ∉ e.2.map Prod.fst) {members : Members} {items : Items}
    (h : MembersDenote members (entries.map fun e ↦ (e.1, .object e.2)))
    (h' : ItemsDenote items (entries.map fun e ↦ .object (("name", .string e.1) :: e.2))) :
    Listed members items := by
  induction entries generalizing members items with
  | nil =>
      cases h
      cases h'
      exact .done .none
  | cons e entries ih =>
      rw [List.forall_mem_cons] at hnames
      cases h with
      | more stop last leave h hrest =>
          cases h' with
          | more stop' early h' hrest' =>
              refine .more _ _ _ _ _ ?_ (ih hnames.2 hrest hrest')
              cases h with
              | object p hn h =>
                  cases h' with
                  | object p' hn' h' =>
                      cases h' with
                      | more stop' last' leave' hname h' =>
                          cases hname
                          refine .object (faultsAlike_of_lt p p' hn hn') ?_
                            (.here _ _ _ (.string _ _ _) (h.alike h'))
                          rw [h.keys]
                          exact hnames.1

/-- Trees of members that correspond are related member by member. -/
theorem related_of_denote {T : String → Tree → Tree → Prop} {ms ms' : List (String × Value)}
    (hT : List.Forall₂ (fun e e' ↦ e.1 = e'.1 ∧
      ∀ t t', Denotes t e.2 → Denotes t' e'.2 → T e.1 t t') ms ms')
    {members members' : Members} (h : MembersDenote members ms)
    (h' : MembersDenote members' ms') : MembersRelated .texts T members members' := by
  induction hT generalizing members members' with
  | nil =>
      cases h
      cases h'
      exact .done .none
  | cons hT _ ih =>
      cases h with
      | @more _ _ _ name t _ _ _ h hrest =>
          cases h' with
          | @more _ _ _ name' t' _ _ _ h' hrest' =>
              obtain ⟨rfl, hT⟩ := hT
              refine .more _ _ (.ok name) (fun k hk ↦ ?_) (ih hrest hrest')
              cases hk
              exact hT t t' h h'

/-- Any list of entities under different names can be spelled as a map and as a list. -/
theorem respelled_of_denotes (entries : List (String × List (String × Value)))
    (before after : List (String × Value)) (hdistinct : (entries.map Prod.fst).Nodup)
    (hnames : ∀ e ∈ entries, "name" ∉ e.2.map Prod.fst)
    (hbefore : "entities" ∉ before.map Prod.fst) (hafter : "entities" ∉ after.map Prod.fst)
    {d d' : Document}
    (h : Denotes d.root (.object (before ++ ("entities", .entityMap entries) :: after)))
    (h' : Denotes d'.root (.object (before ++ ("entities", .entityList entries) :: after)))
    (htrailing : d.trailing = none) (htrailing' : d'.trailing = none) : Respelled d d' := by
  have hentities : ∀ t t', Denotes t (.entityMap entries) → Denotes t' (.entityList entries) →
      EntitiesRespelled t t' := by
    intro t t' ht ht'
    cases ht with
    | object p hn ht =>
        cases ht' with
        | array p' hn' ht' =>
            refine .listed (faultsAlike_of_lt p p' hn hn') ?_ (listed_of_denote hnames ht ht')
            rw [ht.keys, List.map_map]
            exact hdistinct
  have hothers : ∀ ms : List (String × Value), "entities" ∉ ms.map Prod.fst →
      List.Forall₂ (fun e e' ↦ e.1 = e'.1 ∧ ∀ t t', Denotes t e.2 → Denotes t' e'.2 →
        if e.1 = "entities" then EntitiesRespelled t t' else Alike .texts t t') ms ms := by
    intro ms hms
    refine List.forall₂_same.mpr fun e he ↦ ⟨rfl, fun t t' ht ht' ↦ ?_⟩
    rw [if_neg (ne_of_mem_of_not_mem (List.mem_map_of_mem he) hms)]
    exact ht.alike ht'
  obtain ⟨root, trailing⟩ := d
  obtain ⟨root', trailing'⟩ := d'
  cases htrailing
  cases htrailing'
  cases h with
  | object p hn h =>
      cases h' with
      | object p' hn' h' =>
          refine .mk (faultsAlike_of_lt p p' hn hn') (related_of_denote ?_ h h') .none
          refine List.rel_append (hothers before hbefore) (.cons ⟨rfl, ?_⟩ (hothers after hafter))
          intro t t' ht ht'
          dsimp only
          rw [if_pos rfl]
          exact hentities t t' ht ht'

end Json

/-! ## Maps of entities that are accepted -/

/-- Entities of a map get the keys as their names. -/
theorem names_of_walkMembers {members : Members} {read read' : List Entity}
    (h : walkMembers (entityStep .jsonText) read members = .ok read') :
    read'.map Entity.name = members.keys.reverse ++ read.map Entity.name := by
  induction members generalizing read with
  | done ending =>
      obtain ⟨-, -, h⟩ := bind_eq_ok.mp h
      cases h
      rfl
  | more stop key value rest ih =>
      obtain ⟨name, look, _, hname, hlook, hread, h⟩ := walkMembers_more h
      obtain ⟨-, d, e, -, he, rfl⟩ := entityStep_eq_ok hlook hread
      have hkeys : (Members.more stop key value rest).keys = name :: rest.keys := by
        simp only [Members.keys, hname]
      rw [ih h, hkeys, EntityDraft.eq_of_under he]
      simp

theorem names_of_decodeEntities {p : Position} {n : Nat} {members : Members} {es : List Entity}
    (h : decodeEntities .jsonText (.object p n members) = .ok es) :
    es.map Entity.name = members.keys := by
  obtain ⟨-, -, h⟩ := bind_eq_ok.mp h
  obtain ⟨read, hwalk, h⟩ := bind_eq_ok.mp h
  cases h
  rw [List.map_reverse, names_of_walkMembers hwalk]
  simp

theorem name_of_under {d : EntityDraft} {name : String} {e : Entity} (h : d.under name = .ok e) :
    d.name = none ∨ d.name = some name := by
  unfold EntityDraft.under at h
  split at h
  case h_1 declared hdeclared =>
      split at h
      case isTrue heq => exact .inr (heq ▸ hdeclared)
      case isFalse => cases h
  case h_2 hnone => exact .inl hnone

/-- The name that an entity is given is the one that its draft has. -/
theorem declares_of_decodeEntityDraft {p : Position} {n : Nat} {members : Members}
    {d : EntityDraft} (h : decodeEntityDraft .jsonText (.object p n members) = .ok d) {t : Tree}
    (hmem : ("name", t) ∈ members.entries) : Declares t d.name := by
  obtain ⟨-, -, h⟩ := bind_eq_ok.mp h
  have hothers : OnlyChangedBy (entitySlots .jsonText) "name" EntityDraft.name :=
    fun slot hslot hkey name t d d' _ hd hread ↦
      ((leavesName_of_mem slot hslot hkey).name_eq hread).trans hd
  exact nullable_text_eq_ok.mp (decode_of_recordMembers rfl (fun _ _ ↦ rfl) hothers hmem h)

theorem decodeEntities_of_decodeManifest {p : Position} {n : Nat} {members : Members}
    {m : Manifest} (h : decodeManifest .jsonText (.object p n members) = .ok m) {t : Tree}
    (hmem : ("entities", t) ∈ members.entries) : decodeEntities .jsonText t = .ok m.entities := by
  obtain ⟨-, -, h⟩ := bind_eq_ok.mp h
  exact decode_of_recordMembers rfl (fun _ _ ↦ rfl) entities_onlyChangedBy hmem h

theorem declares_of_decodeEntities {p : Position} {n : Nat} {members : Members}
    {es : List Entity} (h : decodeEntities .jsonText (.object p n members) = .ok es)
    {key : String} {q : Position} {k : Nat} {entity : Members}
    (hentity : (key, .object q k entity) ∈ members.entries) {t : Tree}
    (hname : ("name", t) ∈ entity.entries) : Declares t none ∨ Declares t (some key) := by
  obtain ⟨-, -, h⟩ := bind_eq_ok.mp h
  obtain ⟨read, hwalk, -⟩ := bind_eq_ok.mp h
  refine walkMembers_of_mem (motive := fun _ ↦ Declares t none ∨ Declares t (some key))
    (fun _ _ _ _ _ _ hdone _ ↦ hdone) ?_ hentity hwalk
  intro read look read' hlook hread
  obtain ⟨-, d, e, hd, he, -⟩ := entityStep_eq_ok hlook hread
  have hdeclares := declares_of_decodeEntityDraft hd hname
  rcases name_of_under he with hnone | hkey
  · exact .inl (hnone ▸ hdeclares)
  · exact .inr (hkey ▸ hdeclares)

def Json.Document.MapsEntities (d : Json.Document) (es : Members) : Prop :=
  ∃ p n members q k, d.root = .object p n members ∧ ("entities", .object q k es) ∈ members.entries

/-- Documents that spell the same entities as a map and as a list, or as maps of which one repeats
the names, are accepted together and hold the same manifest.  A map gives the entities in the order
of its keys, and an entry that names itself has its key for a name, or `null`. -/
theorem Manifest.entities_spelled_alike :
    (∀ source source', Respelled (Json.Document.read source) (Json.Document.read source') →
      ∀ m, Manifest.ofJson source = .ok m ↔ Manifest.ofJson source' = .ok m) ∧
    ∀ source es, (Json.Document.read source).MapsEntities es →
      ∀ m, Manifest.ofJson source = .ok m →
        m.entities.map Entity.name = es.keys ∧
          ∀ key p n entity, (key, .object p n entity) ∈ es.entries →
            ∀ t, ("name", t) ∈ entity.entries → Declares t none ∨ Declares t (some key) := by
  constructor
  · intro source source' h m
    rw [Manifest.ofJson_eq_ok, Manifest.ofJson_eq_ok]
    refine Agree.eq_ok_iff ((decodeManifest_respelled h).bind ?_) m
    rintro m _ rfl
    exact h.trailing.bind (.refl _)
  · rintro source es ⟨p, n, members, q, k, hroot, hmem⟩ m hm
    obtain ⟨hdecoded, -⟩ := decodeText_eq_ok.mp (Manifest.ofJson_eq_ok.mp hm)
    rw [hroot] at hdecoded
    have hentities := decodeEntities_of_decodeManifest hdecoded hmem
    refine ⟨names_of_decodeEntities hentities, fun key p n entity hentity t hname ↦ ?_⟩
    exact declares_of_decodeEntities hentities hentity hname

def headlessDocument (entities : Json.Value) : Json.Value :=
  .object [("mode", .string "headless"), ("entities", entities)]

def postAndTag : List (String × List (String × Json.Value)) :=
  [("Post", [("table", .string "posts")]), ("Tag", [])]

def namedPost : List (String × List (String × Json.Value)) := [("Post", [("name", .string "Post")])]

/-- The document is read as what it was written from. -/
theorem read_headlessDocument (entries : List (String × List (String × Json.Value)))
    (h : ∀ e ∈ entries, ∀ f ∈ e.2, ∃ s, f.2 = .string s) {entities : Json.Value}
    (hentities : entities ∈ [.entityMap entries, .entityList entries]) :
    Json.Denotes (Json.Document.read (headlessDocument entities).pretty).root
        (headlessDocument entities) ∧
      (Json.Document.read (headlessDocument entities).pretty).trailing = none := by
  have hmember : ∀ e ∈ entries, ∀ f ∈ e.2, Json.Within Json.Rereads 0 f.2 := by
    intro e he f hf
    obtain ⟨s, hs⟩ := h e he f hf
    rw [hs]
    exact .string s
  have hwithin : Json.Within Json.Rereads 2 entities := by
    rcases List.mem_pair.mp hentities with rfl | rfl
    · refine .object (List.forall_mem_map.mpr fun e he ↦ .object (hmember e he))
    · refine .array (List.forall_mem_map.mpr fun e he ↦ .object ?_)
      exact List.forall_mem_cons.mpr ⟨.string _, hmember e he⟩
  refine Json.read_pretty (k := 3) (.object ?_) (by decide)
  exact List.forall_mem_cons.mpr ⟨.string _, List.forall_mem_singleton.mpr hwithin⟩

theorem Manifest.entities_spelled_alike_postAndTag :
    (∃ m, Manifest.ofJson (headlessDocument (.entityMap postAndTag)).pretty = .ok m ∧
      Manifest.ofJson (headlessDocument (.entityList postAndTag)).pretty = .ok m) ∧
    ∃ es m p n entity t,
      (Json.Document.read (headlessDocument (.entityMap namedPost)).pretty).MapsEntities es ∧
        Manifest.ofJson (headlessDocument (.entityMap namedPost)).pretty = .ok m ∧
        ("Post", .object p n entity) ∈ es.entries ∧ ("name", t) ∈ entity.entries ∧
        m.entities.map Entity.name = es.keys ∧
        (Declares t none ∨ Declares t (some "Post")) := by
  constructor
  · have hmapped := read_headlessDocument postAndTag (by simp [postAndTag])
      List.mem_cons_self
    have hlisted := read_headlessDocument postAndTag (by simp [postAndTag])
      (List.mem_cons_of_mem _ List.mem_cons_self)
    have hrespelled := Json.respelled_of_denotes postAndTag [("mode", .string "headless")] []
      (by decide) (by decide) (by decide) (by decide) hmapped.1 hlisted.1 hmapped.2 hlisted.2
    obtain ⟨m, hm⟩ := exists_ok_of_isOk
      (x := Manifest.ofJson (headlessDocument (.entityMap postAndTag)).pretty) (by decide +kernel)
    exact ⟨m, hm, (Manifest.entities_spelled_alike.1 _ _ hrespelled m).mp hm⟩
  · have hnamed := read_headlessDocument namedPost (by simp [namedPost])
      List.mem_cons_self
    obtain ⟨m, hm⟩ := exists_ok_of_isOk
      (x := Manifest.ofJson (headlessDocument (.entityMap namedPost)).pretty) (by decide +kernel)
    obtain ⟨p, n, members, hroot, hmembers⟩ := hnamed.1.eq_object
    obtain ⟨_, hentities, h⟩ := hmembers.exists_mem (List.mem_cons_of_mem _ List.mem_cons_self)
    obtain ⟨q, k, es, rfl, hes⟩ := h.eq_object
    obtain ⟨_, hpost, h⟩ := hes.exists_mem List.mem_cons_self
    obtain ⟨q', k', entity, rfl, hentity⟩ := h.eq_object
    obtain ⟨t, ht, -⟩ := hentity.exists_mem List.mem_cons_self
    have hmaps : (Json.Document.read (headlessDocument (.entityMap namedPost)).pretty).MapsEntities
        es := ⟨p, n, members, q, k, hroot, hentities⟩
    obtain ⟨hnames, hdeclares⟩ := Manifest.entities_spelled_alike.2 _ es hmaps m hm
    exact ⟨es, m, q', k', entity, t, hmaps, hm, hpost, ht, hnames,
      hdeclares "Post" q' k' entity hpost t ht⟩

/-- An entity in a map may have `null` for a name. -/
theorem Manifest.accepts_null_name :
    (Manifest.ofJson "\x7b\"entities\":\x7b\"Post\":\x7b\"name\":null\x7d\x7d\x7d").toOption.map
      (fun m ↦ m.entities.map Entity.name) = some ["Post"] := by
  decide +kernel

end Scaffold

import Scaffold.Proofs.Data.Invariants

/-!
# Repeated keys

A decoder that accepts a tree has looked at the objects in it, and most of them may not have the
same key twice.  What it leaves out is its leeway: the objects, told by the steps that lead to them,
and the keys that these may repeat.  A decoder keeps within the leeway that is put together from
those of its parts.
-/

namespace Scaffold.Data

/-! ## Objects in a tree -/

/-- A step into a tree: to a member of an object, or to an item of a list. -/
inductive Step where
  | member (key : String)
  | item (index : Nat)
deriving DecidableEq, Repr

/-- The steps that lead into a tree. -/
abbrev Trail := List Step

mutual

def Tree.repeats (key : String) : Tree → Trail → Bool
  | .object _ _ members, [] => decide (2 ≤ members.keys.count key)
  | .object _ _ members, .member name :: trail => members.repeats key name trail
  | .list _ _ items, .item i :: trail => items.repeats key i trail
  | _, _ => false

def Items.repeats (key : String) : Items → Nat → Trail → Bool
  | .more _ _ value _, 0, trail => value.repeats key trail
  | .more _ _ _ rest, i + 1, trail => rest.repeats key i trail
  | .done _, _, _ => false

def Members.repeats (key : String) : Members → String → Trail → Bool
  | .more _ k value rest, name, trail =>
      (k.text.toOption == some name && value.repeats key trail) || rest.repeats key name trail
  | .done _, _, _ => false

end

/-- The objects that may repeat a key, by the trails that lead to them, and which keys. -/
abbrev Leeway := Trail → String → Prop

namespace Leeway

def none : Leeway := fun _ _ ↦ False

def all : Leeway := fun _ _ ↦ True

/-- Leeway within each item of a list or each entry of a map. -/
def inside (L : Leeway) : Leeway
  | [], _ => False
  | _ :: trail, key => L trail key

/-- Leeway within a slot of a record, which is found by its name or by its place. -/
def slot (name : String) (index : Nat) (L : Leeway) : Leeway
  | [], _ => False
  | step :: trail, key => (step = .member name ∨ step = .item index) ∧ L trail key

def or (L L' : Leeway) : Leeway := fun trail key ↦ L trail key ∨ L' trail key

theorem inside_none : none.inside = none := by
  funext trail key
  cases trail <;> rfl

def Within (L L' : Leeway) : Prop := ∀ trail key, L trail key → L' trail key

theorem slot_none_within (name : String) (index : Nat) (L : Leeway) :
    (none.slot name index).Within L := by
  rintro (- | ⟨step, trail⟩) key h
  · exact h.elim
  · exact h.2.elim

end Leeway

def Tree.Keeps (L : Leeway) (step : Step) (t : Tree) : Prop :=
  ∀ trail key, t.repeats key trail = true → L (step :: trail) key

/-- Whether keys are repeated within the leeway only, in every tree that is accepted. -/
def Confines {α : Type} (L : Leeway) (decode : Tree → Decoded α) : Prop :=
  ∀ t a, decode t = .ok a → ∀ trail key, t.repeats key trail = true → L trail key

variable {α σ : Type} {L : Leeway}

/-! ## Scalars -/

def Tree.isScalar : Tree → Bool
  | .list .. | .object .. => false
  | _ => true

theorem Tree.repeats_of_isScalar {t : Tree} (h : t.isScalar = true) (key : String)
    (trail : Trail) : t.repeats key trail = false := by
  cases t with
  | list | object => cases h
  | null | bool | number | string | broken => simp [Tree.repeats]

theorem confines_of_isScalar {decode : Tree → Decoded α}
    (h : ∀ t a, decode t = .ok a → t.isScalar = true) : Confines L decode := by
  intro t a ht trail key hkey
  rw [Tree.repeats_of_isScalar (h t a ht)] at hkey
  cases hkey

theorem confines_text : Confines L (text .jsonText) := by
  refine confines_of_isScalar fun t a h ↦ ?_
  cases t with
  | list | object => cases h
  | null | bool | number | string | broken => rfl

theorem confines_flag : Confines L (flag .jsonText) := by
  refine confines_of_isScalar fun t a h ↦ ?_
  cases t with
  | list | object => cases h
  | null | bool | number | string | broken => rfl

theorem confines_double : Confines L (double .jsonText) := by
  refine confines_of_isScalar fun t a h ↦ ?_
  cases t with
  | list | object => cases h
  | null | bool | number | string | broken => rfl

theorem confines_ignored : Confines Leeway.all ignored := fun _ _ _ _ _ _ ↦ trivial

theorem Confines.nullable {decode : Tree → Decoded α} (h : Confines L decode) :
    Confines L (nullable decode) := by
  intro t v ht trail key hkey
  cases t with
  | null => simp [Tree.repeats] at hkey
  | bool | number | string | list | object | broken =>
      obtain ⟨a, ha, -⟩ := map_eq_ok.mp ht
      exact h _ a ha trail key hkey

/-- A variant is written as a text, or as an object with a single member. -/
theorem variantInText_eq_ok {names : List String} {t : Tree} {name : String}
    (h : variantInText names t = .ok name) : t.isScalar = true ∨
      ∃ p n stop k value ending, t = .object p n (.more stop k value (.done ending)) ∧
        value.isScalar = true := by
  cases t with
  | list => cases h
  | null | bool | number | string | broken => exact .inl rfl
  | object p n members =>
      obtain ⟨-, -, h⟩ := bind_eq_ok.mp h
      cases members with
      | done ending =>
          cases ending with
          | closed | broken | cut => cases h
      | more stop k value rest =>
          obtain ⟨known, -, h⟩ := bind_eq_ok.mp h
          split at h
          case h_1 => cases h
          case h_2 =>
              have hscalar : value.isScalar = true := by
                cases value with
                | list | object => cases h
                | null | bool | number | string | broken => rfl
              obtain ⟨-, -, h⟩ := bind_eq_ok.mp h
              cases rest with
              | more => cases h
              | done ending => exact .inr ⟨p, n, stop, k, value, ending, rfl, hscalar⟩

/-- A variant that is accepted repeats no key. -/
theorem confines_variant (names : List String) : Confines L (variant .jsonText names) := by
  intro t name h trail key hkey
  exfalso
  rcases variantInText_eq_ok h with hscalar | ⟨p, n, stop, k, value, ending, rfl, hscalar⟩
  · rw [Tree.repeats_of_isScalar hscalar] at hkey
    cases hkey
  · rcases trail with - | ⟨_ | _, trail⟩
    · -- an object with one member has no key twice
      have htwice := of_decide_eq_true hkey
      have hlength : (Members.more stop k value (.done ending)).keys.length ≤ 1 := by
        rw [Members.keys]
        split <;> simp [Members.keys]
      have hle := Nat.le_trans htwice (Nat.le_trans List.count_le_length hlength)
      exact absurd hle (by decide)
    · simp [Tree.repeats, Members.repeats, Tree.repeats_of_isScalar hscalar] at hkey
    · simp [Tree.repeats] at hkey

/-! ## Lists -/

theorem walkItems_repeats {step : σ → Tree → Decoded σ} (hstep : ∀ s t s', step s t = .ok s' →
      ∀ trail key, t.repeats key trail = true → L trail key)
    {items : Items} {s s' : σ} (h : walkItems step s items = .ok s') {i : Nat} {trail : Trail}
    {key : String} (hkey : items.repeats key i trail = true) : L trail key := by
  fun_induction walkItems step s items generalizing i with
  | case1 s ending => simp [Items.repeats] at hkey
  | case2 s stop early value rest ih =>
      obtain ⟨s₁, hvalue, h⟩ := bind_eq_ok.mp h
      cases i with
      | zero => exact hstep s value s₁ (placed_eq_ok.mp hvalue) trail key hkey
      | succ i => exact ih s₁ h hkey

/-- A list repeats keys where its items do. -/
theorem Confines.list {decode : Tree → Decoded α} (h : Confines L decode) :
    Confines L.inside (list .jsonText decode) := by
  intro t xs ht trail key hkey
  cases t with
  | null | bool | number | string | broken => simp [Tree.repeats] at hkey
  | object => cases ht
  | list p n items =>
      obtain ⟨-, -, ht⟩ := bind_eq_ok.mp ht
      obtain ⟨read, hread, -⟩ := bind_eq_ok.mp ht
      rcases trail with - | ⟨_ | i, trail⟩
      · simp [Tree.repeats] at hkey
      · simp [Tree.repeats] at hkey
      · refine walkItems_repeats (L := L) ?_ hread (i := i) hkey
        intro xs t xs' hstep
        obtain ⟨a, ha, -⟩ := map_eq_ok.mp hstep
        exact h t a ha

/-! ## Objects -/

/-- What makes reading members keep within a leeway.  `seen` are the keys that may not come again,
and `owed` the values that are still to be looked at. -/
structure Watches (L : Leeway) (step : σ → String → Except ShapeError (Tree → Decoded σ))
    (seen : σ → String → Prop) (owed : σ → String → Tree → Prop) : Prop where
  fresh : ∀ {s key read t s'}, step s key = .ok read → read t = .ok s' → seen s key → L [] key
  kept : ∀ {s key read t s'}, step s key = .ok read → read t = .ok s' →
    ∀ k, k = key ∨ seen s k → seen s' k ∨ L [] k
  inside : ∀ {s key read t s'}, step s key = .ok read → read t = .ok s' →
    t.Keeps L (.member key) ∨ owed s' key t
  settles : ∀ {s key read t s'}, step s key = .ok read → read t = .ok s' →
    ∀ k v, owed s k v → v.Keeps L (.member k) ∨ owed s' k v

namespace Watches

variable {step : σ → String → Except ShapeError (Tree → Decoded σ)} {seen : σ → String → Prop}
  {owed : σ → String → Tree → Prop} {members : Members} {s s' : σ}

/-- A key that was seen before the members or among them comes again within the leeway only. -/
theorem walkMembers_keys (hwatch : Watches L step seen owed)
    (h : walkMembers step s members = .ok s') (key : String) :
    (seen s key → key ∈ members.keys → L [] key) ∧ (2 ≤ members.keys.count key → L [] key) := by
  -- a key that comes twice is one that was seen by the time it comes again
  induction members generalizing s with
  | done ending => simp [Members.keys]
  | more stop k value rest ih =>
      obtain ⟨name, read, s₁, hname, hstep, hread, h⟩ := walkMembers_more h
      obtain ⟨ihseen, ihtwice⟩ := ih h
      have hkeys : (Members.more stop k value rest).keys = name :: rest.keys := by
        simp [Members.keys, hname]
      have hagain : key = name ∨ seen s key → key ∈ rest.keys → L [] key := fun hor hmem ↦
        (hwatch.kept hstep hread key hor).elim (fun hseen ↦ ihseen hseen hmem) id
      rw [hkeys]
      constructor
      · intro hseen hmem
        rcases List.mem_cons.mp hmem with rfl | hmem
        · exact hwatch.fresh hstep hread hseen
        · exact hagain (.inr hseen) hmem
      · intro htwice
        by_cases heq : key = name
        · subst heq
          rw [List.count_cons_self] at htwice
          exact hagain (.inl rfl) (List.count_pos_iff.mp (Nat.lt_of_succ_lt_succ htwice))
        · rw [List.count_cons_of_ne (Ne.symm heq)] at htwice
          exact ihtwice htwice

/-- A value that is owed stays within the leeway, unless it is owed at the end. -/
theorem walkMembers_owed (hwatch : Watches L step seen owed)
    (h : walkMembers step s members = .ok s') {key : String} {t : Tree} (howed : owed s key t) :
    t.Keeps L (.member key) ∨ owed s' key t := by
  induction members generalizing s with
  | done ending =>
      obtain ⟨-, -, h⟩ := bind_eq_ok.mp h
      cases h
      exact .inr howed
  | more stop k value rest ih =>
      obtain ⟨name, read, s₁, -, hstep, hread, h⟩ := walkMembers_more h
      exact (hwatch.settles hstep hread key t howed).elim .inl (ih h)

/-- A key that is repeated inside of a member is within the leeway of what reads the member. -/
theorem walkMembers_inside (hwatch : Watches L step seen owed)
    (h : walkMembers step s members = .ok s') (howed : ∀ key t, ¬ owed s' key t) {name : String}
    {trail : Trail} {key : String} (hkey : members.repeats key name trail = true) :
    L (.member name :: trail) key := by
  induction members generalizing s with
  | done ending => simp [Members.repeats] at hkey
  | more stop k value rest ih =>
      obtain ⟨name', read, s₁, hname, hstep, hread, h⟩ := walkMembers_more h
      rw [Members.repeats, Bool.or_eq_true, Bool.and_eq_true, hname] at hkey
      rcases hkey with ⟨heq, hkey⟩ | hkey
      · obtain rfl : name' = name := by simpa [Except.toOption] using heq
        have hkeeps : value.Keeps L (.member name') ∨ owed s' name' value :=
          (hwatch.inside hstep hread).elim .inl (walkMembers_owed hwatch h)
        exact hkeeps.resolve_right (howed name' value) trail key hkey
      · exact ih h hkey

/-- Reading an object keeps within the leeway if nothing is owed in the end. -/
theorem repeats_object (hwatch : Watches L step seen owed)
    (h : walkMembers step s members = .ok s') (howed : ∀ key t, ¬ owed s' key t) {p : Position}
    {n : Nat} {trail : Trail} {key : String}
    (hkey : (Tree.object p n members).repeats key trail = true) : L trail key := by
  rcases trail with - | ⟨name | i, trail⟩
  · exact (walkMembers_keys hwatch h key).2 (of_decide_eq_true hkey)
  · exact walkMembers_inside hwatch h howed hkey
  · simp [Tree.repeats] at hkey

/-- Nothing is owed where every key is new and its value is looked at when it is read. -/
theorem of_collects (seen : σ → String → Prop)
    (h : ∀ {s key read t s'}, step s key = .ok read → read t = .ok s' →
      ¬ seen s key ∧ (∀ k, k = key ∨ seen s k → seen s' k) ∧ t.Keeps L (.member key)) :
    Watches L step seen fun _ _ _ ↦ False where
  fresh hstep hread hseen := absurd hseen (h hstep hread).1
  kept hstep hread k hk := .inl ((h hstep hread).2.1 k hk)
  inside hstep hread := .inl (h hstep hread).2.2
  settles _ _ _ _ := False.elim

end Watches

/-- A map repeats keys where its values do, and none of its own. -/
theorem Confines.uniqueMap {decode : Tree → Decoded α} (h : Confines L decode) :
    Confines L.inside (uniqueMap .jsonText decode) := by
  intro t xs ht trail key hkey
  cases t with
  | null | bool | number | string | broken => simp [Tree.repeats] at hkey
  | list => cases ht
  | object p n members =>
      obtain ⟨-, -, ht⟩ := bind_eq_ok.mp ht
      refine Watches.repeats_object (.of_collects (fun m k ↦ k ∈ m.keys) ?_) ht
        (fun _ _ ↦ id) hkey
      intro m name read t m' hstep hread
      split at hstep
      case isTrue => cases hstep
      case isFalse hnew =>
          cases hstep
          obtain ⟨a, ha, rfl⟩ := map_eq_ok.mp hread
          rw [Assoc.contains_iff] at hnew
          refine ⟨hnew, fun k hk ↦ ?_, h t a ha⟩
          rw [Assoc.keys, Assoc.entries_insert hnew, List.map_append, List.mem_append, or_comm]
          exact hk.imp_left List.mem_singleton.mpr

/-! ## Records -/

/-- A slot whose value keeps within the leeway, in an object and in a list. -/
def Slot.Confined (L : Leeway) (p : Slot σ × Nat) : Prop :=
  ∀ t r r', p.1.read t r = .ok r' → t.Keeps L (.member p.1.key) ∧ t.Keeps L (.item p.2)

/-- An object read into slots repeats keys where its slots allow that. -/
theorem confines_recordMembers {slots : List (Slot σ)}
    (hslots : ∀ p ∈ slots.zipIdx, Slot.Confined L p) {init r : σ} {members : Members}
    (h : recordMembers slots init members = .ok r) {p : Position} {n : Nat} {trail : Trail}
    {key : String} (hkey : (Tree.object p n members).repeats key trail = true) : L trail key := by
  obtain ⟨s, hwalk, -⟩ := bind_eq_ok.mp h
  refine Watches.repeats_object (.of_collects (fun s k ↦ k ∈ s.seen) ?_) hwalk
    (fun _ _ ↦ id) hkey
  intro s name read t s' hstep hread
  obtain ⟨slot, hfind, hnew, hr, hseen⟩ := recordStep_eq_ok hstep hread
  obtain ⟨hslot, rfl⟩ := mem_of_find?_key hfind
  rw [← List.zipIdx_map_fst 0 slots] at hslot
  obtain ⟨q, hq, rfl⟩ := List.mem_map.mp hslot
  refine ⟨hnew, fun k hk ↦ ?_, (hslots q hq t s.record s'.record hr).1⟩
  rw [hseen]
  exact List.mem_cons.mpr hk

/-- The items of a list are the slots in order, and nothing may follow them. -/
theorem readSlots_repeats {length : String} {slots : List (Slot σ)} {i : Nat}
    (hslots : ∀ p ∈ slots.zipIdx i, Slot.Confined L p) {s : σ} {items : Items} {r : σ × Items}
    (h : readSlots length slots i s items = .ok r) {total : Nat}
    (hleft : leaveItems .jsonText total r.2 = .ok ()) {j : Nat} {trail : Trail} {key : String}
    (hkey : items.repeats key j trail = true) : L (.item (i + j) :: trail) key := by
  fun_induction readSlots length slots i s items generalizing j with
  | case1 i s items =>
      cases h
      cases items with
      | done => simp [Items.repeats] at hkey
      | more => cases hleft
  | case2 slot slots i s stop early value rest ih =>
      rw [List.zipIdx_cons, List.forall_mem_cons] at hslots
      obtain ⟨s₁, hread, h⟩ := bind_eq_ok.mp h
      cases j with
      | zero => exact (hslots.1 value s s₁ (placed_eq_ok.mp hread)).2 trail key hkey
      | succ j =>
          have hrest := ih s₁ hslots.2 h hkey
          rwa [Nat.add_assoc, Nat.add_comm 1 j] at hrest
  | case3 => simp [Items.repeats] at hkey

/-- A record repeats keys where its slots allow that, as an object and as a list. -/
theorem confines_record {slots : List (Slot σ)}
    (hslots : ∀ p ∈ slots.zipIdx, Slot.Confined L p) (name : String) (init : σ) :
    Confines L (record .jsonText name slots init) := by
  intro t r ht trail key hkey
  cases t with
  | null | bool | number | string | broken => simp [Tree.repeats] at hkey
  | object p n members =>
      obtain ⟨-, -, ht⟩ := bind_eq_ok.mp ht
      exact confines_recordMembers hslots ht hkey
  | list p n items =>
      obtain ⟨-, -, ht⟩ := bind_eq_ok.mp ht
      obtain ⟨⟨s, left⟩, hread, ht⟩ := bind_eq_ok.mp ht
      obtain ⟨_, hleft, -⟩ := bind_eq_ok.mp ht
      rcases trail with - | ⟨_ | i, trail⟩
      · simp [Tree.repeats] at hkey
      · simp [Tree.repeats] at hkey
      · have hitem := readSlots_repeats hslots hread hleft hkey
        rwa [Nat.zero_add] at hitem

namespace Slot

variable {key : String} {index : Nat} {decode : Tree → Decoded α}

section

variable {L' : Leeway} (h : Confines L' decode) (hL : (L'.slot key index).Within L)

include h hL

theorem confined_of_put {presence : Presence} {put : σ → α → σ} :
    Slot.Confined L (⟨key, presence, fun t s ↦ put s <$> decode t⟩, index) := by
  intro t r r' hread
  obtain ⟨a, ha, -⟩ := map_eq_ok.mp hread
  exact ⟨fun trail k hk ↦ hL _ k ⟨.inl rfl, h t a ha trail k hk⟩,
    fun trail k hk ↦ hL _ k ⟨.inr rfl, h t a ha trail k hk⟩⟩

theorem confined_required {put : σ → α → σ} : Slot.Confined L (required key decode put, index) :=
  confined_of_put h hL

theorem confined_defaulted {put : σ → α → σ} : Slot.Confined L (defaulted key decode put, index) :=
  confined_of_put h hL

theorem confined_optional {put : σ → Option α → σ} :
    Slot.Confined L (optional key decode put, index) :=
  confined_of_put h.nullable hL

end

/-! A slot without leeway of its own fits into any record. -/

section

variable (h : Confines Leeway.none decode)

include h

theorem plain_required {put : σ → α → σ} : Slot.Confined L (required key decode put, index) :=
  confined_of_put h (Leeway.slot_none_within key index L)

theorem plain_defaulted {put : σ → α → σ} : Slot.Confined L (defaulted key decode put, index) :=
  confined_of_put h (Leeway.slot_none_within key index L)

theorem plain_optional {put : σ → Option α → σ} :
    Slot.Confined L (optional key decode put, index) :=
  confined_of_put h.nullable (Leeway.slot_none_within key index L)

theorem plain_omissible {put : σ → Option α → σ} :
    Slot.Confined L (omissible key decode put, index) :=
  confined_of_put h.nullable (Leeway.slot_none_within key index L)

end

end Slot

end Scaffold.Data

import Mathlib.Data.List.Pairwise
import Scaffold.Proofs.Data.Agreement
import Scaffold.Proofs.Manifest.Rearranged

/-!
# The order of the members of a record

A record that is written as an object is read member by member.  That it is read at all comes down
to its keys, none of which may come twice or be missing, and to its slots, each of which reads the
value of its own member.  Where the slots change different parts of the record, the order of the
members makes no difference.
-/

namespace Scaffold.Data

variable {σ α β : Type}

/-- Members all of whose keys can be decoded, in an object that comes to its end. -/
def Members.Complete : Members → Prop
  | .done ending => ending.strictFault? = none
  | .more _ key _ rest => (∃ name, key.text = .ok name) ∧ rest.Complete

def Members.names (members : Members) : List String := members.entries.map Prod.fst

/-- What comes of a record when entries are read into it, each by the slot of its key. -/
inductive Reads (slots : List (Slot σ)) : σ → List (String × Tree) → σ → Prop
  | nil (r : σ) : Reads slots r [] r
  | cons {key : String} {t : Tree} {entries : List (String × Tree)} {slot : Slot σ} {r r₁ r₂ : σ}
      (hslot : slots.find? (·.key == key) = some slot) (hread : slot.read t r = .ok r₁)
      (hrest : Reads slots r₁ entries r₂) : Reads slots r ((key, t) :: entries) r₂

variable {slots : List (Slot σ)}

/-! ## When a record is read -/

theorem walkMembers_more_iff {step : σ → String → Except ShapeError (Tree → Decoded σ)} {s s' : σ}
    {stop : Position} {key : Key} {value : Tree} {rest : Members} :
    walkMembers step s (.more stop key value rest) = .ok s' ↔
      ∃ name read s₁, key.text = .ok name ∧ step s name = .ok read ∧ read value = .ok s₁ ∧
        walkMembers step s₁ rest = .ok s' := by
  refine ⟨walkMembers_more, ?_⟩
  rintro ⟨name, read, s₁, hname, hlook, hread, hrest⟩
  rw [walkMembers, token_eq_ok.mpr hname]
  simp only [bind, Except.bind, hlook, placed_eq_ok.mpr hread]
  exact hrest

theorem recordStep_eq_ok_iff {s s' : Partial σ} {key : String} {t : Tree} :
    (∃ read, recordStep slots s key = .ok read ∧ read t = .ok s') ↔
      ∃ slot, slots.find? (·.key == key) = some slot ∧ key ∉ s.seen ∧
        slot.read t s.record = .ok s'.record ∧ s'.seen = key :: s.seen := by
  constructor
  · rintro ⟨read, hlook, hread⟩
    exact recordStep_eq_ok hlook hread
  · rintro ⟨slot, hslot, hnew, hread, hseen⟩
    refine ⟨fun t ↦ (fun r ↦ ⟨r, key :: s.seen⟩) <$> slot.read t s.record, ?_, ?_⟩
    · simp [recordStep, hslot, hnew]
    · obtain ⟨record, seen⟩ := s'
      subst hseen
      exact map_eq_ok.mpr ⟨record, hread, rfl⟩

theorem entries_more {stop : Position} {key : Key} {value : Tree} {rest : Members} {name : String}
    (h : key.text = .ok name) :
    (Members.more stop key value rest).entries = (name, value) :: rest.entries := by
  simp only [Members.entries, h]

/-- The members of a record are read exactly if they are complete, under keys that are all different
and new, and can be read one after the other. -/
theorem walkMembers_recordStep_iff {members : Members} {s s' : Partial σ} :
    walkMembers (recordStep slots) s members = .ok s' ↔
      members.Complete ∧ members.names.Nodup ∧ (∀ name ∈ members.names, name ∉ s.seen) ∧
        Reads slots s.record members.entries s'.record ∧
        s'.seen = members.names.reverse ++ s.seen := by
  induction members generalizing s with
  | done ending =>
      constructor
      · intro h
        obtain ⟨_, hfault, h⟩ := bind_eq_ok.mp h
        cases h
        exact ⟨noFault_eq_ok.mp hfault, .nil, by simp [Members.names, Members.entries], .nil _, rfl⟩
      · rintro ⟨hcomplete, -, -, hreads, hseen⟩
        obtain ⟨record, seen⟩ := s'
        cases hreads
        cases hseen
        exact bind_eq_ok.mpr ⟨(), noFault_eq_ok.mpr hcomplete, rfl⟩
  | more stop key value rest ih =>
      constructor
      · intro h
        obtain ⟨name, read, s₁, hname, hlook, hread, hrest⟩ := walkMembers_more_iff.mp h
        obtain ⟨slot, hslot, hnew, hread, hseen⟩ := recordStep_eq_ok hlook hread
        obtain ⟨hcomplete, hnodup, hapart, hreads, hseen'⟩ := ih.mp hrest
        rw [hseen] at hapart hseen'
        have hentries := @entries_more stop key value rest name hname
        have hnames : (Members.more stop key value rest).names = name :: rest.names := by
          rw [Members.names, hentries, List.map_cons, Members.names]
        rw [hnames, hentries]
        refine ⟨⟨⟨name, hname⟩, hcomplete⟩, List.nodup_cons.mpr ⟨?_, hnodup⟩, ?_,
          .cons hslot hread hreads, by simpa using hseen'⟩
        · intro hmem
          exact hapart name hmem List.mem_cons_self
        · rw [List.forall_mem_cons]
          exact ⟨hnew, fun k hk hold ↦ hapart k hk (List.mem_cons_of_mem _ hold)⟩
      · rintro ⟨⟨⟨name, hname⟩, hcomplete⟩, hnodup, hapart, hreads, hseen⟩
        have hentries := @entries_more stop key value rest name hname
        have hnames : (Members.more stop key value rest).names = name :: rest.names := by
          rw [Members.names, hentries, List.map_cons, Members.names]
        rw [hnames] at hnodup hapart hseen
        rw [hentries] at hreads
        obtain ⟨hfirst, hnodup⟩ := List.nodup_cons.mp hnodup
        obtain ⟨hnew, hapart⟩ := List.forall_mem_cons.mp hapart
        cases hreads with
        | @cons _ _ _ slot _ r₁ _ hslot hread hreads =>
            obtain ⟨read, hlook, hread⟩ := recordStep_eq_ok_iff.mpr
              ⟨slot, hslot, hnew, hread, @rfl _ (Partial.mk r₁ (name :: s.seen)).seen⟩
            refine walkMembers_more_iff.mpr ⟨name, read, _, hname, hlook, hread, ih.mpr ?_⟩
            refine ⟨hcomplete, hnodup, fun k hk hold ↦ ?_, hreads, by simpa using hseen⟩
            rcases List.mem_cons.mp hold with rfl | hold
            · exact hfirst hk
            · exact hapart k hk hold

/-- A record is read from members exactly if these are complete and different, can be read one after
the other, and leave out no key that has to be there. -/
theorem recordMembers_eq_ok_iff {init r : σ} {members : Members} :
    recordMembers slots init members = .ok r ↔
      members.Complete ∧ members.names.Nodup ∧ Reads slots init members.entries r ∧
        ∀ slot ∈ slots, slot.presence = .required → slot.key ∈ members.names := by
  have hmissing {seen : List String} (hseen : seen = members.names.reverse) :
      slots.find? (fun slot ↦ slot.presence == .required && !seen.contains slot.key) = none ↔
        ∀ slot ∈ slots, slot.presence = .required → slot.key ∈ members.names := by
    simp [hseen, List.find?_eq_none]
  constructor
  · intro h
    obtain ⟨s, hwalk, h⟩ := bind_eq_ok.mp h
    obtain ⟨hcomplete, hnodup, -, hreads, hseen⟩ := walkMembers_recordStep_iff.mp hwalk
    rw [List.append_nil] at hseen
    split at h
    case h_1 => cases h
    case h_2 hnone =>
        cases h
        exact ⟨hcomplete, hnodup, hreads, (hmissing hseen).mp hnone⟩
  · rintro ⟨hcomplete, hnodup, hreads, hrequired⟩
    have hwalk : walkMembers (recordStep slots) ⟨init, []⟩ members =
        .ok ⟨r, members.names.reverse⟩ :=
      walkMembers_recordStep_iff.mpr
        ⟨hcomplete, hnodup, fun _ _ ↦ List.not_mem_nil, hreads, (List.append_nil _).symm⟩
    refine bind_eq_ok.mpr ⟨_, hwalk, ?_⟩
    rw [(hmissing rfl).mpr hrequired]
    rfl

/-! ## Members in another order -/

/-- Slots of which it does not matter which is read first. -/
def Slot.Commutes (slot slot' : Slot σ) : Prop :=
  ∀ t t' r r', (∃ r₁, slot.read t r = .ok r₁ ∧ slot'.read t' r₁ = .ok r') ↔
    ∃ r₁, slot'.read t' r = .ok r₁ ∧ slot.read t r₁ = .ok r'

instance : Std.Symm (@Slot.Commutes σ) := ⟨fun _ _ h t t' r r' ↦ (h t' t r r').symm⟩

theorem Slot.commutes_of_put {key key' : String} {presence presence' : Presence}
    {decode : Tree → Decoded α} {decode' : Tree → Decoded β} {put : σ → α → σ} {put' : σ → β → σ}
    (h : ∀ r a b, put' (put r a) b = put (put' r b) a) :
    Slot.Commutes ⟨key, presence, fun t r ↦ put r <$> decode t⟩
      ⟨key', presence', fun t r ↦ put' r <$> decode' t⟩ := by
  intro t t' r r'
  constructor
  · rintro ⟨r₁, hread, hread'⟩
    obtain ⟨a, ha, rfl⟩ := map_eq_ok.mp hread
    obtain ⟨b, hb, rfl⟩ := map_eq_ok.mp hread'
    exact ⟨put' r b, map_eq_ok.mpr ⟨b, hb, rfl⟩, map_eq_ok.mpr ⟨a, ha, (h r a b).symm⟩⟩
  · rintro ⟨r₁, hread', hread⟩
    obtain ⟨b, hb, rfl⟩ := map_eq_ok.mp hread'
    obtain ⟨a, ha, rfl⟩ := map_eq_ok.mp hread
    exact ⟨put r a, map_eq_ok.mpr ⟨a, ha, rfl⟩, map_eq_ok.mpr ⟨b, hb, h r a b⟩⟩

/-- Slots that commute read members in any order with the same result. -/
theorem Reads.perm {entries entries' : List (String × Tree)} {r r' : σ}
    (h : Reads slots r entries r')
    (hslots : slots.Pairwise Slot.Commutes)
    (hperm : entries.Perm entries') (hnodup : (entries.map Prod.fst).Nodup) :
    Reads slots r entries' r' := by
  induction hperm generalizing r with
  | nil => exact h
  | cons e _ ih =>
      cases h with
      | cons hslot hread hrest => exact .cons hslot hread (ih hrest (List.nodup_cons.mp hnodup).2)
  | swap e e' entries =>
      -- the two keys differ, so that their slots do
      have hne : e'.1 ≠ e.1 := by
        intro heq
        simp [heq] at hnodup
      cases h with
      | @cons key' _ _ slot' _ _ _ hslot' hread' hrest =>
          cases hrest with
          | @cons key _ _ slot _ _ _ hslot hread hrest =>
              obtain ⟨hmem, hkey⟩ := mem_of_find?_key hslot
              obtain ⟨hmem', hkey'⟩ := mem_of_find?_key hslot'
              have hslot_ne : slot' ≠ slot := by
                rintro rfl
                exact hne (hkey'.symm.trans hkey)
              have hcommutes := hslots.forall hmem' hmem hslot_ne
              obtain ⟨r₁, hfirst, hsecond⟩ := (hcommutes _ _ _ _).mp ⟨_, hread', hread⟩
              exact .cons hslot hfirst (.cons hslot' hsecond hrest)
  | trans hperm _ ih ih' =>
      exact ih' (ih h hnodup) ((hperm.map Prod.fst).nodup_iff.mp hnodup)

theorem Reads.forall₂ {T : Tree → Tree → Prop} {entries entries' : List (String × Tree)}
    {r r' : σ} (h : Reads slots r entries r')
    (hslots : ∀ slot ∈ slots, ∀ t t', T t t' →
      ∀ r r', slot.read t r = .ok r' → slot.read t' r = .ok r')
    (hall : List.Forall₂ (fun e e' ↦ e.1 = e'.1 ∧ T e.2 e'.2) entries entries') :
    Reads slots r entries' r' := by
  induction hall generalizing r with
  | nil => exact h
  | @cons e e' _ _ he _ ih =>
      obtain ⟨key, t'⟩ := e'
      obtain ⟨rfl, hvalue⟩ := he
      cases h with
      | cons hslot hread hrest =>
          have hmem := (mem_of_find?_key hslot).1
          exact .cons hslot (hslots _ hmem _ _ hvalue _ _ hread) (ih hrest)

/-- A record is read from its members in any order, and from others that the slots read alike. -/
theorem recordMembers_of_rearranges {T : Tree → Tree → Prop}
    (hcommutes : slots.Pairwise Slot.Commutes)
    (halike : ∀ slot ∈ slots, ∀ t t', T t t' →
      ∀ r r', slot.read t r = .ok r' → slot.read t' r = .ok r')
    {init r : σ} {members members' : Members} (hcomplete : members'.Complete)
    (hentries : Rearranges (fun e e' ↦ e.1 = e'.1 ∧ T e.2 e'.2) members.entries members'.entries)
    (h : recordMembers slots init members = .ok r) :
    recordMembers slots init members' = .ok r := by
  obtain ⟨-, hnodup, hreads, hrequired⟩ := recordMembers_eq_ok_iff.mp h
  obtain ⟨entries, hperm, hall⟩ := hentries
  have hnames : members.names.Perm members'.names := by
    have hsame : entries.map Prod.fst = members'.names := by
      rw [Members.names, ← List.forall₂_eq_eq_eq, List.forall₂_map_left_iff,
        List.forall₂_map_right_iff]
      exact hall.imp fun _ _ he ↦ he.1
    exact hsame ▸ hperm.map Prod.fst
  refine recordMembers_eq_ok_iff.mpr ⟨hcomplete, hnames.nodup_iff.mp hnodup,
    (hreads.perm hcommutes hperm hnodup).forall₂ halike hall, fun slot hslot hpresence ↦ ?_⟩
  exact hnames.subset (hrequired slot hslot hpresence)

end Scaffold.Data

import Scaffold.Data.Decode
import Scaffold.Proofs.Outcome
import Mathlib.Data.List.Nodup

/-!
# Invariants of decoding

What holds of everything that a decoder reads from trees with certain numbers holds of what it
builds from them: of the items of a list, of the entries of a map, and of a record all of whose
slots keep it.
-/

namespace Scaffold.Data

/-! ## The numbers of a tree -/

mutual

def Tree.numerals : Tree → List Numeral
  | .number _ _ (.ok n) => [n]
  | .list _ _ items => items.numerals
  | .object _ _ members => members.numerals
  | _ => []

def Items.numerals : Items → List Numeral
  | .done _ => []
  | .more _ _ value rest => value.numerals ++ rest.numerals

def Members.numerals : Members → List Numeral
  | .done _ => []
  | .more _ _ value rest => value.numerals ++ rest.numerals

end

/-- Members are read from the first to the last. -/
@[induction_eliminator]
theorem Members.induction {motive : Members → Prop} (done : ∀ ending, motive (.done ending))
    (more : ∀ stop key value rest, motive rest → motive (.more stop key value rest)) :
    ∀ members, motive members
  | .done ending => done ending
  | .more stop key value rest => more stop key value rest (Members.induction done more rest)

/-- The members of an object whose keys can be decoded, in document order. -/
def Members.entries : Members → List (String × Tree)
  | .done _ => []
  | .more _ key value rest =>
      match key.text with
      | .ok text => (text, value) :: rest.entries
      | .error _ => rest.entries

variable {α σ : Type} {P : Numeral → Prop} {motive : σ → Prop}

/-! ## Steps that succeed -/

theorem depthFault?_eq_none_iff {p : Position} {n : Nat} :
    depthFault? p n = none ↔ n < nestingLimit := by
  simp [depthFault?]

theorem depthFault?_eq_none {n : Nat} (hn : n < nestingLimit) (p : Position) :
    depthFault? p n = none :=
  depthFault?_eq_none_iff.mpr hn

theorem placed_eq_ok {r : Decoded α} {p : Position} {a : α} : r.placed p = .ok a ↔ r = .ok a := by
  cases r <;> simp [Decoded.placed, Except.mapError]

theorem noFault_eq_ok {fault : Option Fault} : noFault fault = .ok () ↔ fault = none := by
  cases fault <;> simp [noFault, faulty]

theorem token_eq_ok {value : Except Fault α} {a : α} : token value = .ok a ↔ value = .ok a := by
  cases value <;> simp [token, faulty]

theorem mismatch_ne_ok {o : Origin} {expected : String} {t : Tree} {a : α} :
    mismatch o expected t ≠ .ok a := by
  cases t with
  | null p q | bool p q b | list p n items | object p n members | broken p b strict loose =>
      simp [mismatch, failAt, faulty]
  | number p q value | string p q value =>
      cases value <;> simp [mismatch, failAt, faulty, token, bind, Except.bind]

theorem mismatchEntered_ne_ok {o : Origin} {expected : String} {t : Tree} {a : α} :
    mismatchEntered o expected t ≠ .ok a := by
  intro h
  unfold mismatchEntered at h
  split at h
  case h_1 | h_2 =>
      obtain ⟨-, -, h⟩ := bind_eq_ok.mp h
      cases h
  case h_3 => exact absurd h mismatch_ne_ok

theorem nullable_eq_ok {decode : Tree → Decoded α} {t : Tree} {v : Option α}
    (h : nullable decode t = .ok v) : v = none ∨ ∃ a, v = some a ∧ decode t = .ok a := by
  unfold nullable at h
  split at h
  case h_1 =>
      cases h
      exact .inl rfl
  case h_2 =>
      obtain ⟨a, ha, rfl⟩ := map_eq_ok.mp h
      exact .inr ⟨a, rfl, ha⟩

/-! ## Lists and maps -/

theorem walkItems_induction {step : σ → Tree → Decoded σ}
    (hstep : ∀ s t s', (∀ n ∈ t.numerals, P n) → motive s → step s t = .ok s' → motive s')
    {items : Items} {s s' : σ} (hitems : ∀ n ∈ items.numerals, P n) (hs : motive s)
    (h : walkItems step s items = .ok s') : motive s' := by
  fun_induction walkItems step s items with
  | case1 s ending =>
      obtain ⟨-, -, h⟩ := bind_eq_ok.mp h
      cases h
      exact hs
  | case2 s stop early value rest ih =>
      obtain ⟨s₁, hvalue, h⟩ := bind_eq_ok.mp h
      rw [Items.numerals, List.forall_mem_append] at hitems
      exact ih s₁ hitems.2 (hstep s value s₁ hitems.1 hs (placed_eq_ok.mp hvalue)) h

/-- What reading the first of several members comes to. -/
theorem walkMembers_more {step : σ → String → Except ShapeError (Tree → Decoded σ)} {s s' : σ}
    {stop : Position} {key : Key} {value : Tree} {rest : Members}
    (h : walkMembers step s (.more stop key value rest) = .ok s') :
    ∃ name read s₁, key.text = .ok name ∧ step s name = .ok read ∧ read value = .ok s₁ ∧
      walkMembers step s₁ rest = .ok s' := by
  rw [walkMembers] at h
  obtain ⟨name, hname, h⟩ := bind_eq_ok.mp h
  split at h
  case h_1 => cases h
  case h_2 read hread =>
      obtain ⟨s₁, hvalue, h⟩ := bind_eq_ok.mp h
      exact ⟨name, read, s₁, token_eq_ok.mp hname, hread, placed_eq_ok.mp hvalue, h⟩

theorem walkMembers_induction {step : σ → String → Except ShapeError (Tree → Decoded σ)}
    (hstep : ∀ s key read t s', step s key = .ok read → (∀ n ∈ t.numerals, P n) → motive s →
      read t = .ok s' → motive s')
    {members : Members} {s s' : σ} (hmembers : ∀ n ∈ members.numerals, P n) (hs : motive s)
    (h : walkMembers step s members = .ok s') : motive s' := by
  induction members generalizing s with
  | done ending =>
      obtain ⟨-, -, h⟩ := bind_eq_ok.mp h
      cases h
      exact hs
  | more stop key value rest ih =>
      obtain ⟨name, read, s₁, -, hlook, hread, h⟩ := walkMembers_more h
      rw [Members.numerals, List.forall_mem_append] at hmembers
      exact ih hmembers.2 (hstep s name read value s₁ hlook hmembers.1 hs hread) h

/-- What a member brings about, and later members leave as it is, holds in the end. -/
theorem walkMembers_of_mem {step : σ → String → Except ShapeError (Tree → Decoded σ)}
    (hstep : ∀ s key read t s', step s key = .ok read → motive s → read t = .ok s' → motive s')
    {name : String} {t : Tree}
    (hread : ∀ s read s', step s name = .ok read → read t = .ok s' → motive s')
    {members : Members} (hmem : (name, t) ∈ members.entries) {s s' : σ}
    (h : walkMembers step s members = .ok s') : motive s' := by
  induction members generalizing s with
  | done ending => cases hmem
  | more stop key value rest ih =>
      obtain ⟨k, read, s₁, hk, hlook, hvalue, hrest⟩ := walkMembers_more h
      have hentries : (Members.more stop key value rest).entries = (k, value) :: rest.entries := by
        simp only [Members.entries, hk]
      rw [hentries, List.mem_cons, Prod.mk.injEq] at hmem
      rcases hmem with ⟨rfl, rfl⟩ | hmem
      · exact walkMembers_induction (P := fun _ ↦ True)
          (fun s key read t s' hlook _ hs hvalue ↦ hstep s key read t s' hlook hs hvalue)
          (fun _ _ ↦ trivial) (hread s read s₁ hlook hvalue) hrest
      · exact ih hmem hrest

/-- What holds of every item that is decoded holds of every item of a list. -/
theorem forall_mem_of_list {Q : α → Prop} {o : Origin} {decode : Tree → Decoded α} {t : Tree}
    {xs : List α}
    (hdecode : ∀ t a, (∀ n ∈ t.numerals, P n) → decode t = .ok a → Q a)
    (ht : ∀ n ∈ t.numerals, P n) (h : list o decode t = .ok xs) : ∀ x ∈ xs, Q x := by
  unfold list at h
  split at h
  case h_2 => exact absurd h mismatch_ne_ok
  case h_1 start nesting items =>
      obtain ⟨-, -, h⟩ := bind_eq_ok.mp h
      obtain ⟨read, hread, h⟩ := bind_eq_ok.mp h
      cases h
      have hall : ∀ x ∈ read, Q x := by
        refine walkItems_induction (motive := fun xs ↦ ∀ x ∈ xs, Q x) ?_ ht (by simp) hread
        intro xs t xs' ht hxs h
        obtain ⟨a, ha, rfl⟩ := map_eq_ok.mp h
        exact List.forall_mem_cons.mpr ⟨hdecode t a ht ha, hxs⟩
      exact fun x hx ↦ hall x (List.mem_reverse.mp hx)

/-- What holds of every value that is decoded holds of every value of a map. -/
theorem forall_mem_of_uniqueMap {Q : α → Prop} {o : Origin} {decode : Tree → Decoded α} {t : Tree}
    {m : Assoc α} (hdecode : ∀ t a, (∀ n ∈ t.numerals, P n) → decode t = .ok a → Q a)
    (ht : ∀ n ∈ t.numerals, P n) (h : uniqueMap o decode t = .ok m) :
    ∀ e ∈ m.entries, Q e.2 := by
  unfold uniqueMap at h
  split at h
  case h_2 => exact absurd h mismatch_ne_ok
  case h_1 start nesting members =>
      obtain ⟨-, -, h⟩ := bind_eq_ok.mp h
      refine walkMembers_induction (motive := fun m : Assoc α ↦ ∀ e ∈ m.entries, Q e.2) ?_ ht
        (by simp) h
      intro m key read t m' hkey ht hm h e he
      split at hkey
      case isTrue => cases hkey
      case isFalse =>
          cases hkey
          obtain ⟨a, ha, rfl⟩ := map_eq_ok.mp h
          rcases Assoc.mem_put he with rfl | he
          · exact hdecode t a ht ha
          · exact hm e he

/-! ## Records -/

def Slot.Keeps (P : Numeral → Prop) (motive : σ → Prop) (slot : Slot σ) : Prop :=
  ∀ t s s', (∀ n ∈ t.numerals, P n) → motive s → slot.read t s = .ok s' → motive s'

namespace Slot

variable {key : String} {presence : Presence} {decode : Tree → Decoded α}

theorem keeps_map {put : σ → α → σ}
    (h : ∀ t a s, (∀ n ∈ t.numerals, P n) → decode t = .ok a → motive s → motive (put s a)) :
    Slot.Keeps P motive ⟨key, presence, fun t s ↦ put s <$> decode t⟩ := by
  intro t s s' ht hs hread
  obtain ⟨a, ha, rfl⟩ := map_eq_ok.mp hread
  exact h t a s ht ha hs

/-- A slot may put anything where the property does not look. -/
theorem keeps_of_put {put : σ → α → σ} (h : ∀ s a, motive s → motive (put s a)) :
    Slot.Keeps P motive ⟨key, presence, fun t s ↦ put s <$> decode t⟩ :=
  keeps_map fun _ a s _ _ hs ↦ h s a hs

theorem keeps_part {β : Type} {part : σ → β} {put : σ → α → σ}
    (h : ∀ s a, part (put s a) = part s) (b : β) :
    Slot.Keeps P (fun s ↦ part s = b) ⟨key, presence, fun t s ↦ put s <$> decode t⟩ :=
  keeps_of_put fun s a hs ↦ (h s a).trans hs

theorem keeps_optional {put : σ → Option α → σ} (hnone : ∀ s, motive s → motive (put s none))
    (h : ∀ t a s, (∀ n ∈ t.numerals, P n) → decode t = .ok a → motive s →
      motive (put s (some a))) :
    (Slot.optional key decode put).Keeps P motive := by
  refine keeps_map fun t v s ht hv hs ↦ ?_
  rcases nullable_eq_ok hv with rfl | ⟨a, rfl, ha⟩
  · exact hnone s hs
  · exact h t a s ht ha hs

end Slot

/-- A property that every slot keeps is kept by reading slots by place. -/
theorem readSlots_induction {length : String} {slots : List (Slot σ)}
    (hslots : ∀ slot ∈ slots, slot.Keeps P motive) {i : Nat} {s : σ} {items : Items}
    {r : σ × Items} (hitems : ∀ n ∈ items.numerals, P n) (hs : motive s)
    (h : readSlots length slots i s items = .ok r) : motive r.1 := by
  fun_induction readSlots length slots i s items with
  | case1 i s items =>
      cases h
      exact hs
  | case2 slot slots i s stop early value rest ih =>
      rw [List.forall_mem_cons] at hslots
      rw [Items.numerals, List.forall_mem_append] at hitems
      obtain ⟨s₁, hread, h⟩ := bind_eq_ok.mp h
      exact ih s₁ hslots.2 hitems.2
        (hslots.1 value s s₁ hitems.1 hs (placed_eq_ok.mp hread)) h
  | case3 slot slots i s ending ih =>
      rw [List.forall_mem_cons] at hslots
      obtain ⟨-, -, h⟩ := bind_eq_ok.mp h
      split at h
      case isTrue => exact ih hslots.2 hitems hs h
      case isFalse => cases h

theorem mem_of_find?_key {slots : List (Slot σ)} {key : String} {slot : Slot σ}
    (h : slots.find? (·.key == key) = some slot) : slot ∈ slots ∧ slot.key = key :=
  ⟨List.mem_of_find?_eq_some h, by simpa using List.find?_some h⟩

/-- What reading a member of a record comes to. -/
theorem recordStep_eq_ok {slots : List (Slot σ)} {s s' : Partial σ} {key : String}
    {read : Tree → Decoded (Partial σ)} {t : Tree} (hstep : recordStep slots s key = .ok read)
    (hread : read t = .ok s') :
    ∃ slot, slots.find? (·.key == key) = some slot ∧ key ∉ s.seen ∧
      slot.read t s.record = .ok s'.record ∧ s'.seen = key :: s.seen := by
  unfold recordStep at hstep
  split at hstep
  case h_1 => cases hstep
  case h_2 slot hslot =>
      split at hstep
      case isTrue => cases hstep
      case isFalse hnew =>
          cases hstep
          obtain ⟨r, hr, rfl⟩ := map_eq_ok.mp hread
          exact ⟨slot, hslot, by simpa using hnew, hr, rfl⟩

/-- A property that every slot keeps is kept by reading the members of an object. -/
theorem recordMembers_induction {slots : List (Slot σ)}
    (hslots : ∀ slot ∈ slots, slot.Keeps P motive) {init r : σ} {members : Members}
    (hmembers : ∀ n ∈ members.numerals, P n) (hinit : motive init)
    (h : recordMembers slots init members = .ok r) : motive r := by
  obtain ⟨s, hwalk, h⟩ := bind_eq_ok.mp h
  have hs : motive s.record := by
    refine walkMembers_induction (motive := fun s ↦ motive s.record) ?_ hmembers hinit hwalk
    intro s key read t s' hkey ht hs hread
    obtain ⟨slot, hslot, -, hr, -⟩ := recordStep_eq_ok hkey hread
    exact hslots slot (mem_of_find?_key hslot).1 t s.record s'.record ht hs hr
  split at h
  case h_1 => cases h
  case h_2 =>
      cases h
      exact hs

def OnlyChangedBy {β : Type} (slots : List (Slot σ)) (key : String) (part : σ → β) : Prop :=
  ∀ slot ∈ slots, slot.key ≠ key → ∀ b, slot.Keeps (fun _ ↦ True) fun s ↦ part s = b

/-- What was read for a member of a record is there in the end, in a part of the record that the
other slots leave alone. -/
theorem recordMembers_of_mem {β : Type} {part : σ → β} {slots : List (Slot σ)} {key : String}
    {slot : Slot σ} (hslot : slots.find? (·.key == key) = some slot)
    (hothers : OnlyChangedBy slots key part)
    {init r : σ} {members : Members} {t : Tree} (hmem : (key, t) ∈ members.entries)
    (h : recordMembers slots init members = .ok r) :
    ∃ s s', slot.read t s = .ok s' ∧ part s' = part r := by
  obtain ⟨s, hwalk, h⟩ := bind_eq_ok.mp h
  have hs : key ∈ s.seen ∧ ∃ r r', slot.read t r = .ok r' ∧ part r' = part s.record := by
    refine walkMembers_of_mem (motive := fun s ↦ key ∈ s.seen ∧
      ∃ r r', slot.read t r = .ok r' ∧ part r' = part s.record) ?_ ?_ hmem hwalk
    · -- a later member has another key, as this one has been seen
      rintro s k read t' s' hlook ⟨hseen, r, r', hr, hpart⟩ hread
      obtain ⟨slot', hslot', hnew, hr', hseen'⟩ := recordStep_eq_ok hlook hread
      obtain ⟨hmem', rfl⟩ := mem_of_find?_key hslot'
      have hother : slot'.key ≠ key := fun heq ↦ hnew (heq ▸ hseen)
      refine ⟨hseen' ▸ List.mem_cons_of_mem _ hseen, r, r', hr, ?_⟩
      rw [hpart]
      exact (hothers slot' hmem' hother _ t' _ _ (fun _ _ ↦ trivial) rfl hr').symm
    · intro s read s' hlook hread
      obtain ⟨slot', hslot', -, hr, hseen⟩ := recordStep_eq_ok hlook hread
      cases hslot.symm.trans hslot'
      exact ⟨hseen ▸ List.mem_cons_self, s.record, s'.record, hr, rfl⟩
  split at h
  case h_1 => cases h
  case h_2 =>
      cases h
      exact hs.2

/-- A member of a record is decoded by its slot, and ends up in its part of the record. -/
theorem decode_of_recordMembers {slots : List (Slot σ)} {key : String} {presence : Presence}
    {decode : Tree → Decoded α} {put : σ → α → σ} {part : σ → α}
    (hslot : slots.find? (·.key == key) = some ⟨key, presence, fun t s ↦ put s <$> decode t⟩)
    (hput : ∀ s a, part (put s a) = a) (hothers : OnlyChangedBy slots key part) {init r : σ}
    {members : Members} {t : Tree} (hmem : (key, t) ∈ members.entries)
    (h : recordMembers slots init members = .ok r) : decode t = .ok (part r) := by
  obtain ⟨s, s', hread, hpart⟩ := recordMembers_of_mem hslot hothers hmem h
  obtain ⟨a, ha, rfl⟩ := map_eq_ok.mp hread
  rw [ha, ← hpart, hput]

/-- What the slots of a record keep holds of every record that is read. -/
theorem record_induction {o : Origin} {name : String} {slots : List (Slot σ)}
    (hslots : ∀ slot ∈ slots, slot.Keeps P motive) {init r : σ} {t : Tree}
    (ht : ∀ n ∈ t.numerals, P n) (hinit : motive init)
    (h : record o name slots init t = .ok r) : motive r := by
  unfold record at h
  split at h
  case h_1 start nesting members =>
      obtain ⟨-, -, h⟩ := bind_eq_ok.mp h
      exact recordMembers_induction hslots ht hinit h
  case h_2 start nesting items =>
      obtain ⟨-, -, h⟩ := bind_eq_ok.mp h
      obtain ⟨⟨s, left⟩, hread, h⟩ := bind_eq_ok.mp h
      obtain ⟨-, -, h⟩ := bind_eq_ok.mp h
      cases h
      exact readSlots_induction hslots ht hinit hread
  case h_3 => exact absurd h mismatch_ne_ok

/-- What a part of a record satisfies is up to the slot that sets it. -/
theorem OnlyChangedBy.record_induction {β : Type} {part : σ → β} {motive : β → Prop} {o : Origin}
    {name key : String} {slots : List (Slot σ)} (honly : OnlyChangedBy slots key part)
    (hslot : ∀ slot ∈ slots, slot.key = key → slot.Keeps P fun s ↦ motive (part s)) {init r : σ}
    {t : Tree} (ht : ∀ n ∈ t.numerals, P n) (hinit : motive (part init))
    (h : record o name slots init t = .ok r) : motive (part r) := by
  refine Data.record_induction (motive := fun s ↦ motive (part s)) (fun slot hmem ↦ ?_) ht hinit h
  by_cases hkey : slot.key = key
  · exact hslot slot hmem hkey
  · intro t s s' _ hs hread
    rw [honly slot hmem hkey (part s) t s s' (fun _ _ ↦ trivial) rfl hread]
    exact hs

end Scaffold.Data

import Scaffold.Proofs.Data.Invariants
import Scaffold.Proofs.Json.Written

/-!
# Decoding the tree of a value

A tree that denotes a value has no fault, so that a decoder that takes values of its shape
succeeds on it.  What a record becomes is told member by member.
-/

namespace Scaffold.Json

open Data

variable {α σ : Type} {o : Origin} {v : Value} {N : Tree → Numeral → Prop}

/-! ## Members -/

theorem MembersHold.keys {members : Members} {ms : List (String × Value)}
    (h : MembersHold N members ms) : members.keys = ms.map Prod.fst := by
  induction ms generalizing members with
  | nil =>
      cases h
      rfl
  | cons e ms ih =>
      cases h with
      | more stop last leave h hrest => rw [Members.keys, ih hrest, List.map_cons]

theorem Holds.eq_object {t : Tree} {ms : List (String × Value)} (h : Holds N t (.object ms)) :
    ∃ p n members, t = .object p n members ∧ MembersHold N members ms := by
  cases h with
  | object p hn h => exact ⟨p, _, _, rfl, h⟩

theorem MembersHold.exists_mem {members : Members} {ms : List (String × Value)}
    (h : MembersHold N members ms) {key : String} {v : Value} (hmem : (key, v) ∈ ms) :
    ∃ t, (key, t) ∈ members.entries ∧ Holds N t v := by
  induction ms generalizing members with
  | nil => cases hmem
  | cons e ms ih =>
      cases h with
      | @more _ _ _ k t w _ _ h hrest =>
          rcases List.mem_cons.mp hmem with heq | hmem
          · cases heq
            exact ⟨t, List.mem_cons_self, h⟩
          · obtain ⟨t', ht', hdenotes⟩ := ih hrest hmem
            exact ⟨t', List.mem_cons_of_mem _ ht', hdenotes⟩

def Decodes (decode : Tree → Decoded α) (v : Value) (a : α) : Prop :=
  ∀ t, Denotes t v → decode t = .ok a

/-! ## Scalars -/

theorem decodes_text (s : String) : Decodes (text o) (.string s) s := by
  intro t ht
  cases ht
  rfl

theorem decodes_flag (b : Bool) : Decodes (flag o) (.bool b) b := by
  intro t ht
  cases ht
  rfl

theorem decodes_double (x : Double) : Decodes (double o) (.float x) x := by
  intro t ht
  cases ht with
  | float h =>
      obtain ⟨p, q, rfl⟩ := h
      rfl

theorem Decodes.map {β : Type} {decode : Tree → Decoded α} {a : α} (h : Decodes decode v a)
    (f : α → β) : Decodes (fun t ↦ f <$> decode t) v (f a) := by
  intro t ht
  simp only [h t ht]
  rfl

theorem Decodes.nullable {decode : Tree → Decoded α} {a : α} (h : Decodes decode v a)
    (hv : v ≠ .null) : Decodes (nullable decode) v (some a) := by
  intro t ht
  have hmap := h.map some t ht
  cases ht with
  | null => exact absurd rfl hv
  | integer hnumber | float hnumber =>
      obtain ⟨p, q, rfl⟩ := hnumber
      exact hmap
  | bool | string | array | object => exact hmap

theorem decodes_variant {names : List String} {name : String} (h : name ∈ names) :
    Decodes (variant o names) (.string name) name := by
  intro t ht
  cases ht
  have hknown : knownVariant names name = .ok name := by
    rw [knownVariant, if_pos (by simpa using h)]
  cases o with
  | jsonText => simp [variant, variantInText, token, hknown, bind, Except.bind, pure, Except.pure]
  | jsonValue => simp [variant, variantInValue, token, hknown, bind, Except.bind, pure, Except.pure]
  | toml => simp [variant, variantInToml, token, hknown, bind, Except.bind, pure, Except.pure]

/-! ## Lists and maps -/

theorem walkItems_denote {decode : Tree → Decoded α} {encode : α → Value} {xs : List α}
    (h : ∀ x ∈ xs, Decodes decode (encode x) x) {items : Items}
    (hitems : ItemsDenote items (xs.map encode)) (read : List α) :
    walkItems (fun read t ↦ (· :: read) <$> decode t) read items = .ok (xs.reverse ++ read) := by
  induction xs generalizing items read with
  | nil =>
      cases hitems
      rfl
  | cons x xs ih =>
      rw [List.forall_mem_cons] at h
      cases hitems with
      | more stop early ht hrest =>
          rw [walkItems, h.1 _ ht, List.reverse_cons, List.append_assoc]
          exact ih h.2 hrest (x :: read)

theorem decodes_list {decode : Tree → Decoded α} {encode : α → Value} {xs : List α}
    (h : ∀ x ∈ xs, Decodes decode (encode x) x) :
    Decodes (list o decode) (.array (xs.map encode)) xs := by
  intro t ht
  cases ht with
  | array p hn hitems =>
      have hwalk := walkItems_denote h hitems []
      simp only [list, depthFault?_eq_none hn, hwalk]
      simp [noFault, bind, Except.bind, pure, Except.pure]

inductive Walks (step : σ → String → Except ShapeError (Tree → Decoded σ)) :
    σ → List (String × Value) → σ → Prop
  | nil (s : σ) : Walks step s [] s
  | cons {s s' s'' : σ} {key : String} {v : Value} {ms : List (String × Value)}
      {read : Tree → Decoded σ} (hkey : step s key = .ok read) (hread : Decodes read v s')
      (hrest : Walks step s' ms s'') : Walks step s ((key, v) :: ms) s''

theorem walkMembers_of_walks {step : σ → String → Except ShapeError (Tree → Decoded σ)} {s s' : σ}
    {ms : List (String × Value)} (h : Walks step s ms s') {members : Members}
    (hmembers : MembersDenote members ms) : walkMembers step s members = .ok s' := by
  induction h generalizing members with
  | nil s =>
      cases hmembers
      rfl
  | cons hkey hread hrest ih =>
      cases hmembers with
      | more stop last leave ht hdenote =>
          rw [walkMembers]
          simp only [token, hkey, hread _ ht, bind, Except.bind, Decoded.placed, Except.mapError]
          exact ih hdenote

/-- Entries under distinct names are read one after the other. -/
theorem walks_entries {decode : Tree → Decoded α} {encode : α → Value}
    {step : Assoc α → String → Except ShapeError (Tree → Decoded (Assoc α))}
    (hstep : ∀ read key, ¬ read.contains key →
      step read key = .ok fun t ↦ read.insert key <$> decode t)
    {entries : List (String × α)} (h : ∀ e ∈ entries, Decodes decode (encode e.2) e.2)
    {read m : Assoc α} (hm : m.entries = read.entries ++ entries) :
    Walks step read (entries.map fun e ↦ (e.1, encode e.2)) m := by
  induction entries generalizing read with
  | nil =>
      rw [Assoc.ext (hm.trans (List.append_nil _))]
      exact .nil read
  | cons e entries ih =>
      rw [List.forall_mem_cons] at h
      have hnew : e.1 ∉ read.keys := by
        intro hmem
        have hnodup := m.nodup
        rw [hm, List.map_append, List.nodup_append] at hnodup
        exact hnodup.2.2 _ hmem _ List.mem_cons_self rfl
      refine .cons (hstep read e.1 (mt Assoc.contains_iff.mp hnew)) (h.1.map (read.insert e.1))
        (ih h.2 ?_)
      rw [Assoc.entries_insert hnew, List.append_assoc]
      exact hm

theorem decodes_uniqueMap {decode : Tree → Decoded α} {encode : α → Value} {m : Assoc α}
    (h : ∀ e ∈ m.entries, Decodes decode (encode e.2) e.2) :
    Decodes (uniqueMap o decode) (.object (m.map fun e ↦ (e.1, encode e.2))) m := by
  intro t ht
  cases ht with
  | object p hn hmembers =>
      simp only [uniqueMap, depthFault?_eq_none hn]
      exact walkMembers_of_walks (walks_entries (fun read key hnew ↦ if_neg hnew) h rfl) hmembers

/-! ## Records -/

/-- Members that are put into the slots of a record one after the other. -/
inductive Fills (slots : List (Slot σ)) : σ → List (String × Value) → σ → Prop
  | nil (r : σ) : Fills slots r [] r
  | cons {r r' r'' : σ} {key : String} {v : Value} {ms : List (String × Value)} {slot : Slot σ}
      (hslot : slots.find? (·.key == key) = some slot)
      (hread : Decodes (fun t ↦ slot.read t r) v r') (hrest : Fills slots r' ms r'') :
      Fills slots r ((key, v) :: ms) r''

namespace Fills

variable {slots : List (Slot σ)} {r r' : σ} {key : String}

theorem of_append_nil {ms : List (String × Value)} (h : Fills slots r (ms ++ []) r') :
    Fills slots r ms r' := List.append_nil ms ▸ h

theorem done (h : r = r') : Fills slots r [] r' := h ▸ .nil r

variable {decode : Tree → Decoded α} {a : α} {ms : List (String × Value)}

theorem required {put : σ → α → σ}
    (hslot : slots.find? (·.key == key) = some (.required key decode put))
    (h : Decodes decode v a) (hrest : Fills slots (put r a) ms r') :
    Fills slots r ((key, v) :: ms) r' := .cons hslot (h.map (put r)) hrest

theorem defaulted {put : σ → α → σ}
    (hslot : slots.find? (·.key == key) = some (.defaulted key decode put))
    (h : Decodes decode v a) (hrest : Fills slots (put r a) ms r') :
    Fills slots r ((key, v) :: ms) r' := .cons hslot (h.map (put r)) hrest

theorem optional {put : σ → Option α → σ}
    (hslot : slots.find? (·.key == key) = some (.optional key decode put))
    (h : Decodes decode v a) (hv : v ≠ .null) (hrest : Fills slots (put r (some a)) ms r') :
    Fills slots r ((key, v) :: ms) r' := .cons hslot ((h.nullable hv).map (put r)) hrest

theorem omissible {put : σ → Option α → σ}
    (hslot : slots.find? (·.key == key) = some (.omissible key decode put))
    (h : Decodes decode v a) (hv : v ≠ .null) (hrest : Fills slots (put r (some a)) ms r') :
    Fills slots r ((key, v) :: ms) r' := .cons hslot ((h.nullable hv).map (put r)) hrest

/-- With no key twice, no step of the walk meets a key that it has seen. -/
theorem walks (h : Fills slots r ms r') (seen : List String)
    (hnodup : (seen.reverse ++ ms.map Prod.fst).Nodup) :
    Walks (recordStep slots) ⟨r, seen⟩ ms ⟨r', (ms.map Prod.fst).reverse ++ seen⟩ := by
  induction h generalizing seen with
  | nil r => exact .nil _
  | @cons r r' r'' key v ms slot hslot hread hrest ih =>
      have hnew : seen.contains key = false := by
        rw [List.contains_eq_mem, decide_eq_false_iff_not]
        intro hmem
        rw [List.nodup_append] at hnodup
        exact hnodup.2.2 key (List.mem_reverse.mpr hmem) key (by simp) rfl
      have hwalk := ih (key :: seen) (by simpa using hnodup)
      rw [List.map_cons, List.reverse_cons, List.append_assoc]
      refine .cons ?_ (hread.map fun r ↦ ⟨r, key :: seen⟩) hwalk
      simp only [recordStep, hslot, hnew]
      rfl

end Fills

theorem recordMembers_of_fills {slots : List (Slot σ)} {init r : σ} {ms : List (String × Value)}
    (h : Fills slots init ms r) (hnodup : (ms.map Prod.fst).Nodup)
    (hrequired : ∀ slot ∈ slots, slot.presence = .required → slot.key ∈ ms.map Prod.fst)
    {members : Members} (hmembers : MembersDenote members ms) :
    recordMembers slots init members = .ok r := by
  have hwalk := walkMembers_of_walks (h.walks [] (by simpa using hnodup)) hmembers
  have hnone : (slots.find? fun slot ↦ slot.presence == .required &&
      !((ms.map Prod.fst).reverse ++ []).contains slot.key) = none := by
    rw [List.find?_eq_none]
    intro slot hslot hmissing
    have hkey := hrequired slot hslot
    simp_all
  simp only [recordMembers, hwalk, bind, Except.bind, hnone]
  rfl

/-- A record is read from an object whose keys are all different and all known, and among which
are the required ones. -/
theorem decodes_record {name : String} {slots : List (Slot σ)} {init r : σ}
    {ms : List (String × Value)} (h : Fills slots init ms r) (hnodup : (ms.map Prod.fst).Nodup)
    (hrequired : ∀ slot ∈ slots, slot.presence = .required → slot.key ∈ ms.map Prod.fst) :
    Decodes (record o name slots init) (.object ms) r := by
  intro t ht
  cases ht with
  | object p hn hmembers =>
      simp only [record, depthFault?_eq_none hn, noFault, bind, Except.bind]
      exact recordMembers_of_fills h hnodup hrequired hmembers

end Scaffold.Json

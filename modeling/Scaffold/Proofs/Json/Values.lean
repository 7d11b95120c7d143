import Scaffold.Json.Value
import Scaffold.Proofs.Data.Agreement

/-!
# Trees of texts and of values

The value of a tree keeps what the tree holds, in its order, and drops the places.  Of two members
with the same key it keeps one, so a tree and its value hold the same as long as no object repeats a
key.
-/

namespace Scaffold

open Data

namespace Data

mutual

def Tree.keysDistinct : Tree → Bool
  | .list _ _ items => items.keysDistinct
  | .object _ _ members => decide members.keys.Nodup && members.keysDistinct
  | _ => true

def Items.keysDistinct : Items → Bool
  | .done _ => true
  | .more _ _ value rest => value.keysDistinct && rest.keysDistinct

def Members.keysDistinct : Members → Bool
  | .done _ => true
  | .more _ _ value rest => value.keysDistinct && rest.keysDistinct

end

end Data

namespace Json.Value

theorem insert_of_not_mem {members : List (String × Value)} {key : String}
    (h : key ∉ members.map Prod.fst) (v : Value) :
    insert members key v = members ++ [(key, v)] := by
  induction members with
  | nil => rfl
  | cons e members ih =>
      rw [List.map_cons, List.mem_cons, not_or] at h
      rw [insert, if_neg (Ne.symm h.1), ih h.2, List.cons_append]

mutual

/-- A tree without repeated keys is like the tree of its value. -/
theorem alike_of_ofTree {t : Tree} {v : Value} (h : ofTree t = .ok v)
    (hkeys : t.keysDistinct = true) : Alike .textAndValue t v.toTree := by
  cases t with
  | null p q =>
      cases h
      exact .null _ _ _ _
  | bool p q b =>
      cases h
      exact .bool _ _ _ _ _
  | number p q value =>
      obtain ⟨n, rfl, h⟩ := bind_eq_ok.mp h
      cases n <;> cases h <;> exact .number _ _ _ _ (.ok _)
  | string p q value =>
      obtain ⟨s, rfl, h⟩ := bind_eq_ok.mp h
      cases h
      exact .string _ _ _ _ (.ok s)
  | list p n items =>
      rw [ofTree] at h
      split at h
      · cases h
      · rename_i hdepth
        obtain ⟨vs, hvs, h⟩ := bind_eq_ok.mp h
        cases h
        refine .list ?_ (itemsAlike_of_ofItems hvs hkeys)
        rw [hdepth]
        exact .none
  | object p n members =>
      rw [ofTree] at h
      split at h
      · cases h
      · rename_i hdepth
        obtain ⟨ms, hms, h⟩ := bind_eq_ok.mp h
        cases h
        rw [Tree.keysDistinct, Bool.and_eq_true, decide_eq_true_eq] at hkeys
        obtain ⟨ms, rfl, halike⟩ := membersAlike_of_ofMembers hms (by simpa using hkeys.1) hkeys.2
        refine .object ?_ halike
        rw [hdepth]
        exact .none
  | broken => cases h

/-- Items without repeated keys are like the items of their values. -/
theorem itemsAlike_of_ofItems {items : Items} {vs : List Value} (h : ofItems items = .ok vs)
    (hkeys : items.keysDistinct = true) : ItemsAlike .textAndValue items (toItems vs) := by
  cases items with
  | done ending =>
      rw [ofItems] at h
      split at h
      · cases h
      · rename_i hending
        cases h
        refine .done ?_
        rw [hending]
        exact .none
  | more stop early t rest =>
      obtain ⟨v, hv, h⟩ := bind_eq_ok.mp h
      obtain ⟨vs, hvs, h⟩ := bind_eq_ok.mp h
      cases h
      rw [Items.keysDistinct, Bool.and_eq_true] at hkeys
      exact .more _ _ _ _ (alike_of_ofTree hv hkeys.1) (itemsAlike_of_ofItems hvs hkeys.2)

/-- Members with new keys come behind those that have been read. -/
theorem membersAlike_of_ofMembers {members : Members} {read result : List (String × Value)}
    (h : ofMembers read members = .ok result)
    (hnodup : (read.map Prod.fst ++ members.keys).Nodup) (hkeys : members.keysDistinct = true) :
    ∃ ms, result = read ++ ms ∧ MembersAlike .textAndValue members (toMembers ms) := by
  cases members with
  | done ending =>
      rw [ofMembers] at h
      split at h
      · cases h
      · rename_i hending
        cases h
        refine ⟨[], by simp, .done ?_⟩
        rw [hending]
        exact .none
  | more stop key t rest =>
      obtain ⟨text, last, leave⟩ := key
      rw [ofMembers] at h
      obtain ⟨k, rfl, hvalue⟩ := bind_eq_ok.mp h
      obtain ⟨v, hv, h⟩ := bind_eq_ok.mp hvalue
      rw [Members.keysDistinct, Bool.and_eq_true] at hkeys
      rw [Members.keys] at hnodup
      have hnew : k ∉ read.map Prod.fst := fun hk ↦
        (List.nodup_append.mp hnodup).2.2 k hk k List.mem_cons_self rfl
      rw [insert_of_not_mem hnew] at h
      obtain ⟨ms, rfl, halike⟩ := membersAlike_of_ofMembers h (by simpa using hnodup) hkeys.2
      exact ⟨(k, v) :: ms, by simp, .more _ _ (.ok k) (alike_of_ofTree hv hkeys.1) halike⟩

end

end Json.Value

end Scaffold

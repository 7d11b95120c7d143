import Mathlib.Data.List.Nodup
import Mathlib.Data.List.Pairwise
import Scaffold.Data.Assoc

/-!
# Lists without repeated keys

Every search for something that has come before comes down to one statement: nothing has come
before any element exactly if the keys are distinct and none of them is a key of the earlier
elements.  In such a list there are no repeats, and every element is the first of its key.  In any
list, the first element of a key is the one that a search for the key finds.
-/

namespace Scaffold

variable {α β : Type} [BEq β] [LawfulBEq β]

theorem find?_key_eq_none_iff (key : α → β) (earlier : List α) (x : α) :
    earlier.find? (key · == key x) = none ↔ ∀ e ∈ earlier, key e ≠ key x := by
  simp [List.find?_eq_none]

/-- Nothing has come before, neither among the earlier elements nor in the list. -/
theorem withEarlier_eq_none_iff (key : α → β) (earlier xs : List α) :
    (∀ p ∈ withEarlier key earlier xs, p.2 = none) ↔
      (xs.map key).Nodup ∧ ∀ e ∈ earlier, ∀ x ∈ xs, key e ≠ key x := by
  induction xs generalizing earlier with
  | nil => simp [withEarlier]
  | cons x xs ih =>
      simp only [withEarlier, List.forall_mem_cons, ih, find?_key_eq_none_iff, List.map_cons,
        List.nodup_cons, List.mem_map, List.forall_mem_append]
      constructor
      · rintro ⟨hearlier, hnodup, hrest, hx, _⟩
        refine ⟨⟨?_, hnodup⟩, fun e he ↦ ⟨hearlier e he, hrest e he⟩⟩
        rintro ⟨y, hy, hyx⟩
        exact hx y hy hyx.symm
      · rintro ⟨⟨hx, hnodup⟩, hearlier⟩
        refine ⟨fun e he ↦ (hearlier e he).1, hnodup, fun e he ↦ (hearlier e he).2, ?_,
          by simp⟩
        intro y hy hxy
        exact hx ⟨y, hy, hxy.symm⟩

theorem filterMap_withEarlier_eq_nil_iff {γ : Type} (key : α → β) (earlier xs : List α)
    (report : α → α → γ) :
    ((withEarlier key earlier xs).filterMap fun p ↦ p.2.map (report p.1)) = [] ↔
      (xs.map key).Nodup ∧ ∀ e ∈ earlier, ∀ x ∈ xs, key e ≠ key x := by
  rw [← withEarlier_eq_none_iff, List.filterMap_eq_nil_iff]
  simp only [Option.map_eq_none_iff]

theorem repeats_eq_nil_iff (key : α → β) (xs : List α) :
    repeats key xs = [] ↔ (xs.map key).Nodup := by
  unfold repeats
  rw [filterMap_withEarlier_eq_nil_iff key [] xs Prod.mk]
  simp

omit [LawfulBEq β] in
theorem map_fst_withEarlier (key : α → β) (earlier xs : List α) :
    (withEarlier key earlier xs).map Prod.fst = xs := by
  induction xs generalizing earlier with
  | nil => rfl
  | cons x xs ih => simp [withEarlier, ih]

omit [LawfulBEq β] in
theorem withEarlier_append (key : α → β) (earlier xs ys : List α) :
    withEarlier key earlier (xs ++ ys) =
      withEarlier key earlier xs ++ withEarlier key (earlier ++ xs) ys := by
  induction xs generalizing earlier with
  | nil => simp [withEarlier]
  | cons x xs ih =>
      have hrest := ih (earlier ++ [x])
      rw [List.append_assoc, List.singleton_append] at hrest
      rw [List.cons_append, withEarlier, withEarlier, hrest, List.cons_append]

omit [LawfulBEq β] in
/-- What has come before an element is found among the elements in front of its position. -/
theorem withEarlier_eq_map_zipIdx (key : α → β) (earlier xs : List α) :
    withEarlier key earlier xs = xs.zipIdx.map fun p ↦
      (p.1, (earlier ++ xs.take p.2).find? (key · == key p.1)) := by
  induction xs generalizing earlier with
  | nil => rfl
  | cons x xs ih =>
      rw [withEarlier, ih, List.zipIdx_cons', List.map_cons, List.map_map, List.take_zero,
        List.append_nil]
      refine congrArg _ (List.map_congr_left fun p _ ↦ ?_)
      simp

theorem firsts_eq_self {key : α → β} {xs : List α} (h : (xs.map key).Nodup) :
    firsts key xs = xs := by
  have hnone := (withEarlier_eq_none_iff key [] xs).mpr ⟨h, by simp⟩
  calc
    firsts key xs = (withEarlier key [] xs).map Prod.fst := by
      unfold firsts
      rw [← List.filterMap_eq_map]
      apply List.filterMap_congr
      intro p hp
      simp [hnone p hp]
    _ = xs := map_fst_withEarlier key [] xs

omit [LawfulBEq β] in
theorem firsts_eq_nil_iff (key : α → β) (xs : List α) : firsts key xs = [] ↔ xs = [] := by
  cases xs <;> simp [firsts, withEarlier]

/-- The first element of a key is the one that a search finds, unless there is an earlier one. -/
theorem filter_withEarlier (key : α → β) (k : β) (earlier xs : List α) :
    (((withEarlier key earlier xs).filterMap fun p ↦
        if p.2.isNone then some p.1 else none).filter (key · == k)) =
      if earlier.find? (key · == k) = none then (xs.find? (key · == k)).toList else [] := by
  induction xs generalizing earlier with
  | nil => simp [withEarlier]
  | cons x xs ih =>
      have hrest := ih (earlier ++ [x])
      rw [List.find?_append] at hrest
      rw [withEarlier]
      by_cases hkey : key x = k
      · subst hkey
        rw [List.find?_cons_of_pos (by simp)] at hrest ⊢
        rw [if_neg (by cases earlier.find? (key · == key x) <;> simp)] at hrest
        cases earlier.find? (key · == key x) with
        | none =>
            simp only [List.filterMap_cons, Option.isNone_none, ↓reduceIte]
            rw [List.filter_cons_of_pos (by simp), hrest]
            rfl
        | some first => rw [List.filterMap_cons_none rfl, hrest, if_neg (by simp)]
      · rw [List.find?_cons_of_neg (by simpa using hkey)] at hrest ⊢
        rw [List.find?_nil, Option.or_none] at hrest
        cases earlier.find? (key · == key x) with
        | none =>
            simp only [List.filterMap_cons, Option.isNone_none, ↓reduceIte]
            rw [List.filter_cons_of_neg (by simpa using hkey), hrest]
        | some first => rw [List.filterMap_cons_none rfl, hrest]

theorem filter_firsts (key : α → β) (k : β) (xs : List α) :
    (firsts key xs).filter (key · == k) = (xs.find? (key · == k)).toList := by
  unfold firsts
  rw [filter_withEarlier]
  exact if_pos rfl

/-- Where the keys are distinct, a search for the key of an element finds it and nothing else. -/
theorem filter_key_eq_singleton {key : α → β} {xs : List α} (h : (xs.map key).Nodup) {x : α}
    (hx : x ∈ xs) : xs.filter (key · == key x) = [x] := by
  induction xs with
  | nil => simp at hx
  | cons y xs ih =>
      rw [List.map_cons, List.nodup_cons] at h
      rcases List.mem_cons.mp hx with rfl | hx
      · have hrest : xs.filter (key · == key x) = [] := by
          refine List.filter_eq_nil_iff.mpr fun y hy hkey ↦ h.1 ?_
          exact List.mem_map.mpr ⟨y, hy, by simpa using hkey⟩
        rw [List.filter_cons_of_pos (by simp), hrest]
      · have hne : key y ≠ key x := fun heq ↦ h.1 (List.mem_map.mpr ⟨x, hx, heq.symm⟩)
        rw [List.filter_cons_of_neg (by simpa using hne), ih h.2 hx]

/-- What comes from elements and has their keys is found where the elements are. -/
theorem filter_flatMap_key {γ : Type} {key : α → β} {keyOf : γ → β} {find : α → List γ}
    {xs : List α} (h : ∀ x ∈ xs, ∀ y ∈ find x, keyOf y = key x) (k : β) :
    (xs.flatMap find).filter (keyOf · == k) = (xs.filter (key · == k)).flatMap find := by
  induction xs with
  | nil => rfl
  | cons x xs ih =>
      obtain ⟨hx, hxs⟩ := List.forall_mem_cons.mp h
      rw [List.flatMap_cons, List.filter_append, ih hxs]
      by_cases hkey : key x = k
      · rw [List.filter_cons_of_pos (by simpa using hkey), List.flatMap_cons,
          List.filter_eq_self.mpr fun y hy ↦ by simp [hx y hy, hkey]]
      · rw [List.filter_cons_of_neg (by simpa using hkey),
          List.filter_eq_nil_iff.mpr fun y hy ↦ by simp [hx y hy, hkey], List.nil_append]

/-! ## Comparing with the first -/

section

variable {R : α → α → Prop} (hsymm : ∀ x y, R x y → R y x)
  (htrans : ∀ x y z, R x y → R y z → R x z)

include hsymm htrans

/-- Where all that share a key are related, so is another element to all of its key as soon as it is
to the first. -/
theorem related_to_first_iff {key : α → β} {earlier : List α}
    (h : earlier.Pairwise fun x y ↦ key x = key y → R x y) (x : α) :
    (∀ first, earlier.find? (key · == key x) = some first → R first x) ↔
      ∀ y ∈ earlier, key y = key x → R y x := by
  constructor
  · intro hfirst y hy hkey
    have hsome : (earlier.find? (key · == key x)).isSome = true :=
      List.find?_isSome.mpr ⟨y, hy, by simpa using hkey⟩
    obtain ⟨first, hfound⟩ := Option.isSome_iff_exists.mp hsome
    have hfirstKey : key first = key x := by simpa using List.find?_some hfound
    have hmem := List.mem_of_find?_eq_some hfound
    by_cases heq : y = first
    · exact heq ▸ hfirst first hfound
    · have : Std.Symm fun x y ↦ key x = key y → R x y :=
        ⟨fun _ _ hR hsame ↦ hsymm _ _ (hR hsame.symm)⟩
      have hyfirst : R y first := h.forall hy hmem heq (hkey.trans hfirstKey.symm)
      exact htrans _ _ _ hyfirst (hfirst first hfound)
  · intro hall first hfound
    have hkey : key first = key x := by simpa using List.find?_some hfound
    exact hall first (List.mem_of_find?_eq_some hfound) hkey

/-- Every element is related to the first of its key exactly if all that share a key are related.
Nothing needs to be related to itself for that. -/
theorem withEarlier_related_iff (key : α → β) {earlier : List α}
    (h : earlier.Pairwise fun x y ↦ key x = key y → R x y) (xs : List α) :
    (∀ p ∈ withEarlier key earlier xs, ∀ first, p.2 = some first → R first p.1) ↔
      (earlier ++ xs).Pairwise fun x y ↦ key x = key y → R x y := by
  induction xs generalizing earlier with
  | nil => simpa [withEarlier] using h
  | cons x xs ih =>
      have hsplit : (earlier ++ [x]).Pairwise (fun x y ↦ key x = key y → R x y) ↔
          ∀ y ∈ earlier, key y = key x → R y x := by
        simp [List.pairwise_append, h]
      rw [withEarlier, List.forall_mem_cons, List.append_cons earlier x xs]
      refine (and_congr_left' ((related_to_first_iff hsymm htrans h x).trans hsplit.symm)).trans ?_
      constructor
      · rintro ⟨hx, hrest⟩
        exact (ih hx).mp hrest
      · intro hall
        have hx := (List.pairwise_append.mp hall).1
        exact ⟨hx, (ih hx).mpr hall⟩

end

end Scaffold

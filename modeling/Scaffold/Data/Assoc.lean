/-!
# Maps in insertion order

A map from names to values is the list of its entries in the order in which they were first put
in, no two of them under one name.  Putting an entry in under a name that is there replaces the
value and keeps the place.  Where a list may repeat a key, every element is compared with the first
one before it that has the same key.
-/

namespace Scaffold

/-- A map from names to values that remembers the order of its entries. -/
structure Assoc (α : Type) where
  entries : List (String × α) := []
  nodup : (entries.map Prod.fst).Nodup := by exact List.nodup_nil
deriving DecidableEq, Repr

namespace Assoc

variable {α β γ : Type}

instance [BEq α] : BEq (Assoc α) where
  beq m n := m.entries == n.entries

@[ext] theorem ext {m n : Assoc α} (h : m.entries = n.entries) : m = n := by
  cases m
  cases n
  cases h
  rfl

def keys (m : Assoc α) : List String := m.entries.map Prod.fst

theorem nodup_keys (m : Assoc α) : m.keys.Nodup := m.nodup

def get? (m : Assoc α) (key : String) : Option α := m.entries.lookup key

def contains (m : Assoc α) (key : String) : Bool := m.entries.any (·.1 == key)

theorem contains_iff {m : Assoc α} {key : String} : m.contains key = true ↔ key ∈ m.keys := by
  simp [contains, keys]

/-! ## Putting entries in -/

/-- Replaces the value under the name in its place, or adds an entry at the end. -/
def put (key : String) (value : α) : List (String × α) → List (String × α)
  | [] => [(key, value)]
  | (k, v) :: rest => if k = key then (k, value) :: rest else (k, v) :: put key value rest

theorem mem_put {key : String} {value : α} {entries : List (String × α)} {e : String × α}
    (h : e ∈ put key value entries) : e = (key, value) ∨ e ∈ entries := by
  fun_induction put key value entries with
  | case1 => exact .inl (List.mem_singleton.mp h)
  | case2 v rest =>
      rcases List.mem_cons.mp h with rfl | h
      · exact .inl rfl
      · exact .inr (List.mem_cons_of_mem _ h)
  | case3 k v rest hk ih =>
      rcases List.mem_cons.mp h with rfl | h
      · exact .inr List.mem_cons_self
      · exact (ih h).imp_right (List.mem_cons_of_mem _)

theorem nodup_put {entries : List (String × α)} (h : (entries.map Prod.fst).Nodup) (key : String)
    (value : α) : ((put key value entries).map Prod.fst).Nodup := by
  fun_induction put key value entries with
  | case1 => exact List.nodup_cons.mpr ⟨List.not_mem_nil, List.nodup_nil⟩
  | case2 v rest => exact h
  | case3 k v rest hk ih =>
      obtain ⟨hnew, hrest⟩ := List.nodup_cons.mp h
      refine List.nodup_cons.mpr ⟨fun hmem ↦ ?_, ih hrest⟩
      obtain ⟨e, he, rfl⟩ := List.mem_map.mp hmem
      rcases mem_put he with rfl | he
      · exact hk rfl
      · exact hnew (List.mem_map.mpr ⟨e, he, rfl⟩)

theorem put_of_not_mem {key : String} {entries : List (String × α)}
    (h : key ∉ entries.map Prod.fst) (value : α) :
    put key value entries = entries ++ [(key, value)] := by
  fun_induction put key value entries with
  | case1 => rfl
  | case2 v rest => exact absurd List.mem_cons_self h
  | case3 k v rest hk ih =>
      rw [ih fun hmem ↦ h (List.mem_cons_of_mem k hmem)]
      rfl

def insert (m : Assoc α) (key : String) (value : α) : Assoc α :=
  ⟨put key value m.entries, nodup_put m.nodup key value⟩

theorem entries_insert {m : Assoc α} {key : String} (h : key ∉ m.keys) (value : α) :
    (m.insert key value).entries = m.entries ++ [(key, value)] := put_of_not_mem h value

def putAll (m : Assoc α) (entries : List (String × α)) : Assoc α :=
  entries.foldl (fun m e ↦ m.insert e.1 e.2) m

def insertAll (m n : Assoc α) : Assoc α := m.putAll n.entries

def ofList (entries : List (String × α)) : Assoc α := putAll {} entries

/-! ## Leaving entries out -/

def filter (p : String × α → Bool) (m : Assoc α) : Assoc α :=
  ⟨m.entries.filter p, m.nodup.sublist (List.filter_sublist.map Prod.fst)⟩

@[simp] theorem entries_filter (p : String × α → Bool) (m : Assoc α) :
    (m.filter p).entries = m.entries.filter p := rfl

def erase (m : Assoc α) (key : String) : Assoc α := m.filter (·.1 != key)

def eraseAll (m : Assoc α) (names : List String) : Assoc α := names.foldl erase m

/-! ## Going through the entries -/

def map (f : String × α → β) (m : Assoc α) : List β := m.entries.map f

def mapValues (f : α → β) (m : Assoc α) : Assoc β :=
  ⟨m.entries.map fun e ↦ (e.1, f e.2), by simpa [Function.comp_def] using m.nodup⟩

@[simp] theorem entries_mapValues (f : α → β) (m : Assoc α) :
    (m.mapValues f).entries = m.entries.map fun e ↦ (e.1, f e.2) := rfl

theorem mapValues_mapValues (g : β → γ) (f : α → β) (m : Assoc α) :
    (m.mapValues f).mapValues g = m.mapValues (g ∘ f) := by
  ext1
  simp only [entries_mapValues, List.map_map]
  rfl

end Assoc

/-! ## Repeated keys -/

section Repeats

variable {α β : Type} [BEq β]

/-- Pairs every element with the first element of its key among `earlier` and those in front of
it. -/
def withEarlier (key : α → β) (earlier : List α) : List α → List (α × Option α)
  | [] => []
  | x :: xs => (x, earlier.find? (key · == key x)) :: withEarlier key (earlier ++ [x]) xs

/-- The elements whose key has not come before. -/
def firsts (key : α → β) (xs : List α) : List α :=
  (withEarlier key [] xs).filterMap fun p ↦ if p.2.isNone then some p.1 else none

/-- The elements whose key has come before, each with the first of its key. -/
def repeats (key : α → β) (xs : List α) : List (α × α) :=
  (withEarlier key [] xs).filterMap fun p ↦ p.2.map (p.1, ·)

end Repeats

end Scaffold

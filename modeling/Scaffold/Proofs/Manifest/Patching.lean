import Scaffold.Manifest.Document
import Scaffold.Proofs.Data.Invariants


/-!
# Patched entities

A patch drops names from a map and then puts its own definitions in.  A name that stays keeps its
place, whether it is defined anew or not, and a name that is new comes last, so that the order of
the merged map can be told from the names alone.  Where nothing is dropped and put back in, a patch
that has been applied finds everything as it wants it, and changes nothing any more.
-/

namespace Scaffold

open Data

/-! ## Dropping entries and putting entries in -/

namespace Assoc

variable {α : Type}

theorem lookup_cons (e : String × α) (entries : List (String × α)) (name : String) :
    (e :: entries).lookup name = if name = e.1 then some e.2 else entries.lookup name := by
  rw [List.lookup_cons]
  by_cases h : name = e.1
  · rw [if_pos h, beq_iff_eq.mpr h]
  · rw [if_neg h, beq_eq_false_iff_ne.mpr h]

theorem lookup_eq_none {entries : List (String × α)} {name : String}
    (h : name ∉ entries.map Prod.fst) : entries.lookup name = none := by
  rw [List.lookup_eq_none_iff]
  exact fun e he ↦ bne_iff_ne.mpr fun heq ↦ h (heq ▸ List.mem_map_of_mem he)

/-- The entry of a map is found under its name. -/
theorem get?_of_mem {m : Assoc α} {e : String × α} (he : e ∈ m.entries) :
    get? m e.1 = some e.2 := by
  obtain ⟨entries, h⟩ := m
  rw [get?]
  induction entries with
  | nil => cases he
  | cons f entries ih =>
      rw [List.map_cons, List.nodup_cons] at h
      rw [lookup_cons]
      rcases List.mem_cons.mp he with rfl | he
      · exact if_pos rfl
      · have hne : e.1 ≠ f.1 := fun heq ↦ h.1 (heq ▸ List.mem_map_of_mem he)
        rw [if_neg hne, ih h.2 he]

theorem entries_eraseAll (m : Assoc α) (names : List String) :
    (m.eraseAll names).entries = m.entries.filter (·.1 ∉ names) := by
  induction names generalizing m with
  | nil => simp [eraseAll]
  | cons name names ih =>
      have hstep : m.eraseAll (name :: names) = (m.erase name).eraseAll names := rfl
      rw [hstep, ih, erase, filter, List.filter_filter]
      exact List.filter_congr fun e _ ↦ by simp [Bool.and_comm, bne, beq_eq_decide]

theorem keys_eraseAll (m : Assoc α) (names : List String) :
    (m.eraseAll names).keys = m.keys.filter (· ∉ names) := by
  rw [keys, entries_eraseAll, keys, List.filter_map]
  rfl

theorem get?_eraseAll {names : List String} {name : String} (h : name ∉ names) (m : Assoc α) :
    get? (m.eraseAll names) name = get? m name := by
  rw [get?, get?, entries_eraseAll]
  induction m.entries with
  | nil => rfl
  | cons e entries ih =>
      by_cases he : e.1 ∈ names
      · have hne : name ≠ e.1 := fun heq ↦ h (heq ▸ he)
        rw [List.filter_cons_of_neg (by simpa using he), ih, lookup_cons, if_neg hne]
      · rw [List.filter_cons_of_pos (by simpa using he), lookup_cons, lookup_cons, ih]

theorem keys_put (entries : List (String × α)) (key : String) (value : α) :
    (put key value entries).map Prod.fst =
      if key ∈ entries.map Prod.fst then entries.map Prod.fst
      else entries.map Prod.fst ++ [key] := by
  fun_induction put key value entries with
  | case1 => rfl
  | case2 v rest => rw [if_pos (by simp)]; rfl
  | case3 k v rest hk ih =>
      rw [List.map_cons, List.map_cons, ih, apply_ite (k :: ·)]
      simp only [List.mem_cons, Ne.symm hk, false_or, List.cons_append]

theorem keys_insert (m : Assoc α) (key : String) (value : α) :
    (m.insert key value).keys = if key ∈ m.keys then m.keys else m.keys ++ [key] :=
  keys_put m.entries key value

theorem lookup_put (entries : List (String × α)) (key : String) (value : α) (name : String) :
    (put key value entries).lookup name =
      if name = key then some value else entries.lookup name := by
  fun_induction put key value entries with
  | case1 => rw [lookup_cons]
  | case2 v rest =>
      rw [lookup_cons, lookup_cons]
      split <;> rfl
  | case3 k v rest hk ih =>
      rw [lookup_cons, lookup_cons, ih]
      by_cases hname : name = k
      · rw [if_pos hname, if_pos hname, if_neg (hname ▸ hk)]
      · rw [if_neg hname, if_neg hname]

theorem get?_insert (m : Assoc α) (key : String) (value : α) (name : String) :
    get? (m.insert key value) name = if name = key then some value else get? m name :=
  lookup_put m.entries key value name

theorem put_of_lookup {entries : List (String × α)} {key : String} {value : α}
    (h : entries.lookup key = some value) : put key value entries = entries := by
  fun_induction put key value entries with
  | case1 => cases h
  | case2 v rest =>
      rw [lookup_cons, if_pos rfl] at h
      cases h
      rfl
  | case3 k v rest hk ih =>
      rw [lookup_cons, if_neg (Ne.symm hk)] at h
      rw [ih h]

/-- A definition that is there already changes nothing. -/
theorem insert_of_get? {m : Assoc α} {key : String} {value : α} (h : get? m key = some value) :
    m.insert key value = m := ext (put_of_lookup h)

theorem putAll_cons (m : Assoc α) (e : String × α) (entries : List (String × α)) :
    m.putAll (e :: entries) = (m.insert e.1 e.2).putAll entries := rfl

/-- Putting entries in adds the new names behind the old ones. -/
theorem keys_putAll {entries : List (String × α)} (h : (entries.map Prod.fst).Nodup)
    (m : Assoc α) :
    (m.putAll entries).keys = m.keys ++ (entries.map Prod.fst).filter (· ∉ m.keys) := by
  induction entries generalizing m with
  | nil => simp [putAll]
  | cons e entries ih =>
      obtain ⟨hnew, hrest⟩ := List.nodup_cons.mp h
      rw [putAll_cons, ih hrest, keys_insert, List.map_cons]
      by_cases hmem : e.1 ∈ m.keys
      · rw [if_pos hmem, List.filter_cons_of_neg (by simpa using hmem)]
      · -- the names that follow are not the one that has just been added
        have hsame : (entries.map Prod.fst).filter (· ∉ m.keys ++ [e.1]) =
            (entries.map Prod.fst).filter (· ∉ m.keys) :=
          List.filter_congr fun k hk ↦ by simp [ne_of_mem_of_not_mem hk hnew]
        rw [if_neg hmem, hsame, List.filter_cons_of_pos (by simpa using hmem), List.append_assoc,
          List.singleton_append]

/-- Names that are there stay where they are, and the others follow in their order. -/
theorem keys_insertAll (m n : Assoc α) :
    (m.insertAll n).keys = m.keys ++ n.keys.filter (· ∉ m.keys) := keys_putAll n.nodup m

theorem get?_putAll {entries : List (String × α)} (h : (entries.map Prod.fst).Nodup)
    (m : Assoc α) (name : String) :
    get? (m.putAll entries) name = (entries.lookup name).or (get? m name) := by
  induction entries generalizing m with
  | nil => rfl
  | cons e entries ih =>
      obtain ⟨hnew, hrest⟩ := List.nodup_cons.mp h
      rw [putAll_cons, ih hrest, get?_insert, lookup_cons]
      by_cases hname : name = e.1
      · rw [if_pos hname, if_pos hname, hname, lookup_eq_none hnew, Option.none_or, Option.some_or]
      · rw [if_neg hname, if_neg hname]

theorem get?_insertAll (m n : Assoc α) (name : String) :
    get? (m.insertAll n) name = (get? n name).or (get? m name) := get?_putAll n.nodup m name

theorem putAll_of_get? {m : Assoc α} {entries : List (String × α)}
    (h : ∀ e ∈ entries, get? m e.1 = some e.2) : m.putAll entries = m := by
  induction entries with
  | nil => rfl
  | cons e entries ih =>
      obtain ⟨he, hentries⟩ := List.forall_mem_cons.mp h
      rw [putAll_cons, insert_of_get? he, ih hentries]

/-! ## Merged maps -/

/-- How a map comes out of a merge: the old names without the removed ones, then the new names that
are not among these, each with its new definition or, where there is none, with its old one. -/
structure Merges (old : Assoc α) (removed : List String) (new merged : Assoc α) : Prop where
  names : merged.keys = old.keys.filter (· ∉ removed) ++
    new.keys.filter (· ∉ old.keys.filter (· ∉ removed))
  definitions : ∀ name ∈ merged.keys, get? merged name = (get? new name).or (get? old name)

/-- Erasing names and then inserting entries is a merge. -/
theorem merges_insertAll (new old : Assoc α) (removed : List String) :
    Merges old removed new ((old.eraseAll removed).insertAll new) := by
  have hnames := keys_insertAll (old.eraseAll removed) new
  rw [keys_eraseAll] at hnames
  refine ⟨hnames, fun name hname ↦ ?_⟩
  rw [get?_insertAll]
  by_cases hmem : name ∈ new.keys
  · obtain ⟨e, he, rfl⟩ := List.mem_map.mp hmem
    rw [get?_of_mem he, Option.some_or, Option.some_or]
  · -- a name without a new definition has been kept
    have hkept : name ∉ removed := by
      rw [hnames, List.mem_append, List.mem_filter, List.mem_filter] at hname
      rcases hname with ⟨-, hkept⟩ | ⟨hnew, -⟩
      · simpa using hkept
      · exact absurd hnew hmem
    rw [get?_eraseAll hkept]

/-- A map that has been merged with definitions, none of which was removed, has them in place. -/
theorem insertAll_twice {new : Assoc α} {removed : List String}
    (hapart : ∀ name ∈ removed, name ∉ new.keys) (old : Assoc α) :
    (((old.eraseAll removed).insertAll new).eraseAll removed).insertAll new =
      (old.eraseAll removed).insertAll new := by
  have hgone : ∀ e ∈ ((old.eraseAll removed).insertAll new).entries, e.1 ∉ removed := by
    intro e he hremoved
    have hname := List.mem_map_of_mem (f := Prod.fst) he
    rw [← keys, (merges_insertAll new old removed).names, List.mem_append, List.mem_filter,
      List.mem_filter] at hname
    rcases hname with ⟨-, hkept⟩ | ⟨hnew, -⟩
    · simp [hremoved] at hkept
    · exact hapart e.1 hremoved hnew
  have herase : ((old.eraseAll removed).insertAll new).eraseAll removed =
      (old.eraseAll removed).insertAll new := by
    refine ext ?_
    rw [entries_eraseAll _ removed]
    exact List.filter_eq_self.mpr fun e he ↦ by simpa using hgone e he
  rw [herase]
  refine putAll_of_get? fun e he ↦ ?_
  rw [get?_insertAll, get?_of_mem he, Option.some_or]

-- What is dropped and put back in loses its place to what is put in with it.
example : ((ofList [("a", 1)]).eraseAll ["a"]).insertAll (ofList [("a", 1), ("b", 2)]) =
      ofList [("a", 1), ("b", 2)] ∧
    ((ofList [("a", 1), ("b", 2)]).eraseAll ["a"]).insertAll (ofList [("a", 1), ("b", 2)]) =
      ofList [("b", 2), ("a", 1)] := by
  decide

end Assoc

/-! ## Patches -/

namespace EntityPatch

theorem eq_empty_of_isEmpty {p : EntityPatch} (h : p.isEmpty = true) : p = {} := by
  obtain ⟨fields, removeFields, relations, removeRelations, behaviors, protection, source, table⟩ :=
    p
  have hparts : ((fields.entries == []) && ((removeFields == []) && ((relations.entries == []) &&
      ((removeRelations == []) && ((behaviors == {}) && ((protection == none) &&
        ((source == none) && (table == none)))))))) = true := h
  simp only [Bool.and_eq_true, beq_iff_eq, List.beq_nil_eq, List.isEmpty_iff, Option.beq_none,
    Option.isNone_iff_eq_none] at hparts
  obtain ⟨hfields, rfl, hrelations, rfl, rfl, rfl, rfl, rfl⟩ := hparts
  have hnothing {α : Type} {m : Assoc α} (h : m.entries = []) : m = {} := Assoc.ext h
  rw [hnothing hfields, hnothing hrelations]

end EntityPatch

/-! ## Patched entities -/

theorem Behaviors.orElse_orElse (b fallback : Behaviors) :
    b.orElse (b.orElse fallback) = b.orElse fallback := by
  simp [Behaviors.orElse, ← Option.or_assoc]

namespace Entity

theorem patched_empty (e : Entity) : e.patched {} = e := by
  simp [patched, Assoc.eraseAll, Assoc.insertAll, Assoc.putAll, Behaviors.orElse]

theorem patched_twice {p : EntityPatch}
    (hfields : ∀ name ∈ p.removeFields, name ∉ Assoc.keys p.fields)
    (hrelations : ∀ name ∈ p.removeRelations, name ∉ Assoc.keys p.relations) (e : Entity) :
    (e.patched p).patched p = e.patched p := by
  simp only [patched, Assoc.insertAll_twice hfields, Assoc.insertAll_twice hrelations,
    Behaviors.orElse_orElse, Option.orElse_eq_orElse, Option.orElse_eq_or, ← Option.or_assoc,
    Option.or_self]

/-- A patched entity is the entity with the patch merged in, name by name and switch by switch. -/
theorem patched_merges (e : Entity) (p : EntityPatch) :
    (e.patched p).name = e.name ∧
      Assoc.Merges e.fields p.removeFields p.fields (e.patched p).fields ∧
      Assoc.Merges e.relations p.removeRelations p.relations (e.patched p).relations ∧
      (e.patched p).behaviors.timestamps = p.behaviors.timestamps.or e.behaviors.timestamps ∧
      (e.patched p).behaviors.softDelete = p.behaviors.softDelete.or e.behaviors.softDelete ∧
      (e.patched p).behaviors.audit = p.behaviors.audit.or e.behaviors.audit ∧
      (e.patched p).protection = p.protection.or e.protection ∧
      (e.patched p).source = p.source.or e.source ∧
      (e.patched p).table = p.table.or e.table ∧
      (p.isEmpty = true → e.patched p = e) ∧
      ((∀ name ∈ p.removeFields, name ∉ Assoc.keys p.fields) →
        (∀ name ∈ p.removeRelations, name ∉ Assoc.keys p.relations) →
          (e.patched p).patched p = e.patched p) := by
  have hor {α : Type} (x y : Option α) : (x <|> y) = x.or y := Option.orElse_eq_or
  refine ⟨rfl, Assoc.merges_insertAll p.fields e.fields p.removeFields,
    Assoc.merges_insertAll p.relations e.relations p.removeRelations, hor _ _, hor _ _, hor _ _,
    hor _ _, hor _ _, hor _ _, fun hempty ↦ ?_, fun hfields hrelations ↦ ?_⟩
  · rw [EntityPatch.eq_empty_of_isEmpty hempty, patched_empty]
  · exact patched_twice hfields hrelations e

def journalEntry : Entity where
  name := "Entry"
  fields := .ofList [("title", { kind := .text }), ("body", { kind := .text }),
    ("mood", { kind := .text })]

def journalPatch : String :=
  "\x7b\"removeFields\": [\"body\", \"gone\", \"body\"], \"fields\": \x7b" ++
    "\"slug\": \x7b\"type\": \"text\"\x7d, \"title\": \x7b\"type\": \"number\"\x7d\x7d\x7d"

theorem patched_merges_journalEntry : ∃ p, EntityPatch.ofJson journalPatch = .ok p ∧
    Assoc.keys (journalEntry.patched p).fields = ["title", "mood", "slug"] ∧
    (journalEntry.patched p).patched p = journalEntry.patched p := by
  have hread : (EntityPatch.ofJson journalPatch).toOption.any (fun p ↦
      p.removeFields == ["body", "gone", "body"] && Assoc.keys p.fields == ["slug", "title"] &&
        p.removeRelations == []) = true := by
    decide +kernel
  obtain ⟨p, hp, htest⟩ := exists_ok_of_any hread
  simp only [Bool.and_eq_true, beq_iff_eq] at htest
  obtain ⟨⟨hremoved, hnew⟩, hrelations⟩ := htest
  obtain ⟨-, hfields, -, -, -, -, -, -, -, -, htwice⟩ :=
    patched_merges journalEntry p
  refine ⟨p, hp, ?_, htwice (by simp [hremoved, hnew]) (by simp [hrelations])⟩
  rw [hfields.names, hremoved, hnew]
  decide

end Entity

end Scaffold

import Mathlib.Data.List.Induction
import Mathlib.Data.List.Nodup
import Scaffold.Sql.Schema

/-!
# The columns of junction tables

Relations that share a junction table each describe it.  The first description gives its keys, and
all of them give their attributes, the first of a name being kept.  So what the table looks like
under a name follows from the descriptions of that name alone, and its columns can be told apart
by looking at those.
-/

namespace Scaffold

open Sql

/-! ## Collecting attributes -/

namespace Junction

theorem addAttribute_of_mem {attributes : List Attribute} {a b : Attribute} (hb : b ∈ attributes)
    (hname : b.name = a.name) : addAttribute attributes a = attributes := by
  have hany : attributes.any (·.name == a.name) = true :=
    List.any_eq_true.mpr ⟨b, hb, by simp [hname]⟩
  simp [addAttribute, hany]

/-- Attributes of which each has its name in the list already add nothing. -/
theorem foldl_addAttribute_eq_self {attributes : List Attribute} {xs : List Attribute}
    (h : ∀ x ∈ xs, ∃ b ∈ attributes, b.name = x.name) :
    xs.foldl addAttribute attributes = attributes := by
  induction xs with
  | nil => rfl
  | cons x xs ih =>
      obtain ⟨b, hb, hname⟩ := h x List.mem_cons_self
      rw [List.foldl_cons, addAttribute_of_mem hb hname]
      exact ih fun y hy ↦ h y (List.mem_cons_of_mem x hy)

/-- What is added comes behind what is there, under names that are new and distinct, and no name is
lost. -/
theorem foldl_addAttribute_spec (attributes xs : List Attribute) :
    ∃ added, xs.foldl addAttribute attributes = attributes ++ added ∧
      (∀ a ∈ added, a ∈ xs) ∧ (added.map Attribute.name).Nodup ∧
        (∀ b ∈ attributes, ∀ a ∈ added, b.name ≠ a.name) ∧
          ∀ x ∈ xs, ∃ a ∈ attributes ++ added, a.name = x.name := by
  induction xs generalizing attributes with
  | nil => exact ⟨[], by simp⟩
  | cons x xs ih =>
      by_cases hany : attributes.any (·.name == x.name) = true
      · obtain ⟨b, hb, hname⟩ := List.any_eq_true.mp hany
        obtain ⟨added, heq, hmem, hnodup, hapart, hnames⟩ := ih attributes
        refine ⟨added, ?_, fun a ha ↦ List.mem_cons_of_mem x (hmem a ha), hnodup, hapart, ?_⟩
        · rw [List.foldl_cons, addAttribute_of_mem hb (by simpa using hname), heq]
        · intro y hy
          rcases List.mem_cons.mp hy with rfl | hy
          · exact ⟨b, List.mem_append_left _ hb, by simpa using hname⟩
          · exact hnames y hy
      · obtain ⟨added, heq, hmem, hnodup, hapart, hnames⟩ := ih (attributes ++ [x])
        have hx : ∀ a ∈ added, x.name ≠ a.name := hapart x (by simp)
        refine ⟨x :: added, ?_, ?_, ?_, ?_, ?_⟩
        · rw [List.foldl_cons, addAttribute, if_neg hany, heq]
          simp
        · intro a ha
          rcases List.mem_cons.mp ha with rfl | ha
          · exact List.mem_cons_self
          · exact List.mem_cons_of_mem x (hmem a ha)
        · rw [List.map_cons, List.nodup_cons]
          refine ⟨?_, hnodup⟩
          intro hin
          obtain ⟨a, ha, hname⟩ := List.mem_map.mp hin
          exact hx a ha hname.symm
        · intro b hb a ha
          rcases List.mem_cons.mp ha with rfl | ha
          · intro hname
            exact hany (List.any_eq_true.mpr ⟨b, hb, by simp [hname]⟩)
          · exact hapart b (List.mem_append_left _ hb) a ha
        · intro y hy
          rcases List.mem_cons.mp hy with rfl | hy
          · exact ⟨y, by simp, rfl⟩
          · simpa using hnames y hy

/-! ## Merging descriptions -/

@[simp] theorem name_addAttributes (j : Junction) (xs : List Attribute) :
    (j.addAttributes xs).name = j.name := rfl

theorem addAttributes_append (j : Junction) (xs ys : List Attribute) :
    j.addAttributes (xs ++ ys) = (j.addAttributes xs).addAttributes ys := by
  simp [addAttributes]

theorem addAttributes_self (j : Junction) : j.addAttributes j.attributes = j := by
  have hself : j.attributes.foldl addAttribute j.attributes = j.attributes :=
    foldl_addAttribute_eq_self fun x hx ↦ ⟨x, hx, rfl⟩
  simp [addAttributes, hself]

theorem names_merge (junctions : List Junction) (j : Junction) :
    (merge junctions j).map Junction.name =
      if j.name ∈ junctions.map Junction.name then junctions.map Junction.name
      else junctions.map Junction.name ++ [j.name] := by
  induction junctions with
  | nil => simp [merge]
  | cons k rest ih =>
      by_cases hk : k.name = j.name
      · simp [merge, hk]
      · by_cases hrest : j.name ∈ rest.map Junction.name <;>
          simp_all [merge, eq_comm]

theorem names_foldl_merge_nodup (described junctions : List Junction)
    (h : (junctions.map Junction.name).Nodup) :
    ((described.foldl merge junctions).map Junction.name).Nodup := by
  induction described generalizing junctions with
  | nil => exact h
  | cons j described ih =>
      apply ih
      rw [names_merge]
      split
      · exact h
      · rename_i hnew
        exact List.nodup_append.mpr ⟨h, by simp, by grind⟩

def named? (junctions : List Junction) (name : String) : Option Junction :=
  junctions.find? (·.name == name)

theorem named?_merge (junctions : List Junction) (j : Junction) (name : String) :
    named? (merge junctions j) name =
      if j.name = name then
        some (((named? junctions name).map (·.addAttributes j.attributes)).getD j)
      else named? junctions name := by
  induction junctions with
  | nil => by_cases hj : j.name = name <;> simp [merge, named?, hj]
  | cons k rest ih =>
      by_cases hk : k.name = j.name <;> by_cases hj : j.name = name <;>
        simp_all [merge, named?, List.find?_cons]

def attributesNamed (described : List Junction) (name : String) : List Attribute :=
  (described.filter (·.name == name)).flatMap Junction.attributes

theorem mem_attributesNamed {described : List Junction} {name : String} {a : Attribute} :
    a ∈ attributesNamed described name ↔ ∃ d ∈ described, d.name = name ∧ a ∈ d.attributes := by
  simp [attributesNamed, and_assoc]

/-- The junction table of a name is its first description with the attributes of all. -/
theorem named?_foldl_merge (described : List Junction) (name : String) :
    named? (described.foldl merge []) name =
      (named? described name).map (·.addAttributes (attributesNamed described name)) := by
  -- The last description is merged last, so the induction is from the end of the list.
  induction described using List.reverseRecOn with
  | nil => rfl
  | append_singleton described j ih =>
      rw [List.foldl_append, List.foldl_cons, List.foldl_nil, named?_merge, ih]
      by_cases hj : j.name = name
      · cases hfirst : named? described name with
        | none =>
            have hnone : described.filter (·.name == name) = [] := by
              simpa [named?] using hfirst
            have hfound : named? (described ++ [j]) name = some j := by
              rw [named?, List.find?_append, ← named?, hfirst]
              simp [hj]
            simp [hfound, hj, attributesNamed, hnone, addAttributes_self]
        | some d =>
            have hfound : named? (described ++ [j]) name = some d := by
              rw [named?, List.find?_append, ← named?, hfirst]
              rfl
            simp [hfound, hj, attributesNamed, addAttributes_append]
      · have hfound : named? (described ++ [j]) name = named? described name := by
          simp [named?, hj]
        simp [hfound, hj, attributesNamed]

theorem named?_eq_some_of_mem {junctions : List Junction}
    (h : (junctions.map Junction.name).Nodup) {j : Junction} (hj : j ∈ junctions) :
    named? junctions j.name = some j := by
  induction junctions with
  | nil => simp at hj
  | cons k rest ih =>
      rw [List.map_cons, List.nodup_cons] at h
      rcases List.mem_cons.mp hj with rfl | hj
      · simp [named?]
      · have hne : k.name ≠ j.name := fun heq ↦ h.1 (List.mem_map.mpr ⟨j, hj, heq.symm⟩)
        simpa [named?, hne] using ih h.2 hj

def descriptions (entities : List Entity) : List Junction := entities.flatMap ofEntity

theorem names_ofEntities_nodup (entities : List Entity) :
    ((ofEntities entities).map Junction.name).Nodup :=
  names_foldl_merge_nodup _ [] List.nodup_nil

/-- A junction table is the first description of its name with the attributes of all. -/
theorem mem_ofEntities_iff {entities : List Entity} {j : Junction} :
    j ∈ ofEntities entities ↔
      ∃ d, named? (descriptions entities) d.name = some d ∧
        j = d.addAttributes (attributesNamed (descriptions entities) d.name) := by
  have hlookup := named?_foldl_merge (descriptions entities)
  constructor
  · intro hj
    have hnamed := named?_eq_some_of_mem (names_ofEntities_nodup entities) hj
    rw [ofEntities, ← descriptions, hlookup] at hnamed
    obtain ⟨d, hd, heq⟩ := Option.map_eq_some_iff.mp hnamed
    have hname : d.name = j.name := by simpa using congrArg Junction.name heq
    exact ⟨d, hname ▸ hd, hname ▸ heq.symm⟩
  · rintro ⟨d, hd, rfl⟩
    have hfound := hlookup d.name
    rw [hd, Option.map_some] at hfound
    exact List.mem_of_find?_eq_some hfound

/-! ## What it takes for the columns to be distinct -/

theorem column_of_mem_descriptions {entities : List Entity} {d : Junction}
    (hd : d ∈ descriptions entities) {a : Attribute} (ha : a ∈ d.attributes) :
    a.column = columnOf a.name := by
  obtain ⟨e, -, he⟩ := List.mem_flatMap.mp hd
  obtain ⟨r, -, hr⟩ := List.mem_filterMap.mp he
  split at hr
  · cases hr
    obtain ⟨f, -, rfl⟩ := List.mem_map.mp ha
    rfl
  · simp at hr

/-- The columns that a junction table will have are distinct, as far as its descriptions tell; `d`
is the first of them.  No attribute is on a key, and attributes of different names are on different
columns, whichever relations bring them. -/
structure Apart (described : List Junction) (d : Junction) : Prop where
  keys : d.leftColumn ≠ d.rightColumn
  own : (d.attributes.map Attribute.column).Nodup
  onKey : ∀ a ∈ attributesNamed described d.name,
    a.column ≠ d.leftColumn ∧ a.column ≠ d.rightColumn
  named : ∀ a ∈ attributesNamed described d.name, ∀ b ∈ attributesNamed described d.name,
    a.name ≠ b.name → a.column ≠ b.column

def columns (j : Junction) : List String :=
  j.leftColumn :: j.rightColumn :: j.attributes.map Attribute.column

theorem column_of_mem_attributesNamed {entities : List Entity} {name : String} {a : Attribute}
    (ha : a ∈ attributesNamed (descriptions entities) name) : a.column = columnOf a.name := by
  obtain ⟨d, hd, -, had⟩ := mem_attributesNamed.mp ha
  exact column_of_mem_descriptions hd had

section

variable {entities : List Entity} {d : Junction}
  (hfirst : named? (descriptions entities) d.name = some d)

include hfirst

/-- The attributes of the table: those of the first description, and behind them some of the
others under names of their own, so that every declared name is there. -/
theorem attributes_addAttributes_spec :
    ∃ added,
      (d.addAttributes (attributesNamed (descriptions entities) d.name)).attributes =
          d.attributes ++ added ∧
        (∀ a ∈ d.attributes ++ added, a ∈ attributesNamed (descriptions entities) d.name) ∧
          (added.map Attribute.name).Nodup ∧
            (∀ a ∈ d.attributes, ∀ b ∈ added, a.name ≠ b.name) ∧
              ∀ x ∈ attributesNamed (descriptions entities) d.name,
                ∃ a ∈ d.attributes ++ added, a.name = x.name := by
  obtain ⟨added, heq, hadded, hnodup, hapart, hnames⟩ :=
    foldl_addAttribute_spec d.attributes (attributesNamed (descriptions entities) d.name)
  refine ⟨added, heq, ?_, hnodup, hapart, hnames⟩
  intro a ha
  rcases List.mem_append.mp ha with ha | ha
  · exact mem_attributesNamed.mpr ⟨d, List.mem_of_find?_eq_some hfirst, rfl, ha⟩
  · exact hadded a ha

/-- Everything that is declared for the table has its column there, and nothing else has. -/
theorem mem_columns_addAttributes {column : String} :
    column ∈ (d.addAttributes (attributesNamed (descriptions entities) d.name)).attributes.map
        Attribute.column ↔
      ∃ a ∈ attributesNamed (descriptions entities) d.name, a.column = column := by
  obtain ⟨added, heq, hmem, -, -, hnames⟩ := attributes_addAttributes_spec hfirst
  rw [heq, List.mem_map]
  constructor
  · rintro ⟨a, ha, rfl⟩
    exact ⟨a, hmem a ha, rfl⟩
  · rintro ⟨a, ha, rfl⟩
    obtain ⟨b, hb, hname⟩ := hnames a ha
    refine ⟨b, hb, ?_⟩
    rw [column_of_mem_attributesNamed (hmem b hb), column_of_mem_attributesNamed ha, hname]

/-- The columns of a junction table are distinct exactly if those of each description are, and
fields of different names have different columns. -/
theorem attributeColumns_nodup_iff :
    ((d.addAttributes (attributesNamed (descriptions entities) d.name)).attributes.map
        Attribute.column).Nodup ↔
      (d.attributes.map Attribute.column).Nodup ∧
        ∀ a ∈ attributesNamed (descriptions entities) d.name,
          ∀ b ∈ attributesNamed (descriptions entities) d.name,
            a.name ≠ b.name → a.column ≠ b.column := by
  obtain ⟨added, heq, hmem, hnodup, hapart, hnames⟩ := attributes_addAttributes_spec hfirst
  rw [heq]
  constructor
  · intro hcolumns
    refine ⟨(hcolumns.sublist ((List.sublist_append_left _ _).map _)), ?_⟩
    intro a ha b hb hne hcolumn
    -- Both names are in the table, and two attributes on one column are one.
    obtain ⟨a', ha', haName⟩ := hnames a ha
    obtain ⟨b', hb', hbName⟩ := hnames b hb
    have hsame : a'.column = b'.column := by
      rw [column_of_mem_attributesNamed (hmem a' ha'), haName,
        ← column_of_mem_attributesNamed ha, hcolumn, column_of_mem_attributesNamed hb, ← hbName,
        ← column_of_mem_attributesNamed (hmem b' hb')]
    have hone : a' = b' := List.inj_on_of_nodup_map hcolumns ha' hb' hsame
    exact hne (by rw [← haName, hone, hbName])
  · rintro ⟨hown, hdistinct⟩
    rw [List.map_append, List.nodup_append]
    refine ⟨hown, ?_, ?_⟩
    · rw [List.Nodup, List.pairwise_map] at hnodup ⊢
      refine hnodup.imp_of_mem ?_
      intro a b ha hb hne
      exact hdistinct a (hmem a (List.mem_append_right _ ha)) b
        (hmem b (List.mem_append_right _ hb)) hne
    · simp only [List.mem_map]
      rintro _ ⟨a, ha, rfl⟩ _ ⟨b, hb, rfl⟩
      exact hdistinct a (hmem a (List.mem_append_left _ ha)) b
        (hmem b (List.mem_append_right _ hb)) (hapart a ha b hb)

/-- The columns of a junction table are distinct exactly if its descriptions say so. -/
theorem columns_nodup_iff_apart :
    (columns (d.addAttributes (attributesNamed (descriptions entities) d.name))).Nodup ↔
      Apart (descriptions entities) d := by
  have hkeys : ∀ column, (∃ a ∈ attributesNamed (descriptions entities) d.name,
      a.column = column) ↔ column ∈ (d.addAttributes
        (attributesNamed (descriptions entities) d.name)).attributes.map Attribute.column :=
    fun _ ↦ (mem_columns_addAttributes hfirst).symm
  rw [columns, List.nodup_cons, List.nodup_cons, List.mem_cons, ← hkeys, ← hkeys,
    attributeColumns_nodup_iff hfirst]
  constructor
  · rintro ⟨hleft, hright, hown, hnamed⟩
    push Not at hleft
    refine ⟨hleft.1, hown, fun a ha ↦ ⟨hleft.2 a ha, ?_⟩, hnamed⟩
    exact fun hcolumn ↦ hright ⟨a, ha, hcolumn⟩
  · rintro ⟨hne, hown, honKey, hnamed⟩
    refine ⟨?_, ?_, hown, hnamed⟩
    · rintro (heq | ⟨a, ha, hcolumn⟩)
      · exact hne heq
      · exact (honKey a ha).1 hcolumn
    · rintro ⟨a, ha, hcolumn⟩
      exact (honKey a ha).2 hcolumn

end

end Junction

theorem names_junctionTable (dialect : DatabaseKind) (b : Blueprint) (j : Junction) :
    (junctionTable dialect b j).columns.map Column.name = j.columns := by
  simp [junctionTable, junctionKey, Junction.columns, attributeColumn]

end Scaffold

import Mathlib.Data.Sym.Sym2
import Scaffold.Pattern.Program
import Scaffold.Proofs.Repeats
import Scaffold.Proofs.Schema.JunctionColumns
import Scaffold.Diagnosis.Validate

/-!
# Links and their junction tables

A link with many on both sides names the junction table that it goes through, and the two columns of
that table that are its keys.  There always is exactly one table of that name.  But the table is
made as the first relation of that name describes it, and no lint compares the others with the
first.  So the table is the one that a link means exactly if the first relation agrees with the
relation of the link on both entities and on both columns.
-/

namespace Scaffold

/-! ## What tables connect -/

namespace Junction

def ends (j : Junction) : Sym2 String := s(j.leftEntity, j.rightEntity)

def keys (j : Junction) : Sym2 String := s(j.leftColumn, j.rightColumn)

/-- Whether a junction table connects an entity with the target of one of its links, and has the two
keys of the link for its keys. -/
structure Serves (j : Junction) (owner : String) (l : Link) : Prop where
  ends : j.ends = s(owner, l.target)
  keys : j.keys.map some = s(l.localKey, some l.foreignKey)

end Junction

/-! ## What relations describe -/

namespace Lint.OwnedRelation

def link (r : OwnedRelation) : Link := .ofRelation r.owner r.name r.relation

/-- The junction table that a relation goes through, if it has many on both sides. -/
def junction (r : OwnedRelation) : String := r.relation.junctionName r.owner

def ends (r : OwnedRelation) : Sym2 String := s(r.owner, r.relation.entity)

/-- The two columns that a relation with many on both sides has for its keys. -/
def keys (r : OwnedRelation) : Sym2 String :=
  s(keyOf r.owner, r.relation.foreignKey r.owner r.name)

/-- Whether two relations mean the same junction table by its name. -/
def Agrees (r r' : OwnedRelation) : Prop := r.ends = r'.ends ∧ r.keys = r'.keys

instance (r r' : OwnedRelation) : Decidable (r.Agrees r') := inferInstanceAs (Decidable (_ ∧ _))

def described (r : OwnedRelation) : Junction := .ofRelation r.owner r.name r.relation.normalize

theorem junctionName_normalize (r : Relation) (owner : String) :
    r.normalize.junctionName owner = r.junctionName owner := by
  rcases r with ⟨kind, entity, field, - | pivot, external⟩ <;> rfl

theorem link_normalize (owner name : String) (r : Relation) :
    Link.ofRelation owner name r.normalize = Link.ofRelation owner name r := by
  rw [Link.ofRelation, junctionName_normalize]
  rfl

theorem name_described (r : OwnedRelation) : r.described.name = r.junction :=
  junctionName_normalize r.relation r.owner

theorem junction_link {r : OwnedRelation} (h : r.relation.kind = .belongsToMany) :
    r.link.junction = some r.junction := by
  simp [link, Link.ofRelation, h, junction]

theorem localKey_link {r : OwnedRelation} (h : r.relation.kind = .belongsToMany) :
    r.link.localKey = some (keyOf r.owner) := by
  simp [link, Link.ofRelation, h]

/-- The table that the first relation describes serves another one if the two agree.  More
attributes change nothing about that. -/
theorem serves_iff_agrees {first r : OwnedRelation} (h : r.relation.kind = .belongsToMany)
    (more : List Attribute) :
    (first.described.addAttributes more).Serves r.owner r.link ↔ first.Agrees r := by
  have hkeys : (first.described.addAttributes more).keys.map some =
      s(r.link.localKey, some r.link.foreignKey) ↔ first.keys = r.keys := by
    rw [localKey_link h]
    exact (Sym2.map.injective (Option.some_injective String)).eq_iff (b := r.keys)
  exact ⟨fun hserves ↦ ⟨hserves.ends, hkeys.mp hserves.keys⟩,
    fun hagrees ↦ ⟨hagrees.1, hkeys.mpr hagrees.2⟩⟩

end Lint.OwnedRelation

open Lint (OwnedRelation)

namespace Manifest

def manyToMany (m : Manifest) : List OwnedRelation :=
  (Lint.ownedRelations m).filter (·.relation.kind == .belongsToMany)

def firstThrough? (m : Manifest) (r : OwnedRelation) : Option OwnedRelation :=
  m.manyToMany.find? (·.junction == r.junction)

variable {m : Manifest} {r : OwnedRelation}

theorem mem_manyToMany : r ∈ m.manyToMany ↔
    r ∈ Lint.ownedRelations m ∧ r.relation.kind = .belongsToMany := by
  simp [manyToMany]

theorem ofEntity_normalize (defaults : Option Defaults) (source : Option Source) (e : Entity) :
    Junction.ofEntity (e.normalize defaults source) =
      ((e.relations.entries.map fun r ↦ OwnedRelation.mk e.name r.1 r.2).filter
        (·.relation.kind == .belongsToMany)).map OwnedRelation.described := by
  simp only [Junction.ofEntity, Entity.normalize, Assoc.entries_mapValues]
  induction e.relations.entries with
  | nil => rfl
  | cons r rest ih =>
      by_cases hkind : r.2.kind = .belongsToMany
      · simpa [Relation.normalize, hkind, OwnedRelation.described] using ih
      · simpa [Relation.normalize, hkind] using ih

/-- Junction tables are described by the relations with many on both sides, one after the other. -/
theorem descriptions_normalize (m : Manifest) :
    Junction.descriptions m.normalize.entities = m.manyToMany.map OwnedRelation.described := by
  rw [Junction.descriptions, normalize, manyToMany, Lint.ownedRelations, List.flatMap_map,
    List.filter_flatMap, List.map_flatMap]
  exact List.flatMap_congr fun e _ ↦ ofEntity_normalize m.defaults m.source e

theorem named?_descriptions (m : Manifest) (r : OwnedRelation) :
    Junction.named? (Junction.descriptions m.normalize.entities) r.junction =
      (m.firstThrough? r).map OwnedRelation.described := by
  rw [descriptions_normalize, Junction.named?, List.find?_map, firstThrough?]
  have htest : ((fun j : Junction ↦ j.name == r.junction) ∘ OwnedRelation.described) =
      fun r' ↦ r'.junction == r.junction :=
    funext fun r' ↦ by rw [Function.comp_apply, OwnedRelation.name_described]
  rw [htest]

theorem exists_firstThrough (hr : r ∈ m.manyToMany) :
    ∃ first ∈ m.manyToMany, m.firstThrough? r = some first ∧ first.junction = r.junction := by
  have hsome : (m.firstThrough? r).isSome = true :=
    List.find?_isSome.mpr ⟨r, hr, by simp⟩
  obtain ⟨first, hfirst⟩ := Option.isSome_iff_exists.mp hsome
  exact ⟨first, List.mem_of_find?_eq_some hfirst, hfirst, by simpa using List.find?_some hfirst⟩

theorem firstThrough?_congr {r' : OwnedRelation} (h : r.junction = r'.junction) :
    m.firstThrough? r = m.firstThrough? r' := by
  rw [firstThrough?, h, ← firstThrough?]

/-- The only table of the name that a relation gives is the one that the first relation through it
describes, with the attributes of all. -/
theorem filter_junctions_eq (hr : r ∈ m.manyToMany) {first : OwnedRelation}
    (hfirst : m.firstThrough? r = some first) :
    ∃ more, ((Blueprint.ofManifest m).junctions.filter fun j ↦ some j.name == r.link.junction) =
      [first.described.addAttributes more] := by
  set described := Junction.descriptions m.normalize.entities with hdescribed
  have hnamed : Junction.named? described r.junction = some first.described := by
    rw [hdescribed, named?_descriptions, hfirst, Option.map_some]
  have hname : first.described.name = r.junction := by
    simpa using List.find?_some hnamed
  have hmem : first.described.addAttributes (Junction.attributesNamed described r.junction) ∈
      Junction.ofEntities m.normalize.entities := by
    refine Junction.mem_ofEntities_iff.mpr ⟨first.described, ?_, ?_⟩
    · rw [hname, ← hdescribed, hnamed]
    · rw [hname]
  refine ⟨_, (Eq.trans ?_ (filter_key_eq_singleton (Junction.names_ofEntities_nodup _) hmem))⟩
  rw [OwnedRelation.junction_link (mem_manyToMany.mp hr).2]
  simp only [Option.some_beq_some, Junction.name_addAttributes, hname]
  rfl

/-- The links of records are those of the relations. -/
theorem exists_record_iff {owner : String} {l : Link} :
    (∃ record ∈ (Blueprint.ofManifest m).records, record.name = owner ∧ l ∈ record.links) ↔
      ∃ r ∈ Lint.ownedRelations m, r.owner = owner ∧ r.link = l := by
  constructor
  · rintro ⟨record, hrecord, rfl, hl⟩
    obtain ⟨n, hn, rfl⟩ := List.mem_map.mp hrecord
    obtain ⟨e, he, rfl⟩ := List.mem_map.mp hn
    obtain ⟨p, hp, rfl⟩ := List.mem_map.mp hl
    obtain ⟨⟨name, relation⟩, hrelation, rfl⟩ := List.mem_map.mp hp
    refine ⟨⟨e.name, name, relation⟩, ?_, rfl, (OwnedRelation.link_normalize _ _ _).symm⟩
    exact List.mem_flatMap.mpr ⟨e, he, List.mem_map.mpr ⟨_, hrelation, rfl⟩⟩
  · rintro ⟨r, hr, rfl, rfl⟩
    obtain ⟨e, he, hr⟩ := List.mem_flatMap.mp hr
    obtain ⟨⟨name, relation⟩, hrelation, rfl⟩ := List.mem_map.mp hr
    refine ⟨Record.ofEntity (e.normalize m.defaults m.source), ?_, rfl, ?_⟩
    · exact List.mem_map_of_mem (List.mem_map_of_mem he)
    · rw [OwnedRelation.link, ← OwnedRelation.link_normalize]
      exact List.mem_map.mpr ⟨(name, relation.normalize), List.mem_map.mpr ⟨_, hrelation, rfl⟩, rfl⟩

/-- Whether all relations that share a junction table agree on what it is. -/
def JunctionsAgree (m : Manifest) : Prop :=
  ∀ r ∈ m.manyToMany, ∀ r' ∈ m.manyToMany, r.junction = r'.junction → r.Agrees r'

instance (m : Manifest) : Decidable m.JunctionsAgree :=
  inferInstanceAs (Decidable (∀ r ∈ _, ∀ r' ∈ _, _ → _))

/-- Everything agrees with the first relation through its table exactly if all that share a table
agree with each other. -/
theorem agrees_first_iff : (∀ r ∈ m.manyToMany, ∀ first, m.firstThrough? r = some first →
    first.Agrees r) ↔ m.JunctionsAgree := by
  constructor
  · intro h r hr r' hr' hjunction
    obtain ⟨first, -, hfirst, -⟩ := exists_firstThrough hr
    obtain ⟨hends, hkeys⟩ := h r hr first hfirst
    obtain ⟨hends', hkeys'⟩ := h r' hr' first (firstThrough?_congr hjunction ▸ hfirst)
    exact ⟨hends.symm.trans hends', hkeys.symm.trans hkeys'⟩
  · intro h r hr first hfirst
    obtain ⟨first', hmem, hfirst', hjunction⟩ := exists_firstThrough hr
    rw [hfirst, Option.some_inj] at hfirst'
    subst hfirst'
    exact h first hmem r hr hjunction

end Manifest

/-- Whether every link with many on both sides finds exactly one junction table of the name that it
gives, and this table connects the ends of the link by the keys of the link. -/
def Blueprint.LinksServed (b : Blueprint) : Prop :=
  ∀ record ∈ b.records, ∀ l ∈ record.links, l.kind = .belongsToMany →
    ∃ j, (b.junctions.filter fun j ↦ some j.name == l.junction) = [j] ∧ j.Serves record.name l

namespace Manifest

variable {m : Manifest} {r : OwnedRelation}

theorem exists_table (hr : r ∈ m.manyToMany) : ∃ first j, m.firstThrough? r = some first ∧
    ((Blueprint.ofManifest m).junctions.filter fun j ↦ some j.name == r.link.junction) = [j] ∧
      (j.Serves r.owner r.link ↔ first.Agrees r) := by
  obtain ⟨first, -, hfirst, -⟩ := exists_firstThrough hr
  obtain ⟨more, htable⟩ := filter_junctions_eq hr hfirst
  exact ⟨first, _, hfirst, htable, OwnedRelation.serves_iff_agrees (mem_manyToMany.mp hr).2 more⟩

/-- All links are served exactly if relations that share a junction table agree on it. -/
theorem linksServed_iff (m : Manifest) :
    (Blueprint.ofManifest m).LinksServed ↔ m.JunctionsAgree := by
  rw [← agrees_first_iff]
  constructor
  · intro h r hr first hfirst
    obtain ⟨hmem, hkind⟩ := mem_manyToMany.mp hr
    obtain ⟨record, hrecord, hname, hlink⟩ := exists_record_iff.mpr ⟨r, hmem, rfl, rfl⟩
    obtain ⟨j, hj, hright⟩ := h record hrecord r.link hlink hkind
    obtain ⟨first', j', hfirst', hj', hserves⟩ := exists_table hr
    rw [hj', List.singleton_inj] at hj
    rw [hfirst, Option.some_inj] at hfirst'
    rw [hfirst', ← hserves, hj, ← hname]
    exact hright
  · intro h record hrecord l hl hkind
    obtain ⟨r, hmem, hname, rfl⟩ := exists_record_iff.mp ⟨record, hrecord, rfl, hl⟩
    have hr : r ∈ m.manyToMany := mem_manyToMany.mpr ⟨hmem, hkind⟩
    obtain ⟨first, j, hfirst, hj, hserves⟩ := exists_table hr
    exact ⟨j, hj, hname ▸ hserves.mpr (h r hr first hfirst)⟩

/-- The link of every relation with many on both sides finds exactly one junction table of the name
that it gives.  This table connects the two ends of the link by the two keys of the link exactly if
the first relation through the table agrees with the relation.  So all links of a blueprint are
served exactly if the relations that share a table agree. -/
theorem junctions_serve_links_iff (m : Manifest) :
    (∀ r ∈ m.manyToMany,
      ∃ record ∈ (Blueprint.ofManifest m).records, record.name = r.owner ∧ r.link ∈ record.links ∧
      ∃ j, ((Blueprint.ofManifest m).junctions.filter fun j ↦ some j.name == r.link.junction) =
          [j] ∧
        ∃ first, m.firstThrough? r = some first ∧ (j.Serves r.owner r.link ↔ first.Agrees r)) ∧
    ((Blueprint.ofManifest m).LinksServed ↔ m.JunctionsAgree) := by
  refine ⟨fun r hr ↦ ?_, m.linksServed_iff⟩
  obtain ⟨record, hrecord, hname, hlink⟩ :=
    exists_record_iff.mpr ⟨r, (mem_manyToMany.mp hr).1, rfl, rfl⟩
  obtain ⟨first, j, hfirst, hj, hserves⟩ := exists_table hr
  exact ⟨record, hrecord, hname, hlink, j, hj, first, hfirst, hserves⟩

end Manifest

def entityWith (name : String) (relations : List (String × Relation)) : Entity :=
  { name, fields := .ofList [("title", { kind := .text })], relations := .ofList relations }

/-- Posts that give the column of their tags a name of its own, of which the tags know nothing. -/
def renamedKey : Manifest where
  database := some (.sqlite "app.db")
  entities :=
    [entityWith "Post" [("tags", { kind := .belongsToMany, entity := "Tag", field := "label_id" })],
      entityWith "Tag" [("posts", { kind := .belongsToMany, entity := "Post" })]]

/-- Two pairs of entities whose names make up the same name of a table. -/
def sameTable : Manifest where
  database := some (.sqlite "app.db")
  entities :=
    [entityWith "Ant" [("beeCats", { kind := .belongsToMany, entity := "BeeCat" })],
      entityWith "BeeCat" [],
      entityWith "AntBee" [("cats", { kind := .belongsToMany, entity := "Cat" })],
      entityWith "Cat" []]

/-- In a valid manifest a link may be left with a table that has other keys, or with one that
connects other entities. -/
theorem valid_with_links_astray :
    (renamedKey.validate.valid = true ∧ ¬ (Blueprint.ofManifest renamedKey).LinksServed) ∧
      sameTable.validate.valid = true ∧ ¬ (Blueprint.ofManifest sameTable).LinksServed := by
  refine ⟨⟨by decide +kernel, ?_⟩, by decide +kernel, ?_⟩ <;>
    rw [Manifest.linksServed_iff] <;> decide +kernel

end Scaffold

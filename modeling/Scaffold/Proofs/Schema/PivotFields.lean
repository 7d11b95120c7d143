import Scaffold.Proofs.Lint.Relations
import Scaffold.Proofs.Schema.JunctionLinks
import Scaffold.Proofs.Validity

/-!
# Fields of junction tables

A junction table keeps the first of all declarations of a field.  The lint has compared them, so in
a valid manifest every declaration is found in its table, once, and equal to what was declared.  A
declaration that does not equal itself is a case of its own: it has a default that is not a number,
passes the lint if it is the only one, and is then kept as it is.
-/

namespace Scaffold

open Lint

/-! ## Equal fields make equal attributes -/

def Attribute.parts (a : Attribute) :
    String × String × FieldKind × Bool × Bool × Option Literal × List Rule :=
  (a.name, a.column, a.kind, a.required, a.unique, a.default, a.rules)

theorem Attribute.beq_ofField {f g : Field} (h : (f == g) = true) (name : String) :
    (ofField name f == ofField name g) = true := by
  have hparts : (f.parts == g.parts) = true := h
  simp only [Field.parts, beq_pair, Bool.and_eq_true, beq_iff_eq] at hparts
  obtain ⟨hkind, hrequired, hunique, hdefault, hrules⟩ := hparts
  have hf : (ofField name f).parts =
      (name, columnOf name, g.kind, g.isRequired, g.isUnique, f.default, f.rules) := by
    rw [parts, ofField, hkind, Field.isRequired, Field.isUnique, hrequired, hunique]
    rfl
  change ((ofField name f).parts == (ofField name g).parts) = true
  rw [hf]
  simp [beq_pair, parts, ofField, hdefault, hrules]

/-- An attribute equals itself exactly if its field does. -/
theorem Attribute.beq_ofField_self (name : String) (f : Field) :
    (ofField name f == ofField name f) = (f == f) := by
  change ((ofField name f).parts == (ofField name f).parts) = (f.parts == f.parts)
  simp [parts, Field.parts, beq_pair, ofField]

/-! ## Declarations and attributes -/

namespace Lint

def PivotField.attribute (p : PivotField) : Attribute := .ofField p.place.field p.field

def OwnedRelation.declaration (r : OwnedRelation) (f : String × Field) : PivotField :=
  ⟨r.junction, ⟨.pivot r.owner r.name, f.1⟩, f.2⟩

/-- A declaration of a pivot field belongs to a relation with many on both sides. -/
theorem mem_pivotFields {n : Manifest} {p : PivotField} :
    p ∈ pivotFields n ↔
      ∃ r ∈ n.manyToMany, ∃ pivot ∈ r.relation.pivot, ∃ f ∈ pivot.fields.entries,
        r.declaration f = p := by
  rw [pivotFields, List.mem_flatMap]
  constructor
  · rintro ⟨r, hr, hp⟩
    rw [OwnedRelation.pivotFields, List.mem_ite_nil_right] at hp
    obtain ⟨hkind, hp⟩ := hp
    cases hpivot : r.relation.pivot with
    | none => simp [hpivot] at hp
    | some pivot =>
        rw [hpivot, Option.map_some, Option.getD_some] at hp
        obtain ⟨f, hf, rfl⟩ := List.mem_map.mp hp
        exact ⟨r, Manifest.mem_manyToMany.mpr ⟨hr, hkind⟩, pivot, hpivot, f, hf, rfl⟩
  · rintro ⟨r, hr, pivot, hpivot, f, hf, rfl⟩
    obtain ⟨hmem, hkind⟩ := Manifest.mem_manyToMany.mp hr
    refine ⟨r, hmem, ?_⟩
    rw [OwnedRelation.pivotFields, if_pos hkind, Option.mem_def.mp hpivot]
    exact List.mem_map.mpr ⟨f, hf, rfl⟩

end Lint

namespace Junction

theorem mem_descriptions {n : Manifest} {d : Junction} :
    d ∈ descriptions n.entities ↔ ∃ r ∈ n.manyToMany, ofRelation r.owner r.name r.relation = d := by
  simp only [descriptions, ofEntity, Manifest.mem_manyToMany, ownedRelations, List.mem_flatMap,
    List.mem_filterMap, List.mem_map]
  constructor
  · rintro ⟨e, he, r, hr, hd⟩
    obtain ⟨hkind, rfl⟩ : r.2.kind = .belongsToMany ∧ ofRelation e.name r.1 r.2 = d := by
      simpa using hd
    exact ⟨⟨e.name, r.1, r.2⟩, ⟨⟨e, he, r, hr, rfl⟩, hkind⟩, rfl⟩
  · rintro ⟨_, ⟨⟨e, he, r, hr, rfl⟩, hkind⟩, rfl⟩
    exact ⟨e, he, r, hr, if_pos hkind⟩

/-- What the descriptions of a table bring is what the relations through it declare. -/
theorem mem_attributesNamed_iff {n : Manifest} {name : String} {a : Attribute} :
    a ∈ attributesNamed (descriptions n.entities) name ↔
      ∃ p ∈ pivotFields n, p.junction = name ∧ p.attribute = a := by
  rw [mem_attributesNamed]
  constructor
  · rintro ⟨d, hd, rfl, ha⟩
    obtain ⟨r, hr, rfl⟩ := mem_descriptions.mp hd
    cases hpivot : r.relation.pivot with
    | none => simp [ofRelation, hpivot, Attribute.ofFields] at ha
    | some pivot =>
        simp only [ofRelation, hpivot, Option.map_some, Option.getD_some] at ha
        obtain ⟨f, hf, rfl⟩ := List.mem_map.mp ha
        exact ⟨r.declaration f, mem_pivotFields.mpr ⟨r, hr, pivot, hpivot, f, hf, rfl⟩, rfl, rfl⟩
  · rintro ⟨p, hp, rfl, rfl⟩
    obtain ⟨r, hr, pivot, hpivot, f, hf, rfl⟩ := mem_pivotFields.mp hp
    refine ⟨_, mem_descriptions.mpr ⟨r, hr, rfl⟩, rfl, ?_⟩
    rw [ofRelation, Option.mem_def.mp hpivot]
    exact List.mem_map.mpr ⟨f, hf, rfl⟩

theorem names_ofFields (fields : Assoc Field) :
    (Attribute.ofFields fields).map Attribute.name = Assoc.keys fields := by
  rw [Attribute.ofFields, List.map_map]
  rfl

theorem attributes_nodup_of_mem_descriptions {n : Manifest} {d : Junction}
    (hd : d ∈ descriptions n.entities) : (d.attributes.map Attribute.name).Nodup := by
  obtain ⟨r, -, rfl⟩ := mem_descriptions.mp hd
  rw [ofRelation, names_ofFields]
  exact Assoc.nodup_keys _

/-- No name comes twice in a junction table. -/
theorem attributes_nodup_of_first {n : Manifest} {d : Junction}
    (hfirst : named? (descriptions n.entities) d.name = some d) :
    ((d.addAttributes (attributesNamed (descriptions n.entities) d.name)).attributes.map
      Attribute.name).Nodup := by
  obtain ⟨added, heq, -, hnodup, hapart, -⟩ := attributes_addAttributes_spec hfirst
  have hown := attributes_nodup_of_mem_descriptions (List.mem_of_find?_eq_some hfirst)
  rw [heq, List.map_append, List.nodup_append]
  refine ⟨hown, hnodup, ?_⟩
  simp only [List.mem_map]
  rintro _ ⟨a, ha, rfl⟩ _ ⟨b, hb, rfl⟩
  exact hapart a ha b hb

/-- There is one table of the name that a relation gives, and the first relation of that name
describes it. -/
theorem exists_filter_eq {n : Manifest} {r : OwnedRelation} (hr : r ∈ n.manyToMany) :
    ∃ d, named? (descriptions n.entities) d.name = some d ∧ d.name = r.junction ∧
      (ofEntities n.entities).filter (·.name == r.junction) =
        [d.addAttributes (attributesNamed (descriptions n.entities) d.name)] := by
  have hsome : (named? (descriptions n.entities) r.junction).isSome = true :=
    List.find?_isSome.mpr
      ⟨_, mem_descriptions.mpr ⟨r, hr, rfl⟩, by simp [ofRelation, OwnedRelation.junction]⟩
  obtain ⟨d, hd⟩ := Option.isSome_iff_exists.mp hsome
  have hname : d.name = r.junction := by simpa using List.find?_some hd
  have hfirst : named? (descriptions n.entities) d.name = some d := hname ▸ hd
  have hmem := mem_ofEntities_iff.mpr ⟨d, hfirst, rfl⟩
  have hfilter := filter_key_eq_singleton (names_ofEntities_nodup n.entities) hmem
  rw [name_addAttributes, hname] at hfilter
  exact ⟨d, hfirst, hname, hname ▸ hfilter⟩

end Junction

/-! ## Valid manifests -/

/-- Whether an attribute is what a field was declared as: it equals the declaration as far as the
declaration equals itself, and where that equals nothing, the attribute is the very same. -/
structure Attribute.Keeps (a : Attribute) (name : String) (f : Field) : Prop where
  equal : (a == ofField name f) = (f == f)
  same : (f == f) = false → a = ofField name f

theorem Attribute.keeps_ofField (name : String) (f : Field) : (ofField name f).Keeps name f :=
  ⟨beq_ofField_self name f, fun _ ↦ rfl⟩

theorem Attribute.keeps_of_beq {f g : Field} (h : (g == f) = true) (name : String) :
    (ofField name g).Keeps name f := by
  have hself : (f == f) = true := BEq.trans (BEq.symm h) h
  exact ⟨(beq_ofField h name).trans hself.symm, fun hne ↦ absurd hself (by simp [hne])⟩

/-- Behind every declaration there is an attribute of the one table of its name, which is made from
the same declaration or from an equal one. -/
theorem Lint.exists_mem_attributes {n : Manifest} (hrelations : relations n = [])
    {p : PivotField} (hp : p ∈ pivotFields n) :
    ∃ j, (Junction.ofEntities n.entities).filter (·.name == p.junction) = [j] ∧
      ∃ q : PivotField, q.attribute ∈ j.attributes ∧ q.place.field = p.place.field ∧
        (q = p ∨ (q.field == p.field) = true) := by
  obtain ⟨r, hr, pivot, hpivot, f, hf, rfl⟩ := mem_pivotFields.mp hp
  obtain ⟨d, hfirst, hname, hfilter⟩ := Junction.exists_filter_eq hr
  obtain ⟨added, heq, hdeclared, -, -, hnames⟩ := Junction.attributes_addAttributes_spec hfirst
  -- some attribute of the table has the name of the field, and some declaration is behind it
  obtain ⟨a, ha, haName⟩ := hnames (r.declaration f).attribute
    (Junction.mem_attributesNamed_iff.mpr ⟨_, hp, hname.symm, rfl⟩)
  obtain ⟨q, hq, hjunction, rfl⟩ := Junction.mem_attributesNamed_iff.mp (hdeclared a ha)
  refine ⟨_, hfilter, q, heq ▸ ha, haName, or_iff_not_imp_left.mpr fun hne ↦ ?_⟩
  -- two declarations of one field are equal, since the lint has compared them
  have : Std.Symm PivotField.Compatible := ⟨fun _ _ ↦ PivotField.Compatible.symm⟩
  exact ((relations_eq_nil_iff n).mp hrelations).2.forall hq hp hne
    (Prod.ext (hjunction.trans hname) haName)

/-- Every pivot field of accepted relations is kept in one junction table, as it is declared. -/
theorem Lint.exists_attribute {n : Manifest} (hrelations : relations n = [])
    {r : OwnedRelation} (hr : r ∈ n.manyToMany) {pivot : Pivot} (hpivot : pivot ∈ r.relation.pivot)
    {f : String × Field} (hf : f ∈ pivot.fields.entries) :
    ∃ j a, (Junction.ofEntities n.entities).filter (·.name == r.junction) = [j] ∧
      j.attributes.filter (·.name == f.1) = [a] ∧ a.Keeps f.1 f.2 := by
  have hp : r.declaration f ∈ pivotFields n :=
    mem_pivotFields.mpr ⟨r, hr, pivot, hpivot, f, hf, rfl⟩
  obtain ⟨j, hj, q, hq, hname, hsame⟩ := exists_mem_attributes hrelations hp
  have hnodup : (j.attributes.map Attribute.name).Nodup := by
    have hmem := List.mem_of_mem_filter (hj ▸ List.mem_singleton_self j)
    obtain ⟨d, hfirst, rfl⟩ := Junction.mem_ofEntities_iff.mp hmem
    exact Junction.attributes_nodup_of_first hfirst
  have hqName : q.place.field = f.1 := hname
  refine ⟨j, q.attribute, hj, hqName ▸ filter_key_eq_singleton hnodup hq, ?_⟩
  rcases hsame with rfl | hbeq
  · exact Attribute.keeps_ofField f.1 f.2
  · rw [PivotField.attribute, hqName]
    exact Attribute.keeps_of_beq hbeq f.1

/-- In a valid manifest nothing that is declared for a junction table is lost.  For every relation
with many on both sides, every field of its pivot is in the one table of its name, once, and is the
field that was declared; and everything in a junction table is declared by some relation through
it. -/
theorem Manifest.pivot_fields_kept [Pattern.Checker] (m : Manifest)
    (hvalid : m.validate.valid = true) :
    (∀ r ∈ m.normalize.manyToMany, ∀ pivot ∈ r.relation.pivot, ∀ f ∈ pivot.fields.entries,
      ∃ j a, (Blueprint.ofManifest m).junctions.filter (·.name == r.junction) = [j] ∧
        j.attributes.filter (·.name == f.1) = [a] ∧ a.Keeps f.1 f.2) ∧
    ∀ j ∈ (Blueprint.ofManifest m).junctions, ∀ a ∈ j.attributes,
      ∃ r ∈ m.normalize.manyToMany, r.junction = j.name ∧
        ∃ pivot ∈ r.relation.pivot, ∃ f ∈ pivot.fields.entries, a = .ofField f.1 f.2 := by
  obtain ⟨-, -, hrelations, -⟩ := m.valid_iff.mp hvalid
  constructor
  · intro r hr pivot hpivot f hf
    exact exists_attribute hrelations hr hpivot hf
  · intro j hj a ha
    obtain ⟨d, hfirst, rfl⟩ := Junction.mem_ofEntities_iff.mp hj
    obtain ⟨added, heq, hdeclared, -⟩ := Junction.attributes_addAttributes_spec hfirst
    rw [heq] at ha
    obtain ⟨p, hp, hjunction, rfl⟩ := Junction.mem_attributesNamed_iff.mp (hdeclared a ha)
    obtain ⟨r, hr, pivot, hpivot, f, hf, rfl⟩ := mem_pivotFields.mp hp
    exact ⟨r, hr, hjunction, pivot, hpivot, f, hf, rfl⟩

/-- A relation with a weight on its junction table, for which the number stands if none is given. -/
def weightedLink (entity : String) (weight : Double) : Relation where
  kind := .belongsToMany
  entity := entity
  pivot := some
    { fields := .ofList [("weight", { kind := .number, default := some (.float weight) })] }

/-- Posts and tags that agree on a weight of zero, each in its own way. -/
def zeroWeights : Manifest where
  database := some (.sqlite "app.db")
  entities :=
    [entityWith "Post" [("tags", weightedLink "Tag" (.finite false 0 0))],
      entityWith "Tag" [("posts", weightedLink "Post" (.finite true 0 0))]]

theorem Manifest.pivot_fields_kept_zeroWeights :
    zeroWeights.validate.valid = true ∧
      ∃ j a, (Blueprint.ofManifest zeroWeights).junctions.filter (·.name == "post_tag") = [j] ∧
        j.attributes.filter (·.name == "weight") = [a] ∧
          a.Keeps "weight" (Field.normalize
            { kind := .number, default := some (.float (.finite true 0 0)) }) := by
  have hvalid : zeroWeights.validate.valid = true := by decide +kernel
  refine ⟨hvalid, ?_⟩
  exact (pivot_fields_kept _ hvalid).1
    ⟨"Tag", "posts", (weightedLink "Post" (.finite true 0 0)).normalize⟩
    (List.mem_cons_of_mem _ List.mem_cons_self) _ rfl _ List.mem_cons_self

def noWeight : Manifest where
  database := some (.sqlite "app.db")
  entities := [entityWith "Post" [("tags", weightedLink "Tag" .nan)], entityWith "Tag" []]

/-- What is not a number differs from itself, so that the weight equals nothing, not even the
attribute that is made from it. -/
theorem Manifest.valid_with_unequal_field :
    noWeight.validate.valid = true ∧
      ∃ r ∈ noWeight.normalize.manyToMany, ∃ pivot ∈ r.relation.pivot, ∃ f ∈ pivot.fields.entries,
        ∀ j ∈ (Blueprint.ofManifest noWeight).junctions, ∀ a ∈ j.attributes,
          (a == .ofField f.1 f.2) = false :=
  ⟨by decide +kernel, by decide +kernel⟩

end Scaffold

import Scaffold.Proofs.Lint.Duplicates
import Scaffold.Proofs.Lint.Relations
import Scaffold.Proofs.Manifest.Rearranged

/-!
# The order of declarations

What the lints report, and about which of several declarations, depends on the order in which these
come.  Whether they report anything does not: each lint comes down to conditions on all declarations
or on any two of them, and to comparisons of lists up to their order.
-/

namespace Scaffold

open Lint

/-! ## What another order leaves as it is -/

namespace Relation.Rearranged

variable {r s : Relation} (h : r.Rearranged s)

include h

theorem kind_eq : r.kind = s.kind := by rw [← h.rest]

theorem entity_eq : r.entity = s.entity := by rw [← h.rest]

theorem external_eq : r.external = s.external := by rw [← h.rest]

theorem foreignKey_eq (owner name : String) :
    r.foreignKey owner name = s.foreignKey owner name := by
  rw [← h.rest]
  rfl

theorem isSome_pivot : r.pivot.isSome = s.pivot.isSome := by
  have hpivot := h.pivot
  generalize r.pivot = p, s.pivot = q at hpivot ⊢
  cases hpivot <;> rfl

theorem junctionName_eq (owner : String) : r.junctionName owner = s.junctionName owner := by
  have htable : r.pivot.bind Pivot.table = s.pivot.bind Pivot.table := by
    have hpivot := h.pivot
    generalize r.pivot = p, s.pivot = q at hpivot ⊢
    cases hpivot with
    | none => rfl
    | some hpivot => exact hpivot.table
  rw [junctionName, junctionName, htable, h.entity_eq]

theorem pivotFields_perm :
    ((r.pivot.map Pivot.fields).getD {}).entries.Perm
      ((s.pivot.map Pivot.fields).getD {}).entries := by
  have hpivot := h.pivot
  generalize r.pivot = p, s.pivot = q at hpivot ⊢
  cases hpivot with
  | none => exact .refl _
  | some hpivot => exact hpivot.fields

end Relation.Rearranged

namespace Entity.Rearranged

variable {e f : Entity} (h : e.Rearranged f)

include h

theorem name_eq : e.name = f.name := by rw [← h.rest]

theorem tableName_eq : e.tableName = f.tableName := by
  rw [← h.rest]
  rfl

theorem behaviors_eq : e.behaviors = f.behaviors := by rw [← h.rest]

theorem protection_eq : e.effectiveProtection = f.effectiveProtection := by
  rw [← h.rest]
  rfl

theorem source_eq : e.source = f.source := by rw [← h.rest]

theorem fieldColumns_perm : (fieldColumns e).Perm (fieldColumns f) :=
  (h.fields.filter _).map _

theorem ownKeys_perm : (ownKeys e).Perm (ownKeys f) := by
  refine h.relations.filterMap_perm fun r s hrs ↦ ?_
  rw [hrs.2.kind_eq, hrs.2.foreignKey_eq, hrs.1, h.name_eq]

theorem keysFrom_perm (target : String) : (keysFrom e target).Perm (keysFrom f target) := by
  refine h.relations.filterMap_perm fun r s hrs ↦ ?_
  rw [hrs.2.kind_eq, hrs.2.external_eq, hrs.2.entity_eq, hrs.2.foreignKey_eq, hrs.1, h.name_eq]

end Entity.Rearranged

namespace Manifest.Rearranged

variable {m n : Manifest} (h : m.Rearranged n)

include h

theorem tenantField_eq : m.tenantField? = n.tenantField? := by
  rw [← h.rest]
  rfl

theorem exists_left {f : Entity} (hf : f ∈ n.entities) : ∃ e ∈ m.entities, e.Rearranged f := by
  obtain ⟨e, he, hfe⟩ := h.symm.entities.exists_of_mem hf
  exact ⟨e, he, hfe.symm⟩

theorem foreignKeys_perm (target : String) : (foreignKeys m target).Perm (foreignKeys n target) :=
  h.entities.flatMap_perm fun _ _ hef ↦ hef.keysFrom_perm target

variable {e f : Entity} (hef : e.Rearranged f)

include hef

theorem generatedColumns_eq : generatedColumns m e = generatedColumns n f := by
  rw [generatedColumns, generatedColumns, h.tenantField_eq, hef.behaviors_eq]

theorem furtherColumns_perm : (furtherColumns m e).Perm (furtherColumns n f) := by
  rw [furtherColumns, furtherColumns, h.generatedColumns_eq hef, hef.name_eq]
  exact ((hef.fieldColumns_perm.filter _).append hef.ownKeys_perm).append (h.foreignKeys_perm _)

/-! ## Names used twice -/

theorem reservedFields_eq_nil (hnil : reservedFields m e = []) : reservedFields n f = [] := by
  rw [reservedFields_eq_nil_iff] at hnil ⊢
  rw [h.tenantField_eq, h.generatedColumns_eq hef] at hnil
  intro field hfield
  exact hnil field ((Assoc.keys_perm hef.fields).mem_iff.mpr hfield)

theorem columnsTwice_eq_nil (hnil : columnsTwice m e = []) : columnsTwice n f = [] := by
  rw [columnsTwice_eq_nil_iff] at hnil ⊢
  rw [h.generatedColumns_eq hef] at hnil
  have hperm := h.furtherColumns_perm hef
  refine ⟨(hperm.map _).nodup hnil.1, fun c hc ↦ ?_⟩
  exact hnil.2 c (hperm.mem_iff.mpr hc)

omit hef in
/-- Distinct names stay distinct in another order. -/
theorem namesDistinct (hm : NamesDistinct m) : NamesDistinct n where
  names := (h.entities.map_perm fun _ _ hef ↦ hef.name_eq).nodup hm.names
  singulars :=
    (h.entities.map_perm fun _ _ hef ↦ congrArg singularOf hef.name_eq).nodup hm.singulars
  tables := (h.entities.map_perm fun _ _ hef ↦ hef.tableName_eq).nodup hm.tables
  relations f hf name hname hfield := by
    obtain ⟨e, he, hef⟩ := h.exists_left hf
    have hrelations : (Assoc.keys e.relations).Perm (Assoc.keys f.relations) :=
      hef.relations.map_perm fun _ _ hrs ↦ hrs.1
    exact hm.relations e he name (hrelations.mem_iff.mpr hname)
      ((Assoc.keys_perm hef.fields).mem_iff.mpr hfield)
  columns f hf := by
    obtain ⟨e, he, hef⟩ := h.exists_left hf
    obtain ⟨hreserved, htwice⟩ := hm.columns e he
    exact ⟨h.reservedFields_eq_nil hef hreserved, h.columnsTwice_eq_nil hef htwice⟩
  junctions owner howner s hs hkind f hf := by
    obtain ⟨owner', howner', ho⟩ := h.exists_left howner
    obtain ⟨r, hr, hsr⟩ := ho.symm.relations.exists_of_mem hs
    obtain ⟨e, he, hef⟩ := h.exists_left hf
    rw [← hef.tableName_eq, hsr.2.junctionName_eq, ← ho.name_eq]
    exact hm.junctions owner' howner' r hr (hsr.2.kind_eq ▸ hkind) e he

end Manifest.Rearranged

/-! ## Names -/

theorem Lint.fieldNames_eq_nil_iff {owner : FieldsOf} {fields : Assoc Field} :
    fieldNames owner fields = [] ↔ ∀ name ∈ Assoc.keys fields, Naming.isCamel name = true := by
  simp [fieldNames, List.filter_eq_nil_iff]

/-- No names are reported exactly if all of them are well written. -/
theorem Lint.names_eq_nil_iff {m : Manifest} :
    names m = [] ↔ ∀ e ∈ m.entities, Naming.isPascal e.name = true ∧
      (∀ name ∈ Assoc.keys e.fields, Naming.isCamel name = true) ∧
        ∀ r ∈ e.relations.entries, Naming.isCamel r.1 = true ∧
          ∀ name ∈ Assoc.keys ((r.2.pivot.map Pivot.fields).getD {}),
            Naming.isCamel name = true := by
  have hentity : ∀ (e : Entity) (i : Nat), Lint.entityNames e i = [] ↔
      Naming.isPascal e.name = true ∧
        (∀ name ∈ Assoc.keys e.fields, Naming.isCamel name = true) ∧
          ∀ r ∈ e.relations.entries, Naming.isCamel r.1 = true ∧
            ∀ name ∈ Assoc.keys ((r.2.pivot.map Pivot.fields).getD {}),
              Naming.isCamel name = true := by
    intro e i
    simp only [Lint.entityNames, relationNames, List.append_eq_nil_iff, List.flatMap_eq_nil_iff,
      fieldNames_eq_nil_iff, ite_eq_left_iff, reduceCtorEq, imp_false, not_not, and_assoc]
  rw [names, List.flatMap_eq_nil_iff]
  simp only [hentity]
  constructor
  · intro h e he
    rw [← List.zipIdx_map_fst 0 m.entities] at he
    obtain ⟨p, hp, rfl⟩ := List.mem_map.mp he
    exact h p hp
  · intro h p hp
    exact h p.1 (List.fst_mem_of_mem_zipIdx hp)

namespace Manifest.Rearranged

variable {m n : Manifest} (h : m.Rearranged n)

include h

/-- Names that are well written are so in another order. -/
theorem names_eq_nil (hnil : Lint.names m = []) : Lint.names n = [] := by
  rw [names_eq_nil_iff] at hnil ⊢
  intro f hf
  obtain ⟨e, he, hef⟩ := h.exists_left hf
  obtain ⟨hname, hfields, hrelations⟩ := hnil e he
  refine ⟨hef.name_eq ▸ hname, ?_, ?_⟩
  · intro name hmem
    exact hfields name ((Assoc.keys_perm hef.fields).mem_iff.mpr hmem)
  · intro s hs
    obtain ⟨r, hr, hsr⟩ := hef.symm.relations.exists_of_mem hs
    obtain ⟨hrelation, hpivot⟩ := hrelations r hr
    refine ⟨hsr.1 ▸ hrelation, fun name hmem ↦ ?_⟩
    exact hpivot name ((Assoc.keys_perm hsr.2.pivotFields_perm).mem_iff.mp hmem)

/-! ## Relations -/

theorem hasEntity_eq (name : String) : m.hasEntity name = n.hasEntity name := by
  have hnames : (m.entities.map Entity.name).Perm (n.entities.map Entity.name) :=
    h.entities.map_perm fun _ _ hef ↦ hef.name_eq
  have hany := hnames.any_eq (f := (· == name))
  rwa [List.any_map, List.any_map] at hany

theorem exists_relation {s : OwnedRelation} (hs : s ∈ ownedRelations n) :
    ∃ r ∈ ownedRelations m, r.relation.Rearranged s.relation := by
  obtain ⟨f, hf, hs⟩ := List.mem_flatMap.mp hs
  obtain ⟨entry, hentry, rfl⟩ := List.mem_map.mp hs
  obtain ⟨e, he, hef⟩ := h.exists_left hf
  obtain ⟨r, hr, hsr⟩ := hef.symm.relations.exists_of_mem hentry
  exact ⟨⟨e.name, r.1, r.2⟩, List.mem_flatMap.mpr ⟨e, he, List.mem_map.mpr ⟨r, hr, rfl⟩⟩,
    hsr.2.symm⟩

/-- The declarations for junction tables are the same ones in another order. -/
theorem pivotFields_perm : (pivotFields m).Perm (pivotFields n) := by
  simp only [pivotFields, ownedRelations, List.flatMap_assoc, List.flatMap_map]
  refine h.entities.flatMap_perm fun e f hef ↦ hef.relations.flatMap_perm fun r s hrs ↦ ?_
  rw [OwnedRelation.pivotFields, OwnedRelation.pivotFields, hrs.2.kind_eq, hrs.2.junctionName_eq,
    hrs.1, hef.name_eq]
  split
  · exact hrs.2.pivotFields_perm.map _
  · exact .refl _

theorem relations_eq_nil (hnil : Lint.relations m = []) : Lint.relations n = [] := by
  rw [relations_eq_nil_iff] at hnil ⊢
  obtain ⟨hplaced, hcompatible⟩ := hnil
  constructor
  · intro s hs
    obtain ⟨r, hr, hrs⟩ := h.exists_relation hs
    obtain ⟨hdangling, hpivot⟩ := hplaced r hr
    rw [OwnedRelation.isDangling, hrs.external_eq, hrs.entity_eq, h.hasEntity_eq] at hdangling
    rw [OwnedRelation.hasMisplacedPivot, hrs.isSome_pivot, hrs.kind_eq] at hpivot
    exact ⟨hdangling, hpivot⟩
  · exact h.pivotFields_perm.pairwise hcompatible PivotField.Compatible.symm

/-! ## Settings -/

theorem tenantConflicts_eq {e f : Entity} (hef : e.Rearranged f) :
    tenantConflicts m e = tenantConflicts n f := by
  have hcontains : Assoc.contains e.fields = Assoc.contains f.fields :=
    funext fun name ↦ hef.fields.any_eq
  rw [tenantConflicts, tenantConflicts, h.tenantField_eq, hcontains, hef.name_eq]

theorem unmetProtection_perm : (unmetProtection m).Perm (unmetProtection n) := by
  have hauth : m.authEnabled = n.authEnabled := by
    rw [← h.rest]
    rfl
  rw [unmetProtection, unmetProtection, hauth]
  split
  · exact .refl _
  · have hprotected := h.entities.filter fun e f hef ↦
      congrArg Protection.isAny (Entity.Rearranged.protection_eq hef)
    exact hprotected.map_perm fun e f hef ↦ congrArg Finding.authMissing hef.name_eq

theorem sources_perm : (sources m).Perm (sources n) := by
  have hsettings : m.source = n.source ∧ m.effectiveMode = n.effectiveMode := by
    rw [← h.rest]
    exact ⟨rfl, rfl⟩
  rw [sources, sources, hsettings.1]
  refine .append_left _ (h.entities.flatMap_perm fun e f hef ↦ .of_eq ?_)
  rw [entitySource, entitySource, hsettings.1, hsettings.2, hef.source_eq, hef.name_eq]

/-- What is wrong with the settings is told in another order. -/
theorem configuration_perm : (configuration m).Perm (configuration n) := by
  have hsame : Lint.database m = Lint.database n ∧ providers m = providers n ∧
      locale m = locale n := by
    rw [← h.rest]
    exact ⟨rfl, rfl, rfl⟩
  rw [configuration_eq, configuration_eq, hsame.1, hsame.2.1, hsame.2.2]
  exact (((((List.Perm.refl _).append h.unmetProtection_perm).append (.refl _)).append
    h.sources_perm).append (.refl _)).append
      (h.entities.flatMap_perm fun _ _ hef ↦ .of_eq (h.tenantConflicts_eq hef))

end Manifest.Rearranged

/-! ## Fields -/

theorem Lint.fieldMap_perm [Pattern.Checker] {fields fields' : Assoc Field}
    (h : fields.entries.Perm fields'.entries) (owner : FieldsOf) :
    (fieldMap owner fields).Perm (fieldMap owner fields') := by
  have hsame : field owner fields = field owner fields' := by
    funext name f
    unfold field Lint.sourceFields sourceFieldProblem?
    simp only [Assoc.get?_perm h]
  rw [fieldMap, fieldMap, hsame]
  exact h.flatMap_right _

namespace Manifest.Rearranged

variable {m n : Manifest} (h : m.Rearranged n)

include h

/-- What is wrong with the fields is told in another order. -/
theorem fields_perm [Pattern.Checker] : (Lint.fields m).Perm (Lint.fields n) := by
  refine h.entities.flatMap_perm fun e f hef ↦ .append ?_ ?_
  · rw [hef.name_eq]
    exact fieldMap_perm hef.fields _
  · refine hef.relations.flatMap_perm fun r s hrs ↦ ?_
    rw [hef.name_eq, hrs.1]
    exact fieldMap_perm hrs.2.pivotFields_perm _

/-! ## Validity -/

theorem valid_of_valid [Pattern.Checker] (hvalid : m.validate.valid = true) :
    n.validate.valid = true := by
  have hnormal := h.normalize
  obtain ⟨hnames, hduplicates, hrelations, hconfiguration, hfields⟩ := m.valid_iff.mp hvalid
  refine n.valid_iff.mpr ⟨hnormal.names_eq_nil hnames, ?_, hnormal.relations_eq_nil hrelations,
    ?_, ?_⟩
  · rw [duplicates_eq_nil_iff] at hduplicates ⊢
    exact hnormal.namesDistinct hduplicates
  · exact (hconfiguration ▸ hnormal.configuration_perm).nil_eq.symm
  · exact (hfields ▸ hnormal.fields_perm).nil_eq.symm

end Manifest.Rearranged

/-- Whether a manifest is valid does not depend on the order of its entities, nor on that of the
fields and relations of an entity and of the fields of a pivot. -/
theorem Manifest.valid_eq_of_rearranged [Pattern.Checker] (m n : Manifest) (h : m.Rearranged n) :
    n.validate.valid = m.validate.valid :=
  Bool.eq_iff_iff.mpr ⟨h.symm.valid_of_valid, h.valid_of_valid⟩

/-- Tags of posts, with two fields on the table between them. -/
def notedTags (order : {α : Type} → List α → List α) : Relation where
  kind := .belongsToMany
  entity := "Tag"
  pivot := some
    { fields := .ofList (order [("weight", { kind := .number }), ("note", { kind := .text })]) }

def postsAndTags (order : {α : Type} → List α → List α) : Manifest where
  database := some (.sqlite "app.db")
  entities := order
    [{ name := "Post"
       fields := .ofList (order [("title", { kind := .text }), ("length", { kind := .number })])
       relations := .ofList (order
         [("author", ⟨.hasOne, "User", none, none, true⟩), ("tags", notedTags order)]) },
      { name := "Tag", fields := .ofList (order [("label", { kind := .text })]) }]

theorem Manifest.valid_eq_reversed_postsAndTags :
    (postsAndTags id).Rearranged (postsAndTags List.reverse) ∧
      (postsAndTags List.reverse).validate.valid = (postsAndTags id).validate.valid := by
  have hrearranged : (postsAndTags id).Rearranged (postsAndTags List.reverse) := by
    refine ⟨rfl, _, .swap _ _ _, .cons ⟨rfl, .refl _, [], .refl _, .nil⟩ (.cons ?_ .nil)⟩
    refine ⟨rfl, .swap _ _ _, _, .swap _ _ _, .cons ⟨rfl, rfl, ?_⟩ (.cons ⟨rfl, rfl, .none⟩ .nil)⟩
    exact .some ⟨rfl, .swap _ _ _⟩
  exact ⟨hrearranged, valid_eq_of_rearranged _ _ hrearranged⟩

end Scaffold

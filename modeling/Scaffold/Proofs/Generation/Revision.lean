import Mathlib.Data.List.Forall2
import Scaffold.Proofs.Apply.Replacing
import Scaffold.Proofs.Generation.OutputPaths
import Scaffold.Proofs.Schema.ForeignKeys

/-!
# Revised entities

The fields, the behaviors and the protection of an entity show in the schema, in the document of its
input rules and in its module, and nowhere else.  So if one entity is revised in these respects,
applying the files anew writes at most three of them.
-/

namespace Scaffold

open Disk TypeScript

/-! ## What a revision leaves alone -/

/-- New fields, behaviors and protection for an entity. -/
structure Revision where
  fields : Assoc Field
  behaviors : Behaviors
  protection : Option Protection

def Entity.revise (r : Revision) (e : Entity) : Entity :=
  { e with fields := r.fields, behaviors := r.behaviors, protection := r.protection }

def Manifest.revise (m : Manifest) (i : Nat) (r : Revision) : Manifest :=
  { m with entities := m.entities.modify i (Entity.revise r) }

/-- The files in which a revision of the entity at a place may show. -/
def Manifest.revisedPaths (m : Manifest) (i : Nat) : List String :=
  "schema.sql" :: m.entities[i]?.toList.flatMap fun e ↦
    ["validation/" ++ singularOf e.name ++ ".json", "api/" ++ singularOf e.name ++ ".ts"]

/-- Two records of one entity that may differ in what a revision changes, provided that their files
are among those with the given paths. -/
structure Record.SameOutside (paths : List String) (r r' : Record) : Prop where
  name : r.name = r'.name
  singular : r.singular = r'.singular
  plural : r.plural = r'.plural
  routes : r.routes = r'.routes
  others : r = r' ∨
    "validation/" ++ r.singular ++ ".json" ∈ paths ∧ "api/" ++ r.singular ++ ".ts" ∈ paths

theorem Record.SameOutside.refl (paths : List String) (r : Record) : r.SameOutside paths r :=
  ⟨rfl, rfl, rfl, rfl, .inl rfl⟩

theorem forall₂_modify {α : Type} {R : α → α → Prop} {f : α → α} {xs : List α} {i : Nat}
    (hrefl : ∀ x, R x x) (hf : ∀ x, xs[i]? = some x → R x (f x)) :
    List.Forall₂ R xs (xs.modify i f) := by
  induction xs generalizing i with
  | nil =>
      rw [List.modify_nil]
      exact .nil
  | cons x xs ih =>
      cases i with
      | zero => exact .cons (hf x rfl) (List.forall₂_same.mpr fun y _ ↦ hrefl y)
      | succ i => exact .cons (hrefl x) (ih hf)

namespace Manifest

theorem records_revise (m : Manifest) (i : Nat) (r : Revision) :
    List.Forall₂ (Record.SameOutside (m.revisedPaths i)) (Blueprint.ofManifest m).records
      (Blueprint.ofManifest (m.revise i r)).records := by
  rw [records_ofManifest, records_ofManifest, List.forall₂_map_left_iff,
    List.forall₂_map_right_iff]
  refine forall₂_modify (fun e ↦ .refl _ _) fun e he ↦ ⟨rfl, rfl, rfl, rfl, .inr ?_⟩
  rw [revisedPaths, he]
  exact ⟨.tail _ (.head _), .tail _ (.tail _ (.head _))⟩

end Manifest

/-! ## Files -/

/-- Two files that may differ in what they hold, provided that their path is among the given. -/
structure GeneratedFile.SameOutside (paths : List String) (f g : GeneratedFile) : Prop where
  path : f.path = g.path
  overwrite : f.overwrite = g.overwrite
  content : f.path ∉ paths → f.content = g.content

theorem GeneratedFile.SameOutside.refl (paths : List String) (f : GeneratedFile) :
    f.SameOutside paths f := ⟨rfl, rfl, fun _ ↦ rfl⟩

theorem GeneratedFile.SameOutside.eq {paths : List String} {f g : GeneratedFile}
    (h : f.SameOutside paths g) (hpath : f.path ∉ paths) : f = g := by
  obtain ⟨path, content, overwrite⟩ := f
  obtain ⟨rfl, rfl, hcontent⟩ := h
  obtain rfl := hcontent hpath
  rfl

section

variable {paths : List String} {files files' : List GeneratedFile}
  (h : List.Forall₂ (GeneratedFile.SameOutside paths) files files')

include h

theorem paths_of_sameOutside :
    files.map GeneratedFile.path = files'.map GeneratedFile.path := by
  induction h with
  | nil => rfl
  | cons hf _ ih => rw [List.map_cons, List.map_cons, hf.path, ih]

theorem exists_of_sameOutside {g' : GeneratedFile} (hg' : g' ∈ files') :
    ∃ g ∈ files, g.SameOutside paths g' := by
  induction h with
  | nil => cases hg'
  | @cons f f' files files' hf _ ih =>
      rcases List.mem_cons.mp hg' with rfl | hg'
      · exact ⟨f, List.mem_cons_self, hf⟩
      · obtain ⟨g, hg, hsame⟩ := ih hg'
        exact ⟨g, List.mem_cons_of_mem _ hg, hsame⟩

end

namespace Standard

variable {b b' : Blueprint} {paths : List String}

theorem recordFiles_sameOutside (htenant : b.tenant = b'.tenant) {r r' : Record}
    (h : r.SameOutside paths r') :
    List.Forall₂ (GeneratedFile.SameOutside paths) [rulesFile r, entityFile b r]
      [rulesFile r', entityFile b' r'] := by
  have hentity : entityFile b r' = entityFile b' r' := by rw [entityFile, entityFile, htenant]
  rcases h.others with rfl | ⟨hrules, hmodule⟩
  · rw [hentity]
    exact List.forall₂_same.mpr fun f _ ↦ .refl _ f
  · have hsame {path path' : String} (content content' : String) (heq : path = path')
        (hpath : path ∈ paths) : GeneratedFile.SameOutside paths (.generated path content)
          (.generated path' content') := ⟨heq, rfl, fun hother ↦ absurd hpath hother⟩
    refine .cons (hsame _ _ ?_ hrules) (.cons (hsame _ _ ?_ hmodule) .nil)
    · rw [h.singular]
    · rw [h.singular]

theorem hookFile_of_sameOutside {r r' : Record} (h : r.SameOutside paths r') :
    hookFile r = hookFile r' := by
  simp only [hookFile, HookModule.ofRecord, entityImport, h.name, h.singular]

/-- A member that the two kinds of records share gives equal lists. -/
theorem map_eq_of_sameOutside {α : Type} {f : Record → α} {rs rs' : List Record}
    (h : List.Forall₂ (Record.SameOutside paths) rs rs')
    (hf : ∀ r r', r.SameOutside paths r' → f r = f r') : rs.map f = rs'.map f := by
  induction h with
  | nil => rfl
  | cons hr _ ih => rw [List.map_cons, List.map_cons, hf _ _ hr, ih]

/-- Two blueprints that differ in some records at most. -/
structure SameOutside (paths : List String) (b b' : Blueprint) : Prop where
  records : List.Forall₂ (Record.SameOutside paths) b.records b'.records
  database : b.database = b'.database
  signIn : b.signIn = b'.signIn
  mode : b.mode = b'.mode
  locales : b.locales = b'.locales
  tenant : b.tenant = b'.tenant
  telemetry : b.telemetry = b'.telemetry

namespace SameOutside

variable (h : SameOutside paths b b')

include h

theorem schemaFiles (hschema : "schema.sql" ∈ paths) :
    List.Forall₂ (GeneratedFile.SameOutside paths) (schemaFiles b) (schemaFiles b') := by
  have hstorage : b.hasStorage = b'.hasStorage := congrArg (· != Mode.apiOnly) h.mode
  rw [Standard.schemaFiles, Standard.schemaFiles, h.database, hstorage]
  split
  · split
    · exact .cons ⟨rfl, rfl, fun hother ↦ absurd hschema hother⟩ .nil
    · exact .nil
  · exact .nil

theorem indexFile : indexFile b = indexFile b' := by
  have hmodules : (b.records.map fun r ↦ "./" ++ r.singular) =
      b'.records.map fun r ↦ "./" ++ r.singular :=
    map_eq_of_sameOutside h.records fun _ _ hr ↦ by rw [hr.singular]
  simp only [Standard.indexFile, IndexModule.ofBlueprint, hmodules, h.mode, h.signIn, h.locales,
    h.tenant, h.telemetry]

theorem clientFiles : clientFiles b = clientFiles b' := by
  have hclient : b.hasClient = b'.hasClient := congrArg (· == Mode.full) h.mode
  have himports : b.records.map entityImport = b'.records.map entityImport :=
    map_eq_of_sameOutside h.records fun _ _ hr ↦ by
      simp only [entityImport, hr.name, hr.singular]
  have hgroups : b.records.map CallGroup.ofRecord = b'.records.map CallGroup.ofRecord :=
    map_eq_of_sameOutside h.records fun _ _ hr ↦ by
      simp only [CallGroup.ofRecord, hr.name, hr.plural, hr.routes]
  simp only [Standard.clientFiles, ClientModule.ofBlueprint, hclient, himports, hgroups]

/-- Blueprints that differ in some records have files that differ under the paths of these at
most. -/
theorem files (hschema : "schema.sql" ∈ paths) :
    List.Forall₂ (GeneratedFile.SameOutside paths) (files b) (files b') := by
  have hhooks : b.records.map hookFile = b'.records.map hookFile :=
    map_eq_of_sameOutside h.records fun _ _ ↦ hookFile_of_sameOutside
  rw [Standard.files, Standard.files, h.indexFile, h.clientFiles, hhooks]
  have hrecords := List.rel_flatMap h.records fun _ _ hr ↦ recordFiles_sameOutside h.tenant hr
  have hsame (fs : List GeneratedFile) : List.Forall₂ (GeneratedFile.SameOutside paths) fs fs :=
    List.forall₂_same.mpr fun f _ ↦ .refl _ f
  refine List.rel_append (List.rel_append (List.rel_append (List.rel_append ?_ hrecords) ?_) ?_) ?_
  · exact h.schemaFiles hschema
  · exact hsame _
  · exact hsame _
  · exact hsame _

end SameOutside

end Standard

/-- A revision of one entity shows in three files at most. -/
theorem Manifest.files_revise (m : Manifest) (i : Nat) (r : Revision) :
    List.Forall₂ (GeneratedFile.SameOutside (m.revisedPaths i)) (Standard.files (.ofManifest m))
      (Standard.files (.ofManifest (m.revise i r))) := by
  have hsame : Standard.SameOutside (m.revisedPaths i) (.ofManifest m)
      (.ofManifest (m.revise i r)) := ⟨m.records_revise i r, rfl, rfl, rfl, rfl, rfl, rfl⟩
  exact hsame.files List.mem_cons_self

/-! ## Applying the files again -/

theorem checkPaths_congr {files files' : List GeneratedFile}
    (h : files.map GeneratedFile.path = files'.map GeneratedFile.path) (earlier : List String) :
    Plan.checkPaths earlier files = Plan.checkPaths earlier files' := by
  induction files generalizing files' earlier with
  | nil =>
      obtain rfl := List.map_eq_nil_iff.mp h.symm
      rfl
  | cons f files ih =>
      obtain ⟨f', rest, rfl, hpath, hrest⟩ := List.map_eq_cons_iff.mp h.symm
      rw [Plan.checkPaths, Plan.checkPaths, hpath]
      simp only [ih hrest.symm]

theorem GeneratedFile.settled_ne_written (g : GeneratedFile) : g.settled ≠ .written := by
  rw [settled]
  split <;> decide

section

variable {d : FileTree} {after : Disk} {output : String} {files files' : List GeneratedFile}
  {plan : Plan} {p : Progress} {dirs : List Location} {staged : List StagedFile}
  {paths : List String}

/-- After a commit every file can be read, and what it holds is left as it is. -/
theorem Committed.exists_read (h : Committed d plan p dirs staged after)
    (hmake : Plan.make d output files = .ok plan) {g : GeneratedFile} (hg : g ∈ files) :
    ∃ content, after.read (Path.join output g.path) = .ok content ∧
      g.disposition (some (Text.decodeLossy content)) = g.settled := by
  obtain ⟨f, hplan, hsettled⟩ := h.planFile_again hmake hg
  obtain ⟨previous, hread, rfl⟩ := planFile_eq_ok_iff.mp hplan
  cases previous with
  | none =>
      have hwritten : g.disposition none = .written := by rw [GeneratedFile.disposition]
      exact absurd (hsettled.symm.trans hwritten) g.settled_ne_written
  | some content => exact ⟨content, readExisting_eq_some_iff.mp hread, hsettled⟩

/-- Files that differ under some paths only are planned to be written under those at most, each in
the place of an earlier one. -/
theorem Committed.make_sameOutside (h : Committed d plan p dirs staged after)
    (hmake : Plan.make d output files = .ok plan)
    (hsame : List.Forall₂ (GeneratedFile.SameOutside paths) files files') :
    ∃ again, Plan.make after output files' = .ok again ∧
      ∀ f ∈ again.toWrite, f.file.path ∈ paths ∧ Replaces after f := by
  have hpaths : Plan.checkPaths [] files' = .ok () := by
    rw [← checkPaths_congr (paths_of_sameOutside hsame)]
    exact (make_eq_ok_iff.mp hmake).1
  have hread : ∀ g' ∈ files', ∃ content, after.read (Path.join output g'.path) = .ok content := by
    intro g' hg'
    obtain ⟨g, hg, hsame⟩ := exists_of_sameOutside hsame hg'
    obtain ⟨content, hcontent, -⟩ := h.exists_read hmake hg
    exact ⟨content, hsame.path ▸ hcontent⟩
  obtain ⟨again, hagain, hreplaces⟩ := make_of_read (d := ⟨after, h.wellFormed⟩) hpaths hread
  refine ⟨again, hagain, fun f hf ↦ ?_⟩
  obtain ⟨hmem, hwritten⟩ := mem_toWrite.mp hf
  refine ⟨?_, hreplaces f hmem⟩
  have hfile : f.file ∈ files' := by
    rw [← map_file_of_make hagain]
    exact List.mem_map_of_mem hmem
  obtain ⟨g, hg, hsame⟩ := exists_of_sameOutside hsame hfile
  obtain ⟨content, hcontent, hsettled⟩ := h.exists_read hmake hg
  -- outside of the paths the file is the earlier one, about which nothing is left to do
  by_contra hother
  obtain rfl : g = f.file := hsame.eq (hsame.path ▸ hother)
  obtain ⟨previous, hprevious, heq⟩ := planFile_eq_ok_iff.mp (planFile_of_mem hagain hmem)
  rw [readExisting_eq_some_iff.mpr hcontent] at hprevious
  cases hprevious
  have hdisposition := congrArg PlannedFile.disposition heq
  exact f.file.settled_ne_written (hsettled.symm.trans (hdisposition.symm.trans hwritten))

end

/-- The files of a manifest with one entity revised are those of the manifest itself, under the same
paths and rules, and differ in the schema, the input rules and the module of this entity at most.
Applied after those of the manifest they are written under these three paths at most, and nothing
changes anywhere else. -/
theorem Manifest.revision_stays_local (m : Manifest) (i : Nat) (r : Revision) :
    List.Forall₂ (GeneratedFile.SameOutside (m.revisedPaths i)) (Standard.files (.ofManifest m))
        (Standard.files (.ofManifest (m.revise i r))) ∧
      ∀ (d : FileTree) (after : Disk) (output : String) (report : ApplyReport),
        applyFiles ⟨output, false⟩ (Standard.files (.ofManifest m)) d = (after, .ok report) →
        ∃ again report', applyFiles ⟨output, false⟩ (Standard.files (.ofManifest (m.revise i r)))
            after = (again, .ok report') ∧
          report'.written ⊆ m.revisedPaths i ∧
          ∀ l, (∀ path ∈ report'.written, after.locate (Path.join output path) ≠ .ok l) →
            again.node? l = after.node? l := by
  refine ⟨m.files_revise i r, fun d after output report happly ↦ ?_⟩
  obtain ⟨plan, hmake, hcommit⟩ : ∃ plan,
      Plan.make d output (Standard.files (.ofManifest m)) = .ok plan ∧
        plan.commit d = (after, .ok report) := by
    cases hmake : Plan.make d output (Standard.files (.ofManifest m)) with
    | error reasons => simp [applyFiles, hmake] at happly
    | ok plan => exact ⟨plan, rfl, by simpa [applyFiles, hmake] using happly⟩
  obtain ⟨-, p, dirs, staged, hcommitted⟩ := committed_of_commit hmake hcommit
  obtain ⟨plan', hmake', hwrite⟩ := hcommitted.make_sameOutside hmake (m.files_revise i r)
  obtain ⟨again, hcommit', hothers⟩ :=
    commit_of_replaces (d := ⟨after, hcommitted.wellFormed⟩) hmake' fun f hf ↦ (hwrite f hf).2
  refine ⟨again, plan'.report, ?_, ?_, fun l hl ↦ hothers l fun f hf ↦ ?_⟩
  · rw [applyFiles, hmake']
    exact hcommit'
  · intro path hpath
    obtain ⟨f, hf, rfl⟩ := List.mem_map.mp hpath
    exact (hwrite f hf).1
  · rw [(plannedAs_of_mem hmake' (mem_toWrite.mp hf).1).target]
    exact hl _ (List.mem_map_of_mem hf)

/-- Another state of posts: a field less and one more, kept after deletion, for signed-in users. -/
def revisedPost : Revision where
  fields := .ofList [("body", { kind := .text, required := some false })]
  behaviors := ⟨none, some true, some true⟩
  protection := some Protection.write

def stockedDisk : FileTree where
  entries :=
    [["validation"], ["api"], ["client"], ["hooks"]].map (·, .directory) ++
      [["schema.sql"], ["validation", "post.json"], ["api", "post.ts"], ["api", "index.ts"],
        ["client", "index.ts"], ["hooks", "post.ts"]].map (·, .file "".toUTF8)
  wellFormed := by
    refine wellFormed_of_entries rfl ?_
    simp only [List.map_cons, List.map_nil, List.cons_append, List.nil_append,
      List.forall_mem_cons]
    exact ⟨rfl, rfl, rfl, rfl, rfl, rfl, rfl, rfl, rfl, rfl, by simp⟩

theorem Manifest.revision_stays_local_titled :
    ∃ after report again report',
      applyFiles ⟨"", false⟩ (Standard.files (.ofManifest (titled "Post"))) stockedDisk =
        (after, .ok report) ∧
      applyFiles ⟨"", false⟩
        (Standard.files (.ofManifest ((titled "Post").revise 0 revisedPost))) after =
        (again, .ok report') ∧
      report'.written ⊆ ["schema.sql", "validation/post.json", "api/post.ts"] := by
  have hcheck : Plan.checkPaths [] (Standard.files (.ofManifest (titled "Post"))) = .ok () := by
    decide +kernel
  have hall : ((Standard.files (.ofManifest (titled "Post"))).all fun g ↦
      (stockedDisk.read (Path.join "" g.path)).isOk) = true := by
    decide +kernel
  have hpaths : (titled "Post").revisedPaths 0 =
      ["schema.sql", "validation/post.json", "api/post.ts"] := by
    decide +kernel
  obtain ⟨plan, hmake, hreplaces⟩ := make_of_read hcheck fun g hg ↦
    exists_ok_of_isOk (List.all_eq_true.mp hall g hg)
  obtain ⟨after, hcommit, -⟩ := commit_of_replaces hmake fun f hf ↦
    hreplaces f (mem_toWrite.mp hf).1
  have happly : applyFiles ⟨"", false⟩ (Standard.files (.ofManifest (titled "Post"))) stockedDisk =
      (after, .ok plan.report) := by
    rw [applyFiles, hmake]
    exact hcommit
  obtain ⟨again, report', hagain, hwritten, -⟩ :=
    (revision_stays_local (titled "Post") 0 revisedPost).2 stockedDisk after "" plan.report
      happly
  rw [hpaths] at hwritten
  exact ⟨after, plan.report, again, report', happly, hagain, hwritten⟩

end Scaffold

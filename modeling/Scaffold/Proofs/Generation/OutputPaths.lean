import Mathlib.Data.List.Nodup
import Scaffold.Proofs.Apply.Plans
import Scaffold.Proofs.Disk.Tree
import Scaffold.Proofs.Generation.Gate
import Scaffold.Proofs.Naming
import Scaffold.Proofs.Path
import Scaffold.Proofs.Schema.RecordColumns
import Scaffold.Proofs.Validity
import Scaffold.Template.Standard

/-!
# The paths of the standard template

Each entity has a file of its own in three directories, under its storage form.  Two of the
directories hold nothing else, but the interfaces stand beside an index.  The lints see to it that
storage forms are distinct; they do not know the index.  So the paths that a valid manifest leads to
can be used together unless an entity has the storage form `index`.
-/

namespace Scaffold

/-! ## Names put together -/

namespace Path

structure IsEntry (name : String) : Prop extends Disk.IsName name where
  noSlash : '/' ∉ name.toList

instance (name : String) : Decidable (IsEntry name) :=
  decidable_of_iff ((isIdle name = false ∧ name ≠ "..") ∧ '/' ∉ name.toList)
    ⟨fun h ↦ ⟨⟨h.1.1, h.1.2⟩, h.2⟩, fun h ↦ ⟨⟨h.notIdle, h.notUp⟩, h.noSlash⟩⟩

theorem isEntry_append {name ending : String} (hname : '/' ∉ name.toList)
    (hending : '/' ∉ ending.toList) (hlength : 2 < ending.length) : IsEntry (name ++ ending) := by
  have hlong : ∀ short : String, short.length ≤ 2 → name ++ ending ≠ short := by
    rintro _ hshort rfl
    rw [String.length_append] at hshort
    omega
  refine ⟨⟨?_, hlong _ (by decide)⟩, ?_⟩
  · rw [isIdle, Bool.or_eq_false_iff, beq_eq_false_iff_ne, beq_eq_false_iff_ne]
    exact ⟨hlong _ (by decide), hlong _ (by decide)⟩
  · rw [String.toList_append, List.mem_append, not_or]
    exact ⟨hname, hending⟩

theorem parts_normalize (path : String) : parts (normalize path) = parts path := by
  rw [normalize, parts_intercalate, parts, List.filter_filter]
  · simp only [Bool.and_self]
  · intro s hs
    exact noSlash_of_mem_segments (List.mem_of_mem_filter hs)

theorem normalize_inj {path path' : String} :
    normalize path = normalize path' ↔ parts path = parts path' := by
  constructor
  · intro h
    rw [← parts_normalize, h, parts_normalize]
  · intro h
    rw [normalize, h, ← normalize]

theorem nodup_normalize {files : List GeneratedFile}
    (h : (files.map fun f ↦ parts f.path).Nodup) :
    (files.map fun f ↦ normalize f.path).Nodup := by
  refine List.Nodup.of_map parts ?_
  rw [List.map_map]
  simpa only [Function.comp_def, parts_normalize] using h

structure MadeOf (path : String) (names : List String) : Prop where
  path_eq : path = "/".intercalate names
  ne_nil : names ≠ []
  isEntry : ∀ name ∈ names, IsEntry name

theorem madeOf_entry {name : String} (h : IsEntry name) : MadeOf name [name] where
  path_eq := String.intercalate_singleton.symm
  ne_nil := List.cons_ne_nil _ _
  isEntry := List.forall_mem_singleton.mpr h

theorem madeOf_pair {path directory name : String} (hpath : path = directory ++ "/" ++ name)
    (hdirectory : IsEntry directory) (hname : IsEntry name) : MadeOf path [directory, name] where
  path_eq := hpath
  ne_nil := List.cons_ne_nil _ _
  isEntry := List.forall_mem_cons.mpr ⟨hdirectory, List.forall_mem_singleton.mpr hname⟩

namespace MadeOf

variable {path : String} {names : List String} (h : MadeOf path names)

include h

theorem segments_eq : segments path = names := by
  rw [h.path_eq, segments_intercalate h.ne_nil fun name hname ↦ (h.isEntry name hname).noSlash]

theorem parts_eq : parts path = names := by
  rw [parts, h.segments_eq, List.filter_eq_self]
  intro name hname
  rw [(h.isEntry name hname).notIdle]
  rfl

theorem empty_notMem_segments : "" ∉ segments path := by
  rw [h.segments_eq]
  intro hempty
  cases (h.isEntry "" hempty).notIdle

/-- Such a path stays below the directory that it is relative to. -/
theorem checkRelative : checkRelative path = .ok () := by
  have hempty := h.empty_notMem_segments
  refine checkRelative_eq_ok_iff.mpr ⟨?_, ?_, ?_, ?_⟩
  · rintro rfl
    exact hempty (by decide)
  · intro hlast
    obtain ⟨front, hfront⟩ := List.getLast?_eq_some_iff.mp hlast
    have hpath : path = String.ofList front ++ "/" ++ "" := by
      apply String.toList_inj.mp
      simp [hfront]
    rw [hpath, segments_append_slash] at hempty
    exact hempty (List.mem_append_right _ (by decide))
  · rw [isAbsolute, decide_eq_false_iff_not]
    intro hhead
    obtain ⟨rest, hrest⟩ := List.head?_eq_some_iff.mp hhead
    have hpath : path = "" ++ "/" ++ String.ofList rest := by
      apply String.toList_inj.mp
      simp [hrest]
    rw [hpath, segments_append_slash] at hempty
    exact hempty (List.mem_append_left _ (by decide))
  · rw [h.parts_eq]
    exact fun hup ↦ (h.isEntry ".." hup).notUp rfl

end MadeOf

theorem parts_entry_slash {directory : String} (h : IsEntry directory) (rest : String) :
    parts (directory ++ "/" ++ rest) = directory :: parts rest := by
  rw [parts_append_slash, (madeOf_entry h).parts_eq, List.singleton_append]

end Path

namespace Standard

/-! ## The paths of the files -/

theorem madeOf_of_mem_schemaFiles {b : Blueprint} {f : GeneratedFile} (hf : f ∈ schemaFiles b) :
    Path.MadeOf f.path ["schema.sql"] := by
  rw [schemaFiles] at hf
  split at hf
  · rw [List.mem_singleton.mp (List.mem_ite_nil_right.mp hf).2]
    exact show Path.MadeOf "schema.sql" ["schema.sql"] from Path.madeOf_entry (by decide)
  · cases hf

theorem madeOf_indexFile (b : Blueprint) : Path.MadeOf (indexFile b).path ["api", "index.ts"] :=
  Path.madeOf_pair rfl (by decide) (by decide)

theorem madeOf_of_mem_clientFiles {b : Blueprint} {f : GeneratedFile} (hf : f ∈ clientFiles b) :
    Path.MadeOf f.path ["client", "index.ts"] := by
  rw [List.mem_singleton.mp (List.mem_ite_nil_right.mp hf).2]
  exact Path.madeOf_pair rfl (by decide) (by decide)

section

variable {r : Record} (hr : '/' ∉ r.singular.toList)

include hr

theorem madeOf_rulesFile : Path.MadeOf (rulesFile r).path ["validation", r.singular ++ ".json"] :=
  Path.madeOf_pair rfl (by decide) (Path.isEntry_append hr (by decide) (by decide))

theorem madeOf_entityFile (b : Blueprint) :
    Path.MadeOf (entityFile b r).path ["api", r.singular ++ ".ts"] :=
  Path.madeOf_pair rfl (by decide) (Path.isEntry_append hr (by decide) (by decide))

theorem madeOf_hookFile : Path.MadeOf (hookFile r).path ["hooks", r.singular ++ ".ts"] :=
  Path.madeOf_pair rfl (by decide) (Path.isEntry_append hr (by decide) (by decide))

end

/-! ## All files together -/

def beforeIndex (b : Blueprint) : List GeneratedFile :=
  schemaFiles b ++ b.records.flatMap fun r ↦ [rulesFile r, entityFile b r]

def afterIndex (b : Blueprint) : List GeneratedFile := clientFiles b ++ b.records.map hookFile

theorem files_eq (b : Blueprint) : files b = beforeIndex b ++ indexFile b :: afterIndex b := by
  simp [files, beforeIndex, afterIndex]

theorem mem_files_of_mem_records {b : Blueprint} {r : Record} (hr : r ∈ b.records) :
    rulesFile r ∈ files b ∧ entityFile b r ∈ files b := by
  rw [files_eq, beforeIndex]
  simp only [List.mem_append, List.mem_flatMap]
  exact ⟨.inl (.inr ⟨r, hr, by simp⟩), .inl (.inr ⟨r, hr, by simp⟩)⟩

theorem cases_of_mem_files {b : Blueprint} {f : GeneratedFile} (hf : f ∈ files b) :
    f ∈ schemaFiles b ∨ f = indexFile b ∨ f ∈ clientFiles b ∨
      ∃ r ∈ b.records, f = rulesFile r ∨ f = entityFile b r ∨ f = hookFile r := by
  simp only [files, List.mem_append, List.mem_flatMap, List.mem_map, List.mem_cons,
    List.not_mem_nil, or_false] at hf
  rcases hf with (((hschema | ⟨r, hr, hfile⟩) | hindex) | hclient) | ⟨r, hr, hhook⟩
  · exact .inl hschema
  · exact .inr (.inr (.inr ⟨r, hr, hfile.imp_right .inl⟩))
  · exact .inr (.inl hindex)
  · exact .inr (.inr (.inl hclient))
  · exact .inr (.inr (.inr ⟨r, hr, .inr (.inr hhook.symm)⟩))

section

variable {b : Blueprint} (hslash : ∀ r ∈ b.records, '/' ∉ r.singular.toList)

include hslash

theorem checkRelative_of_mem_files : ∀ f ∈ files b, Path.checkRelative f.path = .ok () := by
  intro f hf
  rcases cases_of_mem_files hf with hschema | rfl | hclient | ⟨r, hr, rfl | rfl | rfl⟩
  · exact (madeOf_of_mem_schemaFiles hschema).checkRelative
  · exact (madeOf_indexFile b).checkRelative
  · exact (madeOf_of_mem_clientFiles hclient).checkRelative
  · exact (madeOf_rulesFile (hslash r hr)).checkRelative
  · exact (madeOf_entityFile (hslash r hr) b).checkRelative
  · exact (madeOf_hookFile (hslash r hr)).checkRelative

theorem parts_beforeIndex : ((beforeIndex b).map fun f ↦ Path.parts f.path) =
    (schemaFiles b).map (fun _ ↦ ["schema.sql"]) ++
      (b.records.map Record.singular).flatMap fun singular ↦
        [["validation", singular ++ ".json"], ["api", singular ++ ".ts"]] := by
  rw [beforeIndex, List.map_append, List.map_flatMap, List.flatMap_map]
  congr 1
  · exact List.map_congr_left fun f hf ↦ (madeOf_of_mem_schemaFiles hf).parts_eq
  · refine List.flatMap_congr fun r hr ↦ ?_
    rw [List.map_cons, List.map_singleton, (madeOf_rulesFile (hslash r hr)).parts_eq,
      (madeOf_entityFile (hslash r hr) b).parts_eq]

theorem parts_afterIndex : ((afterIndex b).map fun f ↦ Path.parts f.path) =
    (clientFiles b).map (fun _ ↦ ["client", "index.ts"]) ++
      (b.records.map Record.singular).map fun singular ↦ ["hooks", singular ++ ".ts"] := by
  rw [afterIndex, List.map_append, List.map_map, List.map_map]
  congr 1
  · exact List.map_congr_left fun f hf ↦ (madeOf_of_mem_clientFiles hf).parts_eq
  · exact List.map_congr_left fun r hr ↦ (madeOf_hookFile (hslash r hr)).parts_eq

/-- Files other than the index are at distinct paths if the names of records are distinct. -/
theorem nodup_parts_others (hsingulars : (b.records.map Record.singular).Nodup) :
    ((beforeIndex b ++ afterIndex b).map fun f ↦ Path.parts f.path).Nodup := by
  rw [List.map_append, parts_beforeIndex hslash, parts_afterIndex hslash]
  generalize b.records.map Record.singular = singulars at hsingulars
  have hentities : (singulars.flatMap fun singular ↦
      [["validation", singular ++ ".json"], ["api", singular ++ ".ts"]]).Nodup := by
    refine List.nodup_flatMap.mpr ⟨fun singular _ ↦ by simp, hsingulars.imp fun hne ↦ ?_⟩
    simp [Function.onFun, hne.symm]
  have hhooks : (singulars.map fun singular ↦ ["hooks", singular ++ ".ts"]).Nodup :=
    hsingulars.map fun _ _ h ↦ by simpa using h
  have hschema : ((schemaFiles b).map fun _ ↦ ["schema.sql"]).Nodup := by
    rw [schemaFiles]
    split
    · split <;> simp
    · simp
  have hclient : ((clientFiles b).map fun _ ↦ ["client", "index.ts"]).Nodup := by
    rw [clientFiles]
    split <;> simp
  -- What is left is that paths of different kinds begin in different ways.
  refine List.nodup_append.mpr ⟨List.nodup_append.mpr ⟨hschema, hentities, ?_⟩,
    List.nodup_append.mpr ⟨hclient, hhooks, ?_⟩, ?_⟩ <;>
    simp only [List.mem_append, List.mem_map, List.mem_flatMap, List.mem_cons, List.not_mem_nil,
      or_false]
  · rintro _ ⟨-, -, rfl⟩ _ ⟨singular, -, rfl | rfl⟩ <;> simp
  · rintro _ ⟨-, -, rfl⟩ _ ⟨singular, -, rfl⟩
    simp
  · rintro _ (⟨-, -, rfl⟩ | ⟨_, -, rfl | rfl⟩) _ (⟨-, -, rfl⟩ | ⟨_, -, rfl⟩) <;> simp

theorem index_mem_parts_beforeIndex_iff :
    ["api", "index.ts"] ∈ (beforeIndex b).map (fun f ↦ Path.parts f.path) ↔
      "index" ∈ b.records.map Record.singular := by
  have hending (singular : String) : "index.ts" = singular ++ ".ts" ↔ "index" = singular :=
    @String.append_left_inj "index" singular ".ts"
  rw [parts_beforeIndex hslash]
  simp [hending]

theorem nodup_parts_files (hsingulars : (b.records.map Record.singular).Nodup)
    (hindex : "index" ∉ b.records.map Record.singular) :
    ((files b).map fun f ↦ Path.parts f.path).Nodup := by
  have hperm := (@List.perm_middle _ (indexFile b) (beforeIndex b) (afterIndex b)).map
    fun f ↦ Path.parts f.path
  rw [files_eq, hperm.nodup_iff, List.map_cons, List.nodup_cons, (madeOf_indexFile b).parts_eq,
    List.map_append, List.mem_append, not_or, index_mem_parts_beforeIndex_iff hslash,
    ← List.map_append]
  refine ⟨⟨hindex, ?_⟩, nodup_parts_others hslash hsingulars⟩
  rw [parts_afterIndex hslash]
  simp

/-- The paths can be used together unless a storage form is that of the index. -/
theorem checkPaths_files (hsingulars : (b.records.map Record.singular).Nodup) :
    Plan.checkPaths [] (files b) =
      if "index" ∈ b.records.map Record.singular then
        .error ["duplicate output path 'api/index.ts'"]
      else .ok () := by
  have husable := checkRelative_of_mem_files hslash
  by_cases hindex : "index" ∈ b.records.map Record.singular
  · have hbefore : ((beforeIndex b).map fun f ↦ Path.normalize f.path).Nodup := by
      have hothers := nodup_parts_others hslash hsingulars
      rw [List.map_append] at hothers
      exact Path.nodup_normalize hothers.of_append_left
    have htaken : Path.normalize (indexFile b).path ∈
        (beforeIndex b).map fun f ↦ Path.normalize f.path := by
      rw [← index_mem_parts_beforeIndex_iff hslash, ← (madeOf_indexFile b).parts_eq] at hindex
      obtain ⟨f, hf, hparts⟩ := List.mem_map.mp hindex
      exact List.mem_map.mpr ⟨f, hf, Path.normalize_inj.mpr hparts⟩
    rw [files_eq, List.forall_mem_append, List.forall_mem_cons] at husable
    rw [if_pos hindex, files_eq, checkPaths_append _ husable.1 hbefore, List.nil_append,
      checkPaths_cons _ husable.2.1, if_pos htaken]
    rfl
  · have hnodup := Path.nodup_normalize (nodup_parts_files hslash hsingulars hindex)
    rw [if_neg hindex, ← List.append_nil (files b), checkPaths_append [] husable hnodup]
    rfl

end

end Standard

/-! ## Valid manifests -/

namespace Manifest

theorem isPascal_of_names {n : Manifest} (h : Lint.names n = []) {e : Entity}
    (he : e ∈ n.entities) : Naming.isPascal e.name = true := by
  rw [← List.zipIdx_map_fst 0 n.entities] at he
  obtain ⟨p, hp, rfl⟩ := List.mem_map.mp he
  have hentity := List.flatMap_eq_nil_iff.mp h p hp
  simp only [Lint.entityNames, List.append_eq_nil_iff] at hentity
  by_contra hname
  rw [if_neg hname] at hentity
  cases hentity.1.1

theorem singulars_ofManifest (m : Manifest) :
    (Blueprint.ofManifest m).records.map Record.singular = m.entityNames.map singularOf := by
  rw [← entityNames_normalize, entityNames, List.map_map, Blueprint.ofManifest, Blueprint.ofNormal,
    List.map_map]
  rfl

variable {m : Manifest}

theorem mem_files_of_mem_entities {e : Entity} (he : e ∈ m.entities) :
    Standard.rulesFile (.ofEntity (e.normalize m.defaults m.source)) ∈
        Standard.files (.ofManifest m) ∧
      Standard.entityFile (.ofManifest m) (.ofEntity (e.normalize m.defaults m.source)) ∈
        Standard.files (.ofManifest m) := by
  refine Standard.mem_files_of_mem_records ?_
  rw [records_ofManifest]
  exact List.mem_map_of_mem he

theorem schema_mem_files {d : Database} (hdatabase : m.database = some d)
    (hmode : m.effectiveMode ≠ .apiOnly) :
    .generated "schema.sql"
        (Sql.render d.kind Standard.generatedHeading (Sql.tables d.kind (.ofManifest m))) ∈
      Standard.files (.ofManifest m) := by
  have hstorage : (Blueprint.ofManifest m).hasStorage = true := by
    simpa [Blueprint.hasStorage, Blueprint.ofManifest, Blueprint.ofNormal, Manifest.normalize,
      effectiveMode] using hmode
  have hschema : Standard.schemaFiles (.ofManifest m) = [.generated "schema.sql"
      (Sql.render d.kind Standard.generatedHeading (Sql.tables d.kind (.ofManifest m)))] := by
    rw [Standard.schemaFiles, show (Blueprint.ofManifest m).database = some d from hdatabase]
    exact if_pos hstorage
  rw [Standard.files_eq, Standard.beforeIndex, hschema]
  simp

variable [Pattern.Checker] (hvalid : m.validate.valid = true)

include hvalid

theorem isPascal_of_valid {name : String} (hname : name ∈ m.entityNames) :
    Naming.isPascal name = true := by
  rw [← entityNames_normalize] at hname
  obtain ⟨e, he, rfl⟩ := List.mem_map.mp hname
  exact isPascal_of_names (m.valid_iff.mp hvalid).1 he

theorem noSlash_of_valid : ∀ r ∈ (Blueprint.ofManifest m).records, '/' ∉ r.singular.toList := by
  intro r hr hslash
  have hsingular : r.singular ∈ m.entityNames.map singularOf := by
    rw [← singulars_ofManifest]
    exact List.mem_map_of_mem hr
  obtain ⟨name, hname, heq⟩ := List.mem_map.mp hsingular
  have hplain := Naming.isAlphanumeric_of_isPascal (isPascal_of_valid hvalid hname)
  rw [← heq] at hslash
  rcases Naming.mem_snake hplain hslash with h | h <;> cases h

theorem singulars_nodup_of_valid :
    ((Blueprint.ofManifest m).records.map Record.singular).Nodup := by
  rw [singulars_ofManifest, ← entityNames_normalize, entityNames, List.map_map]
  exact singulars_nodup_of_duplicates (m.valid_iff.mp hvalid).2.1

theorem index_mem_singulars_iff :
    "index" ∈ (Blueprint.ofManifest m).records.map Record.singular ↔
      "Index" ∈ m.entityNames ∨ "INDEX" ∈ m.entityNames := by
  rw [singulars_ofManifest, List.mem_map]
  constructor
  · rintro ⟨name, hname, hindex⟩
    rcases (Naming.snake_eq_index_iff (isPascal_of_valid hvalid hname)).mp hindex with rfl | rfl
    · exact .inl hname
    · exact .inr hname
  · rintro (hname | hname)
    · exact ⟨_, hname, by decide +kernel⟩
    · exact ⟨_, hname, by decide +kernel⟩

end Manifest

/-- Every path that the standard template makes from a valid manifest can be used, and all of them
can be used together, unless an entity is named `Index` or `INDEX`.  With such an entity no run ever
writes anything, valid as the manifest is. -/
theorem Manifest.outputPaths_usable [Pattern.Checker] (m : Manifest)
    (hvalid : m.validate.valid = true) :
    (∀ f ∈ Standard.files (.ofManifest m), Path.checkRelative f.path = .ok ()) ∧
      (Plan.checkPaths [] (Standard.files (.ofManifest m)) =
        if "Index" ∈ m.entityNames ∨ "INDEX" ∈ m.entityNames then
          .error ["duplicate output path 'api/index.ts'"]
        else .ok ()) ∧
      ("Index" ∈ m.entityNames ∨ "INDEX" ∈ m.entityNames → ∀ o d,
        m.generate Standard.template o d =
          (⟨o.dryRun, .error (.template m.validate Standard.template.reference
            ["duplicate output path 'api/index.ts'"])⟩, d)) := by
  have hslash := noSlash_of_valid hvalid
  have hcheck := Standard.checkPaths_files hslash (singulars_nodup_of_valid hvalid)
  simp only [index_mem_singulars_iff hvalid] at hcheck
  refine ⟨Standard.checkRelative_of_mem_files hslash, hcheck, fun hindex o d ↦ ?_⟩
  rw [if_pos hindex] at hcheck
  have hmake : Plan.make d o.output (Standard.files (.ofManifest m)) =
      .error ["duplicate output path 'api/index.ts'"] := by
    rw [Plan.make, hcheck]
    rfl
  have hrun := m.generateByM_builtIn (M := Id) Template.generate (fun _ ↦ .ok Standard.template) o d
  rw [if_pos hvalid] at hrun
  refine hrun.trans ?_
  change m.concluded Standard.template o d (.ok (Standard.files (.ofManifest m))) = _
  rw [Manifest.concluded, Template.conclude, applyFiles, hmake]
  rfl

def titled (name : String) : Manifest where
  database := some (.sqlite "app.db")
  entities := [{ name, fields := .ofList [("title", { kind := .text })] }]

theorem Manifest.outputPaths_usable_titled :
    (titled "IndexCard").validate.valid = true ∧
      Plan.checkPaths [] (Standard.files (.ofManifest (titled "IndexCard"))) = .ok () :=
  have hvalid : (titled "IndexCard").validate.valid = true := by decide +kernel
  ⟨hvalid, (outputPaths_usable _ hvalid).2.1.trans (if_neg (by decide))⟩

/-- An entity with the storage form `index` passes the lints, and its interface is then put in the
place of the index. -/
theorem Manifest.valid_with_repeated_paths :
    (titled "Index").validate.valid = true ∧
      Plan.checkPaths [] (Standard.files (.ofManifest (titled "Index"))) =
        .error ["duplicate output path 'api/index.ts'"] :=
  ⟨by decide +kernel, by decide +kernel⟩

end Scaffold

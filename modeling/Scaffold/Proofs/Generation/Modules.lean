import Scaffold.Proofs.Generation.OutputPaths
import Scaffold.Proofs.TypeScript.PlainNames

/-!
# The modules of a run fit together

A module refers to another by a path relative to its own.  Every such path in what a valid manifest
leads to is that of a file of the same run, which exports what is taken from it, and the client
requests exactly what the entities offer.  All of this is read from the contents of the files, and
so it holds as long as nothing that a manifest writes there as it is breaks them: lints check
neither the field of a tenant nor the ends of lines in texts.
-/

namespace Scaffold

open Naming TypeScript

/-! ## Relative specifiers -/

namespace TypeScript

def enter (base : List String) (part : String) : List String :=
  if part = "." then base else if part = ".." then base.dropLast else base ++ [part]

/-- The path of the module that a relative specifier stands for in another. -/
def resolve (importer specifier : String) : String :=
  "/".intercalate ((Path.segments specifier).foldl enter (Path.segments importer).dropLast) ++ ".ts"

def isRelative (specifier : String) : Bool :=
  (Path.segments specifier).head? = some "." || (Path.segments specifier).head? = some ".."

variable {name : String}

theorem segments_of_isName (h : IsName name) : Path.segments name = [name] := by
  have hslash : '/' ∉ name.toList := fun hmem ↦ absurd (h _ hmem) (by decide)
  rw [Path.segments, Text.splitOn_eq_singleton hslash, List.map_singleton, String.ofList_toList]

theorem enter_of_isName (h : IsName name) (base : List String) :
    enter base name = base ++ [name] := by
  have hhere : name ≠ "." := by
    rintro rfl
    exact absurd h (by decide)
  have hup : name ≠ ".." := by
    rintro rfl
    exact absurd h (by decide)
  rw [enter, if_neg hhere, if_neg hup]

theorem resolve_sibling {importer : String} (h : IsName name)
    (himporter : (Path.segments importer).dropLast = ["api"]) :
    isRelative ("./" ++ name) = true ∧ resolve importer ("./" ++ name) = s!"api/{name}.ts" := by
  have hsegments : Path.segments ("./" ++ name) = [".", name] := by
    have hslash := Path.segments_append_slash "." name
    rwa [segments_of_isName h] at hslash
  refine ⟨by rw [isRelative, hsegments]; rfl, ?_⟩
  rw [resolve, hsegments, himporter, List.foldl_cons, List.foldl_cons, List.foldl_nil,
    enter_of_isName h]
  rfl

theorem resolve_sister {importer directory : String} (h : IsName name)
    (himporter : (Path.segments importer).dropLast = [directory]) :
    isRelative ("../api/" ++ name) = true ∧
      resolve importer ("../api/" ++ name) = s!"api/{name}.ts" := by
  have hsegments : Path.segments ("../api/" ++ name) = ["..", "api", name] := by
    have hslash := Path.segments_append_slash "../api" name
    rwa [segments_of_isName h] at hslash
  refine ⟨by rw [isRelative, hsegments]; rfl, ?_⟩
  rw [resolve, hsegments, himporter, List.foldl_cons, List.foldl_cons, List.foldl_cons,
    List.foldl_nil, enter_of_isName h]
  rfl

end TypeScript

/-! ## References and exports -/

namespace TypeScript

structure Reference where
  module : String
  names : List String
deriving DecidableEq, Repr

def Statement.reference? : Statement → Option Reference
  | .importTypes names module => some ⟨module, names⟩
  | .exportAll module => some ⟨module, []⟩
  | _ => none

def references (ss : List Statement) : List Reference := ss.filterMap Statement.reference?

def Statement.exportedType? : Statement → Option String
  | .interface name _ | .type name => some name
  | _ => none

def exportedTypes (ss : List Statement) : List String := ss.filterMap Statement.exportedType?

def Statement.constantNamed? (name : String) : Statement → Option (List Piece)
  | .constant other inner => if other = name then some inner else none
  | _ => none

def constantsNamed (name : String) (ss : List Statement) : List (List Piece) :=
  ss.filterMap (Statement.constantNamed? name)

end TypeScript

def Record.requests (r : Record) : List (String × String × String) :=
  Operation.all.map fun op ↦ (op.name, method op, r.routes.ofOperation op)

namespace Standard

/-- The files whose modules refer to others. -/
def referring (b : Blueprint) : List GeneratedFile :=
  [indexFile b] ++ clientFiles b ++ b.records.map hookFile

theorem reads_headings :
    language.Reads (unlines (headingLines generatedHeading)) [] ∧
      language.Reads (unlines (headingLines hookHeading)) [] :=
  ⟨reads_headingLines rfl, reads_headingLines rfl⟩

section

variable {b : Blueprint} {r : Record}

theorem exists_module?_entityFile (h : b.Readable) (hr : r ∈ b.records) :
    ∃ source : Option (List Piece), module? (entityFile b r).content =
      some ((EntityModule.ofRecord b.tenant r).statements ++
        (source.map (.constant (camel r.singular ++ "Source"))).toList) := by
  obtain ⟨source, hsource⟩ := EntityModule.exists_declares (h.entities r hr) reads_headings.1
  exact ⟨source, hsource.module?_eq⟩

theorem exists_module?_indexFile (h : b.Readable) :
    ∃ inner, module? (indexFile b).content =
      some ((b.records.map fun r ↦ .exportAll ("./" ++ r.singular)) ++
        [.constant "config" inner]) := by
  obtain ⟨inner, hinner⟩ := IndexModule.exists_declares h.index reads_headings.1
  refine ⟨inner, hinner.module?_eq.trans ?_⟩
  rw [IndexModule.ofBlueprint, List.map_map]
  rfl

theorem readable_entityImport (h : r.WellNamed) :
    (entityImport r).names ≠ [] ∧ (∀ name ∈ (entityImport r).names, isIdentifier name = true) ∧
      IsBare (entityImport r).module.toList := by
  obtain ⟨hcreate, hupdate⟩ := isIdentifier_input h.name
  refine ⟨List.cons_ne_nil _ _, ?_, isBare_append.mpr
    ⟨by simp [IsBare], isBare_of_isName h.singular⟩⟩
  simp [entityImport, h.name, hcreate, hupdate]

theorem exists_module?_hookFile (h : r.WellNamed) :
    ∃ inner, module? (hookFile r).content =
      some [.importTypes (entityImport r).names (entityImport r).module,
        .constant (camel r.singular ++ "Hooks") inner] := by
  obtain ⟨hne, hnames, hmodule⟩ := readable_entityImport h
  obtain ⟨inner, hinner⟩ := HookModule.exists_declares (m := .ofRecord r) h.name h.stem hne hnames
    hmodule reads_headings.2
  exact ⟨inner, hinner.module?_eq⟩

/-- The client can be read, and makes the requests of all records. -/
theorem exists_module?_clientFile (h : ∀ r ∈ b.records, r.WellNamed) {f : GeneratedFile}
    (hf : f ∈ clientFiles b) :
    ∃ body, module? f.content =
        some ((b.records.map fun r ↦
          .importTypes (entityImport r).names (entityImport r).module) ++
          [.type "Fetcher", .function "createClient" body]) ∧
      client? body = some (b.records.map fun r ↦ (camel r.plural, r.requests)) := by
  obtain rfl := List.mem_singleton.mp (List.mem_ite_nil_right.mp hf).2
  have hgroup : ∀ r ∈ b.records, (CallGroup.ofRecord r).Readable := fun r hr ↦ by
    refine ⟨(h r hr).key, fun c hc ↦ ?_⟩
    obtain ⟨op, -, rfl⟩ := List.mem_map.mp hc
    exact ⟨(h r hr).name, isBare_method op, (h r hr).path op⟩
  have hreadable : (ClientModule.ofBlueprint b).Readable :=
    ⟨List.forall_mem_map.mpr fun r hr ↦ readable_entityImport (h r hr),
      List.forall_mem_map.mpr hgroup⟩
  obtain ⟨body, hbody, hclient⟩ := ClientModule.exists_declares hreadable reads_headings.1
  refine ⟨body, hbody.module?_eq.trans ?_, hclient.trans ?_⟩
  · rw [ClientModule.ofBlueprint, List.map_map]
    rfl
  · rw [ClientModule.ofBlueprint, List.map_map]
    refine congrArg some (List.map_congr_left fun r _ ↦ ?_)
    simp only [Function.comp_apply, CallGroup.ofRecord, CallGroup.requests, Record.requests,
      List.map_map]
    rfl

end

/-! ## Resolving references -/

/-- Whether a reference in a file leads to the module of a record. -/
structure Resolves (b : Blueprint) (f : GeneratedFile) (ref : Reference) (r : Record) : Prop where
  isRelative : isRelative ref.module = true
  path : resolve f.path ref.module = (entityFile b r).path

section

variable {b : Blueprint} {f : GeneratedFile} {r : Record}

theorem resolves_export (h : r.WellNamed) :
    Resolves b (indexFile b) ⟨"./" ++ r.singular, []⟩ r := by
  obtain ⟨hrelative, hpath⟩ := @resolve_sibling _ "api/index.ts" h.singular (by decide)
  exact ⟨hrelative, hpath⟩

theorem resolves_import (h : r.WellNamed) {directory : String}
    (hf : (Path.segments f.path).dropLast = [directory]) :
    Resolves b f ⟨(entityImport r).module, (entityImport r).names⟩ r := by
  obtain ⟨hrelative, hpath⟩ := resolve_sister h.singular hf
  exact ⟨hrelative, hpath⟩

/-- Whether a file refers to the modules of records, in order, and to nothing else, and takes some
names from each. -/
def RefersTo (b : Blueprint) (f : GeneratedFile) (records : List Record)
    (names : Record → List String) : Prop :=
  ∃ ss, module? f.content = some ss ∧ ∃ module : Record → String,
    references ss = records.map (fun r ↦ ⟨module r, names r⟩) ∧
      ∀ r ∈ records, Resolves b f ⟨module r, names r⟩ r

/-- Statements that refer to modules stand before all others. -/
theorem references_append {records : List Record} {statement : Record → Statement}
    {module : Record → String} {names : Record → List String} {others : List Statement}
    (h : ∀ r, (statement r).reference? = some ⟨module r, names r⟩)
    (hothers : ∀ s ∈ others, s.reference? = none) :
    references (records.map statement ++ others) = records.map fun r ↦ ⟨module r, names r⟩ := by
  have hmap : Statement.reference? ∘ statement = some ∘ fun r ↦ ⟨module r, names r⟩ := funext h
  rw [references, List.filterMap_append, List.filterMap_map, hmap, List.filterMap_eq_map,
    List.filterMap_eq_nil_iff.mpr hothers, List.append_nil]

theorem refersTo_indexFile (h : b.Readable) : RefersTo b (indexFile b) b.records fun _ ↦ [] := by
  obtain ⟨inner, hmodule⟩ := exists_module?_indexFile h
  exact ⟨_, hmodule, fun r ↦ "./" ++ r.singular,
    references_append (fun _ ↦ rfl) (by simp [Statement.reference?]),
    fun r hr ↦ resolves_export (h.named r hr)⟩

theorem refersTo_of_mem_clientFiles (h : ∀ r ∈ b.records, r.WellNamed) (hf : f ∈ clientFiles b) :
    RefersTo b f b.records fun r ↦ (entityImport r).names := by
  obtain ⟨body, hmodule, -⟩ := exists_module?_clientFile h hf
  obtain rfl := List.mem_singleton.mp (List.mem_ite_nil_right.mp hf).2
  have hdirectory : (Path.segments "client/index.ts").dropLast = ["client"] := by decide
  exact ⟨_, hmodule, fun r ↦ (entityImport r).module,
    references_append (fun _ ↦ rfl) (by simp [Statement.reference?]),
    fun r hr ↦ resolves_import (h r hr) hdirectory⟩

theorem refersTo_hookFile (b : Blueprint) (h : r.WellNamed) :
    RefersTo b (hookFile r) [r] fun r ↦ (entityImport r).names := by
  obtain ⟨inner, hmodule⟩ := exists_module?_hookFile h
  have hslash : '/' ∉ r.singular.toList := fun hmem ↦ absurd (h.singular _ hmem) (by decide)
  have hdirectory : (Path.segments (hookFile r).path).dropLast = ["hooks"] := by
    rw [(madeOf_hookFile hslash).segments_eq]
    rfl
  exact ⟨_, hmodule, fun r ↦ (entityImport r).module, rfl,
    List.forall_mem_singleton.mpr (resolves_import h hdirectory)⟩

/-- Every reference leads to the module of a record, and takes no more than its types. -/
theorem exists_resolves (h : b.Readable) (hf : f ∈ referring b) :
    ∃ ss, module? f.content = some ss ∧ ∀ ref ∈ references ss,
      ∃ r ∈ b.records, ref.names ⊆ (entityImport r).names ∧ Resolves b f ref r := by
  have hfrom {records : List Record} {names : Record → List String}
      (hrefers : RefersTo b f records names) (hrecords : records ⊆ b.records)
      (hnames : ∀ r, names r ⊆ (entityImport r).names) :
      ∃ ss, module? f.content = some ss ∧ ∀ ref ∈ references ss,
        ∃ r ∈ b.records, ref.names ⊆ (entityImport r).names ∧ Resolves b f ref r := by
    obtain ⟨ss, hmodule, module, hreferences, hresolves⟩ := hrefers
    refine ⟨ss, hmodule, ?_⟩
    rw [hreferences]
    exact List.forall_mem_map.mpr fun r hr ↦ ⟨r, hrecords hr, hnames r, hresolves r hr⟩
  rw [referring, List.mem_append, List.mem_append, List.mem_singleton] at hf
  rcases hf with (rfl | hclient) | hhook
  · exact hfrom (refersTo_indexFile h) (List.Subset.refl _) fun _ ↦ List.nil_subset _
  · exact hfrom (refersTo_of_mem_clientFiles h.named hclient) (List.Subset.refl _)
      fun _ ↦ List.Subset.refl _
  · obtain ⟨r, hr, rfl⟩ := List.mem_map.mp hhook
    exact hfrom (refersTo_hookFile b (h.named r hr)) (fun _ hs ↦ List.mem_singleton.mp hs ▸ hr)
      fun _ ↦ List.Subset.refl _

theorem RefersTo.exists_reference {records : List Record} {names : Record → List String}
    (h : RefersTo b f records names) (hr : r ∈ records) :
    ∃ ss, module? f.content = some ss ∧ ∃ ref ∈ references ss,
      resolve f.path ref.module = (entityFile b r).path ∧ ref.names = names r := by
  obtain ⟨ss, hmodule, module, hreferences, hresolves⟩ := h
  refine ⟨ss, hmodule, _, ?_, (hresolves r hr).path, rfl⟩
  rw [hreferences]
  exact List.mem_map_of_mem hr

/-- A module of an entity exports the types of the entity and its routes, each of them once. -/
theorem exists_exports (h : b.Readable) (hr : r ∈ b.records) :
    ∃ ss, module? (entityFile b r).content = some ss ∧
      exportedTypes ss = (entityImport r).names ∧
      ∃ inner, constantsNamed (camel r.singular ++ "Routes") ss = [inner] ∧
        requests? route? inner = some r.requests := by
  obtain ⟨source, hmodule⟩ := exists_module?_entityFile h hr
  have hsource : camel r.singular ++ "Source" ≠ camel r.singular ++ "Routes" := by
    simp [← String.toList_inj]
  refine ⟨_, hmodule, ?_, (EntityModule.ofRecord b.tenant r).routePieces, ?_, ?_⟩
  · cases source <;> rfl
  · have hstem : (EntityModule.ofRecord b.tenant r).stem = camel r.singular := by
      rw [EntityModule.ofRecord]
    cases source <;>
      simp [constantsNamed, EntityModule.statements, List.filterMap_cons, Statement.constantNamed?,
        hstem, hsource]
  · rw [EntityModule.requests?_routePieces, EntityModule.ofRecord, routes, List.map_map]
    rfl

end

end Standard

theorem eq_of_checkPaths {files : List GeneratedFile} (h : Plan.checkPaths [] files = .ok ())
    {f g : GeneratedFile} (hf : f ∈ files) (hg : g ∈ files) (hpath : f.path = g.path) : f = g :=
  List.inj_on_of_nodup_map (nodup_of_checkPaths h).2 hf hg (congrArg Path.normalize hpath)

/-- The modules that a valid manifest leads to fit together, as long as it has nothing in them that
cannot be read.  Every reference of the index, of the client and of hooks is relative and leads to a
file of the same run, the only one at its path where the run can write at all, and every type that
is taken from it is exported there.  The index refers to the module of every entity; its hooks and
the client take its types from there, and for every operation the client requests the method and the
path that the module offers. -/
theorem Manifest.modules_fit [Pattern.Checker] {m : Manifest} (hvalid : m.validate.valid = true)
    (hplain : m.PlainInModules) :
    (∀ f ∈ Standard.referring (.ofManifest m), ∃ ss, module? f.content = some ss ∧
      ∀ ref ∈ references ss, isRelative ref.module = true ∧
        ∃ g ∈ Standard.files (.ofManifest m), g.path = resolve f.path ref.module ∧
          (∃ ts, module? g.content = some ts ∧ ref.names ⊆ exportedTypes ts) ∧
          (Plan.checkPaths [] (Standard.files (.ofManifest m)) = .ok () →
            ∀ g' ∈ Standard.files (.ofManifest m), g'.path = g.path → g' = g)) ∧
      ∀ r ∈ (Blueprint.ofManifest m).records,
        (∃ ss, module? (Standard.indexFile (.ofManifest m)).content = some ss ∧
          ∃ ref ∈ references ss,
            resolve "api/index.ts" ref.module = (Standard.entityFile (.ofManifest m) r).path) ∧
        (∀ f ∈ Standard.hookFile r :: Standard.clientFiles (.ofManifest m),
          ∃ ss, module? f.content = some ss ∧ ∃ ref ∈ references ss,
            resolve f.path ref.module = (Standard.entityFile (.ofManifest m) r).path ∧
              ref.names = [r.name, createInput r.name, updateInput r.name]) ∧
        (∃ ts, module? (Standard.entityFile (.ofManifest m) r).content = some ts ∧
          ∃ inner, constantsNamed (camel r.singular ++ "Routes") ts = [inner] ∧
            requests? route? inner = some r.requests) ∧
        ∀ c ∈ Standard.clientFiles (.ofManifest m), ∃ ss, module? c.content = some ss ∧
          ∃ body groups, .function "createClient" body ∈ ss ∧ client? body = some groups ∧
            (camel r.plural, r.requests) ∈ groups ∧
              ∀ g ∈ groups, g.1 = camel r.plural → g.2 = r.requests := by
  have hread := readable_blueprint hvalid hplain
  refine ⟨fun f hf ↦ ?_, fun r hr ↦ ⟨?_, ?_, ?_, fun c hc ↦ ?_⟩⟩
  · obtain ⟨ss, hmodule, hresolves⟩ := Standard.exists_resolves hread hf
    refine ⟨ss, hmodule, fun ref href ↦ ?_⟩
    obtain ⟨r, hr, hnames, hrelative, hpath⟩ := hresolves ref href
    obtain ⟨ts, hts, hexports, -⟩ := Standard.exists_exports hread hr
    have hmem := (Standard.mem_files_of_mem_records hr).2
    exact ⟨hrelative, _, hmem, hpath.symm, ⟨ts, hts, hexports ▸ hnames⟩,
      fun hcheck g' hg' hsame ↦ eq_of_checkPaths hcheck hg' hmem hsame⟩
  · obtain ⟨ss, hmodule, ref, href, hpath, -⟩ :=
      (Standard.refersTo_indexFile hread).exists_reference hr
    exact ⟨ss, hmodule, ref, href, hpath⟩
  · refine List.forall_mem_cons.mpr ⟨?_, fun f hf ↦ ?_⟩
    · exact (Standard.refersTo_hookFile _ (hread.named r hr)).exists_reference
        (List.mem_singleton_self r)
    · exact (Standard.refersTo_of_mem_clientFiles hread.named hf).exists_reference hr
  · obtain ⟨ts, hts, -, hroutes⟩ := Standard.exists_exports hread hr
    exact ⟨ts, hts, hroutes⟩
  · obtain ⟨body, hmodule, hclient⟩ := Standard.exists_module?_clientFile hread.named hc
    refine ⟨_, hmodule, body, _, by simp, hclient, List.mem_map_of_mem hr, ?_⟩
    refine List.forall_mem_map.mpr fun s hs hkey ↦ ?_
    change s.requests = r.requests
    rw [Record.requests, Record.requests, hread.routes r hr s hs hkey]

def sourced (name field baseUrl : String) : Manifest where
  database := some (.sqlite "app.db")
  tenancy := some ⟨some true, some field⟩
  source := some { baseUrl }
  entities := [{ name, behaviors := ⟨some false, none, none⟩ }]

theorem Manifest.modules_fit_sourced :
    (sourced "SalesPerson" "tenantId" "http://localhost").validate.valid = true ∧
      (sourced "SalesPerson" "tenantId" "http://localhost").PlainInModules ∧
      ∃ c ∈ Standard.clientFiles
          (.ofManifest (sourced "SalesPerson" "tenantId" "http://localhost")),
        ∃ g ∈ Standard.files (.ofManifest (sourced "SalesPerson" "tenantId" "http://localhost")),
          (∃ ss, module? c.content = some ss ∧ ∃ ref ∈ references ss,
            resolve c.path ref.module = g.path ∧ "UpdateSalesPersonInput" ∈ ref.names) ∧
          ∃ requests, ("update", "PATCH", "/sales-people/:id") ∈ requests ∧
            (∃ ts, module? g.content = some ts ∧
              ∃ inner, constantsNamed "salesPersonRoutes" ts = [inner] ∧
                requests? route? inner = some requests) ∧
            ∃ ss, module? c.content = some ss ∧
              ∃ body groups, .function "createClient" body ∈ ss ∧ client? body = some groups ∧
                ("salesPeople", requests) ∈ groups := by
  have hvalid : (sourced "SalesPerson" "tenantId" "http://localhost").validate.valid = true := by
    decide +kernel
  have hplain : (sourced "SalesPerson" "tenantId" "http://localhost").PlainInModules := by
    refine ⟨⟨fun field hfield ↦ ?_, fun r hr ↦ (nomatch hr), ?_, ?_⟩, fun l hl ↦ (nomatch hl)⟩
    · cases hfield
      rfl
    · exact List.forall_mem_singleton.mpr fun f hf ↦ (nomatch hf)
    · refine List.forall_mem_singleton.mpr fun s hs ↦ ?_
      cases hs
      exact ⟨⟨by decide, by decide⟩, fun op path hpath ↦ by cases op <;> cases hpath⟩
  have hclient : Standard.clientFiles
      (.ofManifest (sourced "SalesPerson" "tenantId" "http://localhost")) ≠ [] := by
    decide +kernel
  obtain ⟨c, hc⟩ := List.exists_mem_of_ne_nil _ hclient
  obtain ⟨r, hr⟩ : ∃ r, (Blueprint.ofManifest
    (sourced "SalesPerson" "tenantId" "http://localhost")).records = [r] := ⟨_, rfl⟩
  have hmem : r ∈ (Blueprint.ofManifest
      (sourced "SalesPerson" "tenantId" "http://localhost")).records :=
    hr ▸ List.mem_singleton_self r
  obtain ⟨hname, hsingular, hplural, hroutes⟩ : r.name = "SalesPerson" ∧
      r.singular = singularOf "SalesPerson" ∧ r.plural = pluralOf "SalesPerson" ∧
      r.routes = Routes.ofEntity "SalesPerson" := by
    obtain rfl := (List.cons.inj hr).1
    exact ⟨rfl, rfl, rfl, rfl⟩
  obtain ⟨-, himported, hserved, hcalled⟩ := (modules_fit hvalid hplain).2 r hmem
  obtain ⟨ss, hss, ref, href, hpath, hnames⟩ := himported c (List.mem_cons_of_mem _ hc)
  obtain ⟨ss', hss', body, groups, hbody, hgroups, hgroup, -⟩ := hcalled c hc
  have hstem : camel (singularOf "SalesPerson") ++ "Routes" = "salesPersonRoutes" := by
    decide +kernel
  have hkey : camel (pluralOf "SalesPerson") = "salesPeople" := by decide +kernel
  rw [hsingular, hstem] at hserved
  rw [hplural, hkey] at hgroup
  refine ⟨hvalid, hplain, c, hc, _, (Standard.mem_files_of_mem_records hmem).2,
    ⟨ss, hss, ref, href, hpath, ?_⟩, r.requests, ?_, hserved,
    ss', hss', body, groups, hbody, hgroups, hgroup⟩
  · rw [hnames, hname]
    decide
  · rw [Record.requests, hroutes]
    decide +kernel

/-! ## Modules that conceal their exports -/

/-- The field of the tenants opens a comment, and the address of the source ends it. -/
def concealing : Manifest :=
  sourced "Post" "x: string; \x7d /*" "http://*/ export const z = \x7b//"

def concealingModule : EntityModule where
  record := ⟨"Post", [{ name := "id", type := .string },
    { name := "x: string; \x7d /*", type := .string }]⟩
  input := ⟨"CreatePostInput", []⟩
  stem := "post"
  entity := "Post"
  routes := Operation.all.map fun op ↦
    ⟨op, method op, (Routes.ofEntity "Post").ofOperation op, false⟩
  remote := some ⟨"http://*/ export const z = \x7b//", .ofEntity "Post"⟩

def concealedLines : List String :=
  [""] ++ concealingModule.input.lines ++ ["", concealingModule.updateLine, ""] ++
    concealingModule.routeLines ++ [""]

def frontCode : String := "export interface Post \x7b\n  id: string;\n  x: string; \x7d "

/-- In front of the comment there is one interface. -/
theorem exists_declares_frontCode :
    ∃ members, TypeScript.Declares frontCode [.interface "Post" members] := by
  have hfront : language.Reads "export interface Post "
      [.word "export", .word "interface", .word "Post"] := fun _ ↦ rfl
  have hmembers : language.Reads "\n  id: string;\n  x: string; " [.word "id", .mark ':',
      .word "string", .mark ';', .word "x", .mark ':', .word "string", .mark ';'] := fun _ ↦ rfl
  have hopening : "\x7b".toList = ['\x7b'] := rfl
  have hending : "\x7d".toList = ['\x7d'] := rfl
  have hread := hfront.append (braces.reads hopening hending hmembers.spells).spells.reads_space
  have hcode : frontCode = "export interface Post " ++
      ("\x7b" ++ "\n  id: string;\n  x: string; " ++ "\x7d" ++ " ") := by
    decide +kernel
  rw [hcode]
  exact ⟨_, declares_interface hread rfl rfl⟩

def commentCode (middle : String) : String :=
  "/*" ++ (": string;\n\x7d\n" ++ middle ++
    "export const postSource = \x7b\n  baseUrl: 'http://") ++ "*/"

theorem declares_concealedLines :
    TypeScript.Declares (commentCode (unlines concealedLines)) [] := by
  have hlines : ∀ line ∈ concealedLines, '*' ∉ line.toList := by decide +kernel
  have hcomment {middle : String} (h : '*' ∉ middle.toList) :
      language.Reads (commentCode middle) [] := reads_comment (by simp [h])
  exact declares_nothing (hcomment (notMem_unlines (by decide) hlines))

def backCode (endpoints : String) : String :=
  " export const z = " ++ ("\x7b" ++ ("//',\n" ++ endpoints) ++ "\x7d") ++ " as const;" ++ "\n"

theorem exists_declares_backCode {endpoints : String} {ps : List Piece}
    (h : language.Reads endpoints ps) :
    ∃ inner, TypeScript.Declares (backCode endpoints) [.constant "z" inner] := by
  have hfront : language.Reads " export const z = "
      [.word "export", .word "const", .word "z", .mark '='] := fun _ ↦ rfl
  have hback : language.Reads " as const;" [.word "as", .word "const", .mark ';'] := fun _ ↦ rfl
  have hcomment : language.Reads "//',\n" [] := fun _ ↦ rfl
  have hopening : "\x7b".toList = ['\x7b'] := rfl
  have hending : "\x7d".toList = ['\x7d'] := rfl
  have hgroup := braces.reads hopening hending (hcomment.append h).spells
  have hname : isIdentifier "z" = true := rfl
  exact ⟨_, declares_fixed hname ((hfront.append hgroup).append hback).spells.reads_line⟩

/-- The module consists of its heading, the code in front, the comment and the code behind. -/
theorem render_concealingModule (heading : String) :
    ∃ endpoints ps, language.Reads endpoints ps ∧ concealingModule.render heading =
      unlines (headingLines heading) ++ frontCode ++ commentCode (unlines concealedLines) ++
        backCode endpoints := by
  have hpaths (op : Operation) : OnOneLine ((Routes.ofEntity "Post").ofOperation op).toList :=
    (isBare_routes (by decide) op).onOneLine
  obtain ⟨ps, hendpoints⟩ := EntityModule.exists_reads_endpointsCode
    (r := ⟨"http://*/ export const z = \x7b//", .ofEntity "Post"⟩) hpaths
  refine ⟨_, ps, hendpoints, ?_⟩
  have hrecord : unlines concealingModule.record.lines =
      "export interface Post \x7b\n  id: string;\n  x: string; \x7d " ++ "/*" ++
        ": string;\n\x7d\n" := by
    decide +kernel
  have hurl : quoteText "http://*/ export const z = \x7b//" =
      "'http://" ++ "*/" ++ " export const z = \x7b" ++ "//'" := by
    decide +kernel
  have hlines : concealingModule.lines heading ++ (concealingModule.remote.map fun r ↦
      "" :: EntityModule.sourceLines concealingModule.stem r).getD [] =
      headingLines heading ++ concealingModule.record.lines ++ concealedLines ++
        EntityModule.sourceLines "post"
          ⟨"http://*/ export const z = \x7b//", .ofEntity "Post"⟩ := by
    simp only [EntityModule.lines, concealedLines, concealingModule, Option.map_some,
      Option.getD_some, List.append_assoc, List.singleton_append]
  rw [EntityModule.render_eq, hlines, unlines_append, unlines_append, unlines_append, hrecord,
    EntityModule.unlines_sourceLines, hurl]
  have hsource : "export const postSource = \x7b\n  baseUrl: 'http://" = "export const " ++
      ("post" ++ "Source") ++ " = " ++ "\x7b" ++ "\n" ++
        ("  " ++ ("baseUrl" ++ ": " ++ "'http://")) := by
    decide +kernel
  have hconstant : " export const z = \x7b" = " export const z = " ++ "\x7b" := by decide +kernel
  have hcomment : "//',\n" = "//'" ++ "," ++ "\n" := by decide +kernel
  delta frontCode commentCode backCode
  simp only [hsource, hconstant, hcomment, String.append_assoc]

theorem exists_module?_concealingModule :
    ∃ members inner, module? (concealingModule.render Standard.generatedHeading) =
      some [.interface "Post" members, .constant "z" inner] := by
  obtain ⟨endpoints, ps, hendpoints, hrender⟩ := render_concealingModule Standard.generatedHeading
  obtain ⟨members, hfront⟩ := exists_declares_frontCode
  obtain ⟨inner, hback⟩ := exists_declares_backCode hendpoints
  have hall := (((declares_nothing Standard.reads_headings.1).append hfront).append
    declares_concealedLines).append hback
  refine ⟨members, inner, ?_⟩
  rw [hrender]
  exact hall.module?_eq

/-- Lints object neither to the field of the tenants nor to the address, but the hooks of posts take
types from a module that has them in a comment, and the routes with them. -/
theorem Manifest.valid_with_concealed_exports :
    concealing.validate.valid = true ∧
      ∃ r ∈ (Blueprint.ofManifest concealing).records,
        (∃ ss, module? (Standard.hookFile r).content = some ss ∧ ∃ ref ∈ references ss,
          resolve (Standard.hookFile r).path ref.module =
              (Standard.entityFile (.ofManifest concealing) r).path ∧
            "CreatePostInput" ∈ ref.names) ∧
        ∃ ts, module? (Standard.entityFile (.ofManifest concealing) r).content = some ts ∧
          exportedTypes ts = ["Post"] ∧ constantsNamed "postRoutes" ts = [] := by
  have hvalid : concealing.validate.valid = true := by decide +kernel
  obtain ⟨r, hr⟩ : ∃ r, (Blueprint.ofManifest concealing).records = [r] := ⟨_, rfl⟩
  have hmem : r ∈ (Blueprint.ofManifest concealing).records := hr ▸ List.mem_singleton_self r
  have hmodule : EntityModule.ofRecord (Blueprint.ofManifest concealing).tenant r =
      concealingModule := by
    obtain rfl := (List.cons.inj hr).1
    decide +kernel
  have hname : r.name = "Post" := congrArg EntityModule.entity hmodule
  refine ⟨hvalid, r, hmem, ?_, ?_⟩
  · obtain ⟨ss, hss, ref, href, hpath, hnames⟩ := (Standard.refersTo_hookFile _
      (wellNamed_of_valid hvalid r hmem)).exists_reference (List.mem_singleton_self r)
    refine ⟨ss, hss, ref, href, hpath, ?_⟩
    rw [hnames]
    simp only [entityImport, hname]
    decide
  · obtain ⟨members, inner, hread⟩ := exists_module?_concealingModule
    rw [← hmodule] at hread
    exact ⟨_, hread, rfl, rfl⟩

end Scaffold

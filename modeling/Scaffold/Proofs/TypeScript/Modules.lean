import Scaffold.Proofs.TypeScript.Requests

/-!
# The statements of generated modules

What is read from each kind of module, as long as all names in it are identifiers and all texts are
on one line.
-/

namespace Scaffold.TypeScript

open Naming

/-! ## Constants -/

theorem unlines_blockLines (header close : String) (items : List String) :
    unlines (blockLines "" header close items) =
      header ++ "\n" ++ unlines (items.map ("  " ++ ·)) ++ (close ++ "\n") := by
  rw [blockLines, unlines_append, unlines_append, unlines_singleton, unlines_singleton,
    String.empty_append, String.empty_append, String.empty_append]

theorem map_blockLines (margin header close : String) (items : List String) :
    (blockLines "" header close items).map (margin ++ ·) =
      blockLines margin header close items := by
  simp [blockLines, String.append_assoc]

/-- An object in braces on lines of its own. -/
theorem reads_constant {name body back : String} {inner ps : List Piece}
    (hname : isIdentifier name = true) (hbody : language.Reads body inner)
    (hback : language.Spells back ps) :
    language.Reads
      ("export const " ++ name ++ " = " ++ "\x7b" ++ "\n" ++ body ++ ("\x7d" ++ back ++ "\n"))
      ([.word "export", .word "const", .word name, .mark '='] ++ [.group '\x7b' inner] ++ ps) := by
  have hexport : language.Reads "export const " [.word "export", .word "const"] := fun _ ↦ rfl
  have hassign : language.Reads " = " [.mark '='] := fun _ ↦ rfl
  have hopening : "\x7b".toList = ['\x7b'] := rfl
  have hending : "\x7d".toList = ['\x7d'] := rfl
  have hfront := (hexport.append_spells (spells_identifier hname)).append_reads
    (Language.stopsAt_of_head rfl ⟨rfl, rfl⟩) (by decide) hassign
  exact braces.reads_block hopening hending hfront hbody hback

theorem declares_asConst {name body : String} {inner : List Piece}
    (hname : isIdentifier name = true) (hbody : language.Reads body inner) :
    Declares ("export const " ++ name ++ " = " ++ "\x7b" ++ "\n" ++ body ++
      ("\x7d" ++ " as const;" ++ "\n")) [.constant name inner] := by
  have hback : language.Reads " as const;" [.word "as", .word "const", .mark ';'] := fun _ ↦ rfl
  exact declares_fixed hname (reads_constant hname hbody hback.spells)

/-- The lines of an object, one for each entry. -/
theorem reads_entries {α : Type} {items : List α} {line : α → String} {read : α → List Piece}
    {margin : String} (hmargin : language.Reads margin [])
    (h : ∀ a ∈ items, language.Spells (line a) (read a)) :
    language.Reads (unlines ((items.map line).map (margin ++ ·))) (items.flatMap read) := by
  rw [List.map_map]
  exact Language.reads_unlines fun a ha ↦ hmargin.append_spells (h a ha)

/-! ## The module of an entity -/

namespace EntityModule

/-- Whether all names of a module are identifiers, and all of its texts are on one line. -/
structure Readable (m : EntityModule) : Prop where
  entity : isIdentifier m.entity = true
  stem : isIdentifier m.stem = true
  record : isIdentifier m.record.name = true ∧ ∀ member ∈ m.record.members, member.Readable
  input : isIdentifier m.input.name = true ∧ ∀ member ∈ m.input.members, member.Readable
  routes : ∀ r ∈ m.routes, IsBare r.method.toList ∧ OnOneLine r.path.toList
  remote : ∀ r ∈ m.remote, OnOneLine r.baseUrl.toList ∧
    ∀ op, OnOneLine (r.routes.ofOperation op).toList

variable {m : EntityModule} {heading : String}

/-- The line on updates declares a type. -/
theorem declares_updateLine (h : m.Readable) :
    Declares (m.updateLine ++ "\n") [.type (updateInput m.entity)] := by
  have hfront : language.Reads "export type " [.word "export", .word "type"] := fun _ ↦ rfl
  have hpartial : language.Reads " = Partial<" [.mark '=', .word "Partial", .mark '<'] :=
    fun _ ↦ rfl
  have hend : language.Reads ">;" [.mark '>', .mark ';'] := fun _ ↦ rfl
  have hupdate := (isIdentifier_input h.entity).2
  have hline := (((hfront.append_spells (spells_identifier hupdate)).append_reads
    (Language.stopsAt_of_head rfl ⟨rfl, rfl⟩) (by decide) hpartial).append_spells
    (spells_identifier h.input.1)).append_reads (Language.stopsAt_of_head rfl ⟨rfl, rfl⟩)
    (by decide) hend
  have hread : language.Reads (m.updateLine ++ "\n") [.word "export", .word "type",
      .word (updateInput m.entity), .mark '=', .word "Partial", .mark '<', .word m.input.name,
      .mark '>', .mark ';'] := by
    have hcode : "export type " ++ updateInput m.entity ++ " = Partial<" ++ m.input.name ++ ">;" =
        m.updateLine := rfl
    rw [← hcode]
    exact hline.spells.reads_line
  exact declares_statement hread (fun _ ↦ rfl) (if_pos hupdate)

def routePieces (m : EntityModule) : List Piece :=
  m.routes.flatMap fun r ↦ entryPieces r.operation.name [.group '\x7b' r.inner]

theorem requests?_routePieces (m : EntityModule) :
    requests? route? m.routePieces =
      some (m.routes.map fun r ↦ (r.operation.name, r.method, r.path)) :=
  requests?_flatMap (fun r _ ↦ isIdentifier_operation r.operation)
    (fun _ _ ↦ List.forall_mem_singleton.mpr rfl) fun r _ ↦ r.route?_inner

/-- The lines on routes declare a constant with one entry for each route. -/
theorem declares_routeLines (h : m.Readable) :
    Declares (unlines m.routeLines) [.constant (m.stem ++ "Routes") m.routePieces] := by
  have hindent : language.Reads "  " [] := fun _ ↦ rfl
  have hbody := reads_entries hindent
    fun r hr ↦ Route.spells_render (h.routes r hr).1 (h.routes r hr).2
  have hname : isIdentifier (m.stem ++ "Routes") = true := isIdentifier_append h.stem rfl
  have hconstant := declares_asConst hname hbody
  have hlines : unlines m.routeLines = "export const " ++ (m.stem ++ "Routes") ++ " = " ++ "\x7b" ++
      "\n" ++ unlines ((m.routes.map Route.render).map ("  " ++ ·)) ++
        ("\x7d" ++ " as const;" ++ "\n") := by
    rw [routeLines, unlines_blockLines]
    simp [toString, String.append_assoc]
  rw [hlines]
  exact hconstant

def endpointsCode (r : Remote) : String :=
  unlines (blockLines "  " ("endpoints: " ++ "\x7b") ("\x7d" ++ ",")
    (Operation.all.map fun op ↦ op.name ++ ": " ++ quoteText (r.routes.ofOperation op) ++ ","))

theorem exists_reads_endpointsCode {r : Remote}
    (h : ∀ op, OnOneLine (r.routes.ofOperation op).toList) :
    ∃ ps, language.Reads (endpointsCode r) ps := by
  have hindent : language.Reads "  " [] := fun _ ↦ rfl
  have hendpoints : language.Reads "endpoints: " [.word "endpoints", .mark ':'] := fun _ ↦ rfl
  have hcomma : language.Reads "," [.mark ','] := fun _ ↦ rfl
  exact ⟨_, reads_blockLines hindent hendpoints (fun op (_ : op ∈ Operation.all) ↦
    spells_entry (isIdentifier_operation op) (spells_quoteText (h op))) hcomma.spells⟩

theorem unlines_sourceLines (stem : String) (r : Remote) :
    unlines (sourceLines stem r) = "export const " ++ (stem ++ "Source") ++ " = " ++ "\x7b" ++
      "\n" ++
        ("  " ++ ("baseUrl" ++ ": " ++ quoteText r.baseUrl ++ ",") ++ "\n" ++ endpointsCode r) ++
        ("\x7d" ++ " as const;" ++ "\n") := by
  rw [sourceLines, unlines_blockLines, List.map_cons, map_blockLines, ← List.singleton_append,
    unlines_append, unlines_singleton, endpointsCode]
  simp [toString, String.append_assoc]

theorem exists_declares_source {stem : String} (hstem : isIdentifier stem = true) {r : Remote}
    (hurl : OnOneLine r.baseUrl.toList)
    (hpaths : ∀ op, OnOneLine (r.routes.ofOperation op).toList) :
    ∃ inner, Declares (unlines (sourceLines stem r)) [.constant (stem ++ "Source") inner] := by
  have hindent : language.Reads "  " [] := fun _ ↦ rfl
  have hname : isIdentifier (stem ++ "Source") = true := isIdentifier_append hstem rfl
  have hkey : isIdentifier "baseUrl" = true := rfl
  have hbase := hindent.append_spells (spells_entry hkey (spells_quoteText hurl))
  obtain ⟨ps, hendpoints⟩ := exists_reads_endpointsCode hpaths
  rw [unlines_sourceLines]
  exact ⟨_, declares_asConst hname (hbase.reads_line.append hendpoints)⟩

def statements (m : EntityModule) : List Statement :=
  [.interface m.record.name (m.record.members.map Member.definition),
    .interface m.input.name (m.input.members.map Member.definition),
    .type (updateInput m.entity), .constant (m.stem ++ "Routes") m.routePieces]

/-- The module of an entity declares its statements, and its source where it has one. -/
theorem exists_declares (h : m.Readable)
    (hheading : language.Reads (unlines (headingLines heading)) []) :
    ∃ source : Option (List Piece), Declares (m.render heading)
      (m.statements ++ (source.map (.constant (m.stem ++ "Source"))).toList) := by
  have hblank : Declares "\n" [] := declares_nothing Language.reads_nil.spells.reads_line
  have hlines : Declares (unlines (m.lines heading)) m.statements := by
    have hupdate := (hblank.append (declares_updateLine h)).append hblank
    have hrecord := (declares_nothing hheading).append (Interface.declares h.record.1 h.record.2)
    have hinput := (hrecord.append hblank).append (Interface.declares h.input.1 h.input.2)
    have hroutes := (hinput.append hupdate).append (declares_routeLines h)
    have hmiddle : unlines ["", m.updateLine, ""] = "\n" ++ (m.updateLine ++ "\n") ++ "\n" := by
      apply String.toList_inj.mp
      simp [unlines]
    rw [lines, unlines_append, unlines_append, unlines_append, unlines_append, unlines_append,
      hmiddle]
    exact hroutes
  rw [render_eq, unlines_append]
  cases hremote : m.remote with
  | none => exact ⟨none, hlines.append (declares_nothing Language.reads_nil)⟩
  | some r =>
      obtain ⟨hurl, hpaths⟩ := h.remote r hremote
      obtain ⟨inner, hsource⟩ := exists_declares_source h.stem hurl hpaths
      refine ⟨some inner, hlines.append ?_⟩
      rw [Option.map_some, Option.getD_some, ← List.singleton_append, unlines_append]
      exact hblank.append hsource

end EntityModule

/-! ## Modules that refer to others -/

/-- An import of types is read as such. -/
theorem TypeImport.declares {i : TypeImport} (hne : i.names ≠ [])
    (hnames : ∀ name ∈ i.names, isIdentifier name = true) (hmodule : IsBare i.module.toList) :
    Declares (i.render ++ "\n") [.importTypes i.names i.module] := by
  let inner : List Piece := [.mark ','].intercalate (i.names.map fun name ↦ [.word name])
  have hcomma : language.Reads ", " [.mark ','] := fun _ ↦ rfl
  have hspace : language.Reads " " [] := fun _ ↦ rfl
  have hlist : language.Spells (", ".intercalate i.names) inner := by
    have hall := Language.spells_intercalate hcomma (Language.stopsAt_of_head rfl ⟨rfl, rfl⟩)
      (by decide) fun name hname ↦ spells_identifier (hnames name hname)
    rwa [List.map_id'] at hall
  have hopening : "\x7b".toList = ['\x7b'] := rfl
  have hending : "\x7d".toList = ['\x7d'] := rfl
  have hgroup := braces.reads hopening hending (hspace.append_spells hlist).reads_space.spells
  have hfront : language.Reads "import type " [.word "import", .word "type"] := fun _ ↦ rfl
  have hfrom : language.Reads " from " [.word "from"] := fun _ ↦ rfl
  have hend : language.Reads ";" [.mark ';'] := fun _ ↦ rfl
  have hline := ((hfront.append hgroup).append hfrom).append_spells
    (spells_quoteText hmodule.onOneLine) |>.append_reads (Language.stopsAt_of_head rfl ⟨rfl, rfl⟩)
      (by decide) hend
  have hcode : "import type " ++ ("\x7b" ++ (" " ++ ", ".intercalate i.names ++ " ") ++ "\x7d") ++
      " from " ++ quoteText i.module ++ ";" = i.render := by
    have hbefore : "import type \x7b " = "import type " ++ "\x7b" ++ " " := rfl
    have hbetween : " \x7d from '" = " " ++ "\x7d" ++ " from " ++ "'" := rfl
    have hbehind : "';" = "'" ++ ";" := rfl
    rw [quoteText_of_isBare hmodule]
    unfold render
    simp only [hbefore, hbetween, hbehind, String.append_assoc]
  have hread : language.Reads (i.render ++ "\n") [.word "import", .word "type",
      .group '\x7b' inner, .word "from", .text i.module, .mark ';'] := by
    rw [← hcode]
    exact hline.spells.reads_line
  have hparts : (splitAt ',' inner).mapM name? = some i.names := by
    have hlacks : ∀ ps ∈ i.names.map fun name ↦ [Piece.word name], Lacks ',' ps :=
      List.forall_mem_map.mpr fun _ _ ↦ List.forall_mem_singleton.mpr rfl
    rw [splitAt_intercalate (by simpa using hne) hlacks]
    have hread : ∀ name ∈ i.names, name? [.word name] = some (id name) :=
      fun name hname ↦ if_pos (hnames name hname)
    rw [mapM_of_forall hread, List.map_id]
  have hstatement : statement? [.word "import", .word "type", .group '\x7b' inner, .word "from",
      .text i.module] = some (.importTypes i.names i.module) := by
    change ((splitAt ',' inner).mapM name?).map (Statement.importTypes · i.module) = _
    rw [hparts]
    rfl
  exact declares_statement hread (fun _ ↦ rfl) hstatement

/-- A line that exports a module is read as such. -/
theorem declares_exportLine {module : String} (h : IsBare module.toList) :
    Declares (s!"export * from '{module}';" ++ "\n") [.exportAll module] := by
  have hfront : language.Reads "export * from " [.word "export", .mark '*', .word "from"] :=
    fun _ ↦ rfl
  have hend : language.Reads ";" [.mark ';'] := fun _ ↦ rfl
  have hline := (hfront.append_spells (spells_quoteText h.onOneLine)).append_reads
    (Language.stopsAt_of_head rfl ⟨rfl, rfl⟩) (by decide) hend
  have hread : language.Reads (s!"export * from '{module}';" ++ "\n")
      [.word "export", .mark '*', .word "from", .text module, .mark ';'] := by
    have hcode : "export * from " ++ quoteText module ++ ";" = s!"export * from '{module}';" := by
      rw [quoteText_of_isBare h]
      apply String.toList_inj.mp
      simp [toString]
    rw [← hcode]
    exact hline.spells.reads_line
  exact declares_statement hread (fun _ ↦ rfl) rfl

/-! ## The module of the interface -/

/-- A list of texts in brackets. -/
theorem exists_spells_textList {texts : List String} (h : ∀ s ∈ texts, OnOneLine s.toList) :
    ∃ ps, language.Spells ("[" ++ quoteTexts texts ++ "]") ps := by
  have hcomma : language.Reads ", " [.mark ','] := fun _ ↦ rfl
  have hopening : "[".toList = ['['] := rfl
  have hending : "]".toList = [']'] := rfl
  have htexts := Language.spells_intercalate hcomma (Language.stopsAt_of_head rfl ⟨rfl, rfl⟩)
    (by decide) fun s hs ↦ spells_quoteText (h s hs)
  exact ⟨_, (squareBrackets.reads hopening hending htexts).spells⟩

structure Setting where
  key : String
  value : String

namespace Setting

def code (s : Setting) : String := s.key ++ ": " ++ s.value

def objectCode (settings : List Setting) : String :=
  "\x7b" ++ (" " ++ ", ".intercalate (settings.map code) ++ " ") ++ "\x7d"

structure Readable (s : Setting) : Prop where
  key : isIdentifier s.key = true
  value : ∃ ps, language.Spells s.value ps

theorem readable_flag {key : String} (hkey : isIdentifier key = true) (b : Bool) :
    Readable ⟨key, flag b⟩ :=
  ⟨hkey, _, spells_flag b⟩

theorem exists_spells_code {s : Setting} (h : s.Readable) : ∃ ps, language.Spells s.code ps := by
  obtain ⟨ps, hps⟩ := h.value
  have hcolon : language.Reads ": " [.mark ':'] := fun _ ↦ rfl
  exact ⟨_, ((spells_identifier h.key).append_reads (Language.stopsAt_of_head rfl ⟨rfl, rfl⟩)
    (by decide) hcolon).append_spells hps⟩

theorem exists_spells_objectCode {settings : List Setting} (h : ∀ s ∈ settings, s.Readable) :
    ∃ ps, language.Spells (objectCode settings) ps := by
  choose! ps hps using fun s hs ↦ exists_spells_code (h s hs)
  have hspace : language.Reads " " [] := fun _ ↦ rfl
  have hcomma : language.Reads ", " [.mark ','] := fun _ ↦ rfl
  have hopening : "\x7b".toList = ['\x7b'] := rfl
  have hending : "\x7d".toList = ['\x7d'] := rfl
  have hinner := hspace.append_spells
    (Language.spells_intercalate hcomma (Language.stopsAt_of_head rfl ⟨rfl, rfl⟩) (by decide) hps)
  exact ⟨_, (braces.reads hopening hending hinner.reads_space.spells).spells⟩

end Setting

namespace IndexModule

def settings (m : IndexModule) : List Setting :=
  [⟨"mode", quoteText m.mode.name⟩,
    ⟨"auth", Setting.objectCode [⟨"enabled", flag m.signIn.enabled⟩,
      ⟨"providers", "[" ++ quoteTexts m.signIn.providers ++ "]"⟩]⟩,
    ⟨"defaultLocale", quoteText m.locales.default⟩,
    ⟨"locales", "[" ++ quoteTexts m.locales.all ++ "]"⟩] ++
    (m.tenantField.map fun field ↦ ⟨"tenantField", quoteText field⟩).toList ++
    [⟨"observability", Setting.objectCode [⟨"logging", flag m.telemetry.logging⟩,
      ⟨"metrics", flag m.telemetry.metrics⟩, ⟨"tracing", flag m.telemetry.tracing⟩]⟩]

theorem configLines_eq (m : IndexModule) :
    m.configLines = m.settings.map fun s ↦ s.code ++ "," := by
  cases htenant : m.tenantField <;>
    simp [configLines, settings, htenant, Setting.code, Setting.objectCode, toString,
      ← String.toList_inj]

structure Readable (m : IndexModule) : Prop where
  modules : ∀ module ∈ m.modules, IsBare module.toList
  providers : ∀ s ∈ m.signIn.providers, OnOneLine s.toList
  locale : OnOneLine m.locales.default.toList
  locales : ∀ s ∈ m.locales.all, OnOneLine s.toList
  tenant : ∀ s ∈ m.tenantField, OnOneLine s.toList

variable {m : IndexModule} {heading : String}

theorem isIdentifier_key_settings (m : IndexModule) :
    ∀ s ∈ m.settings, isIdentifier s.key = true := by
  cases htenant : m.tenantField with
  | none =>
      simp only [settings, htenant, Option.map_none, Option.toList_none, List.append_nil,
        List.cons_append, List.nil_append, List.forall_mem_cons]
      exact ⟨rfl, rfl, rfl, rfl, rfl, List.forall_mem_nil _⟩
  | some field =>
      simp only [settings, htenant, Option.map_some, Option.toList_some,
        List.cons_append, List.nil_append, List.forall_mem_cons]
      exact ⟨rfl, rfl, rfl, rfl, rfl, rfl, List.forall_mem_nil _⟩

/-- Every setting of a module that can be read has a value that can be read. -/
theorem exists_spells_value_settings (h : m.Readable) :
    ∀ s ∈ m.settings, ∃ ps, language.Spells s.value ps := by
  have hmode : OnOneLine m.mode.name.toList := by
    cases m.mode <;> exact ⟨by decide, by decide⟩
  have henabled := Setting.readable_flag (rfl : isIdentifier "enabled" = true) m.signIn.enabled
  have hkey : isIdentifier "providers" = true := rfl
  have hproviders : Setting.Readable
      ⟨"providers", "[" ++ quoteTexts m.signIn.providers ++ "]"⟩ :=
    ⟨hkey, exists_spells_textList h.providers⟩
  have hlogging := Setting.readable_flag (rfl : isIdentifier "logging" = true) m.telemetry.logging
  have hmetrics := Setting.readable_flag (rfl : isIdentifier "metrics" = true) m.telemetry.metrics
  have htracing := Setting.readable_flag (rfl : isIdentifier "tracing" = true) m.telemetry.tracing
  have htenant : ∀ s ∈ (m.tenantField.map fun field ↦
      (⟨"tenantField", quoteText field⟩ : Setting)).toList, ∃ ps, language.Spells s.value ps := by
    intro s hs
    obtain ⟨field, hfield, rfl⟩ := Option.map_eq_some_iff.mp (Option.mem_toList.mp hs)
    exact ⟨_, spells_quoteText (h.tenant field hfield)⟩
  simp only [settings, List.forall_mem_append, List.forall_mem_cons]
  exact ⟨⟨⟨⟨_, spells_quoteText hmode⟩,
    Setting.exists_spells_objectCode (by simp [henabled, hproviders]),
    ⟨_, spells_quoteText h.locale⟩, exists_spells_textList h.locales, List.forall_mem_nil _⟩,
    htenant⟩, Setting.exists_spells_objectCode (by simp [hlogging, hmetrics, htracing]),
    List.forall_mem_nil _⟩

/-- The settings are declared as a constant. -/
theorem exists_declares_config (h : m.Readable) :
    ∃ inner, Declares (unlines (blockLines "" "export const config = \x7b" "\x7d as const;"
      m.configLines)) [.constant "config" inner] := by
  choose! ps hps using fun s hs ↦ Setting.exists_spells_code
    ⟨isIdentifier_key_settings m s hs, exists_spells_value_settings h s hs⟩
  have hindent : language.Reads "  " [] := fun _ ↦ rfl
  have hcomma : language.Reads "," [.mark ','] := fun _ ↦ rfl
  have hname : isIdentifier "config" = true := rfl
  have hentries := reads_entries hindent fun s hs ↦
    (hps s hs).append (Language.stopsAt_of_head rfl ⟨rfl, rfl⟩) hcomma.spells
  have hconfig := declares_asConst hname hentries
  rw [← configLines_eq] at hconfig
  rw [unlines_blockLines]
  exact ⟨_, hconfig⟩

theorem exists_declares (h : m.Readable)
    (hheading : language.Reads (unlines (headingLines heading)) []) :
    ∃ inner, Declares (m.render heading)
      (m.modules.map .exportAll ++ [.constant "config" inner]) := by
  obtain ⟨inner, hconfig⟩ := exists_declares_config h
  have hexports : Declares (unlines m.exportLines) (m.modules.map .exportAll) :=
    declares_unlines fun module hmodule ↦ declares_exportLine (h.modules module hmodule)
  have hblanks : Declares (unlines (if !m.modules.isEmpty then [""] else [])) [] := by
    split
    · exact declares_nothing Language.reads_nil.spells.reads_line
    · exact declares_nothing Language.reads_nil
  have hmodule := ((declares_nothing hheading).append hexports).append (hblanks.append hconfig)
  rw [render_eq, lastLines, unlines_append, unlines_append, unlines_append]
  exact ⟨inner, hmodule⟩

end IndexModule

/-! ## The module of hooks -/

namespace HookModule

variable {m : HookModule} {heading : String}

def methodCode (name parameters type : String) : String :=
  "async " ++ name ++ ("(" ++ parameters ++ ")") ++ ": Promise<" ++ type ++ "> "

/-- A method of plain names can be read. -/
theorem exists_reads_methodCode {name parameters type : String} (hname : isIdentifier name = true)
    {ps : List Piece} (hparameters : language.Spells parameters ps)
    (htype : isIdentifier type = true) :
    ∃ qs, language.Reads (methodCode name parameters type) qs := by
  have hasync : language.Reads "async " [.word "async"] := fun _ ↦ rfl
  have hpromise : language.Reads ": Promise<" [.mark ':', .word "Promise", .mark '<'] :=
    fun _ ↦ rfl
  have hend : language.Reads "> " [.mark '>'] := fun _ ↦ rfl
  have hopening : "(".toList = ['('] := rfl
  have hending : ")".toList = [')'] := rfl
  have hstops : language.StopsAt ("(" ++ parameters ++ ")") := by
    rw [String.append_assoc]
    have hhead : "(".toList.head? = some '(' := rfl
    exact Language.stopsAt_append (Language.stopsAt_of_head hhead ⟨rfl, rfl⟩) (by decide) _
  have hfront := (hasync.append_spells (spells_identifier hname)).append_reads hstops (by simp)
    (parentheses.reads hopening hending hparameters)
  exact ⟨_, ((hfront.append hpromise).append_spells (spells_identifier htype)).append_reads
    (Language.stopsAt_of_head rfl ⟨rfl, rfl⟩) (by decide) hend⟩

def bodyCode (m : HookModule) : String :=
  unlines (blockLines "  "
    (methodCode "beforeCreate" ("input: " ++ createInput m.entity) (createInput m.entity) ++ "\x7b")
    ("\x7d" ++ ",") ["return input;"]) ++
  unlines (blockLines "  "
    (methodCode "beforeUpdate" ("id: string, input: " ++ updateInput m.entity)
      (updateInput m.entity) ++ "\x7b") ("\x7d" ++ ",") ["return input;"]) ++
  ("  " ++ methodCode "afterWrite" ("record: " ++ m.entity) "void" ++ ("\x7b" ++ "" ++ "\x7d") ++
    "," ++ "\n")

/-- The hooks of an entity are an exported constant. -/
theorem unlines_lastLines (m : HookModule) :
    unlines m.lastLines = "\n" ++ ("export const " ++ (m.stem ++ "Hooks") ++ " = " ++ "\x7b" ++
      "\n" ++ m.bodyCode ++ ("\x7d" ++ ";" ++ "\n")) := by
  let create := createInput m.entity
  let update := updateInput m.entity
  have hcreate : s!"async beforeCreate(input: {create}): Promise<{create}> \x7b" =
      methodCode "beforeCreate" ("input: " ++ create) create ++ "\x7b" := by
    simp [methodCode, toString, ← String.toList_inj]
  have hupdate : s!"async beforeUpdate(id: string, input: {update}): Promise<{update}> \x7b" =
      methodCode "beforeUpdate" ("id: string, input: " ++ update) update ++ "\x7b" := by
    simp [methodCode, toString, ← String.toList_inj]
  have hwrite : s!"async afterWrite(record: {m.entity}): Promise<void> \x7b\x7d," =
      methodCode "afterWrite" ("record: " ++ m.entity) "void" ++ ("\x7b" ++ "" ++ "\x7d") ++
        "," := by
    simp [methodCode, toString, ← String.toList_inj]
  have hheader : s!"export const {m.stem}Hooks = \x7b" =
      "export const " ++ (m.stem ++ "Hooks") ++ " = " ++ "\x7b" := by
    simp [toString, ← String.toList_inj]
  have hreturn : "    return input;" = "  " ++ "  " ++ "return input;" := rfl
  have hclose : "  \x7d," = "  " ++ ("\x7d" ++ ",") := rfl
  have hlast : "\x7d;" = "\x7d" ++ ";" := rfl
  simp only [lastLines, hcreate, hupdate, hwrite, hheader, hreturn, hclose, hlast, bodyCode,
    blockLines, create, update]
  simp only [unlines, List.map_cons, List.map_nil, List.cons_append, List.nil_append,
    String.join_cons, String.join_nil, String.append_assoc, String.empty_append,
    String.append_empty]

/-- The three hooks of an entity with a plain name can be read. -/
theorem exists_reads_bodyCode (h : isIdentifier m.entity = true) :
    ∃ inner, language.Reads m.bodyCode inner := by
  have hindent : language.Reads "  " [] := fun _ ↦ rfl
  have hinput : language.Reads "input: " [.word "input", .mark ':'] := fun _ ↦ rfl
  have hboth : language.Reads "id: string, input: " [.word "id", .mark ':', .word "string",
    .mark ',', .word "input", .mark ':'] := fun _ ↦ rfl
  have hrecord : language.Reads "record: " [.word "record", .mark ':'] := fun _ ↦ rfl
  have hcomma : language.Reads "," [.mark ','] := fun _ ↦ rfl
  have hreturn : language.Reads "return input;" [.word "return", .word "input", .mark ';'] :=
    fun _ ↦ rfl
  have hopening : "\x7b".toList = ['\x7b'] := rfl
  have hending : "\x7d".toList = ['\x7d'] := rfl
  obtain ⟨hcreate, hupdate⟩ := isIdentifier_input h
  have hnames : isIdentifier "beforeCreate" = true ∧ isIdentifier "beforeUpdate" = true ∧
    isIdentifier "afterWrite" = true ∧ isIdentifier "void" = true := ⟨rfl, rfl, rfl, rfl⟩
  obtain ⟨create, hbefore⟩ := exists_reads_methodCode hnames.1
    (hinput.append_spells (spells_identifier hcreate)) hcreate
  obtain ⟨update, hupdating⟩ := exists_reads_methodCode hnames.2.1
    (hboth.append_spells (spells_identifier hupdate)) hupdate
  obtain ⟨write, hafter⟩ := exists_reads_methodCode hnames.2.2.1
    (hrecord.append_spells (spells_identifier h)) hnames.2.2.2
  have hbody : ∀ s ∈ ["return input;"], language.Spells (id s)
      [.word "return", .word "input", .mark ';'] := List.forall_mem_singleton.mpr hreturn.spells
  have hfirst := reads_blockLines hindent hbefore hbody hcomma.spells
  have hsecond := reads_blockLines hindent hupdating hbody hcomma.spells
  have hthird := ((hindent.append hafter).append
    (braces.reads hopening hending Language.reads_nil.spells)).append hcomma |>.spells.reads_line
  exact ⟨_, (hfirst.append hsecond).append hthird⟩

theorem exists_declares (hentity : isIdentifier m.entity = true)
    (hstem : isIdentifier m.stem = true) (hne : m.types.names ≠ [])
    (hnames : ∀ name ∈ m.types.names, isIdentifier name = true)
    (hmodule : IsBare m.types.module.toList)
    (hheading : language.Reads (unlines (headingLines heading)) []) :
    ∃ inner, Declares (m.render heading)
      [.importTypes m.types.names m.types.module, .constant (m.stem ++ "Hooks") inner] := by
  obtain ⟨inner, hbody⟩ := exists_reads_bodyCode hentity
  have hblank : Declares "\n" [] := declares_nothing Language.reads_nil.spells.reads_line
  have hend : language.Reads ";" [.mark ';'] := fun _ ↦ rfl
  have hname : isIdentifier (m.stem ++ "Hooks") = true := isIdentifier_append hstem rfl
  have hhooks := declares_constant hname (reads_constant hname hbody hend.spells)
  have himport := TypeImport.declares hne hnames hmodule
  have hall := ((declares_nothing hheading).append himport).append (hblank.append hhooks)
  rw [render_eq, unlines_append, unlines_append, unlines_singleton, unlines_lastLines]
  exact ⟨inner, hall⟩

end HookModule

/-! ## The module of the client -/

namespace CallGroup

def requests (g : CallGroup) : List (String × String × String) :=
  g.calls.map fun c ↦ (c.operation.name, c.method, c.path)

structure Readable (g : CallGroup) : Prop where
  key : isIdentifier g.key = true
  calls : ∀ c ∈ g.calls,
    isIdentifier c.entity = true ∧ IsBare c.method.toList ∧ IsBare c.path.toList

/-- A group of calls is read as its requests, under its key. -/
theorem exists_inner {g : CallGroup} (h : g.Readable) :
    ∃ inner, language.Reads (unlines (ClientModule.groupLines g))
      (entryPieces g.key [.group '\x7b' inner]) ∧ requests? call? inner = some g.requests := by
  choose! value hspells hlacks hcall using fun c hc ↦
    Call.exists_value (h.calls c hc).1 (h.calls c hc).2.1 (h.calls c hc).2.2
  have hindent : language.Reads "    " [] := fun _ ↦ rfl
  have hcolon : language.Reads ": " [.mark ':'] := fun _ ↦ rfl
  have hcomma : language.Reads "," [.mark ','] := fun _ ↦ rfl
  have hkey := (spells_identifier h.key).append_reads (Language.stopsAt_of_head rfl ⟨rfl, rfl⟩)
    (by decide) hcolon
  have hblock := reads_blockLines hindent hkey hspells hcomma.spells
  have hlines : blockLines "    " (g.key ++ ": " ++ "\x7b") ("\x7d" ++ ",")
      (g.calls.map Call.render) = ClientModule.groupLines g := by
    simp [ClientModule.groupLines, toString, String.append_assoc]
  rw [hlines] at hblock
  exact ⟨_, hblock, requests?_flatMap (fun c _ ↦ isIdentifier_operation c.operation) hlacks hcall⟩

end CallGroup

namespace ClientModule

structure Readable (m : ClientModule) : Prop where
  imports : ∀ i ∈ m.imports, i.names ≠ [] ∧ (∀ name ∈ i.names, isIdentifier name = true) ∧
    IsBare i.module.toList
  groups : ∀ g ∈ m.groups, g.Readable

variable {m : ClientModule} {heading : String}

def fetcherLines : List String :=
  ["export type Fetcher = <T>(method: string, path: string, body?: unknown) => Promise<T>;", ""]

/-- The lines in front of the function declare the type that it takes. -/
theorem declares_fetcherLines : Declares (unlines fetcherLines) [.type "Fetcher"] := by
  have hfront : language.Reads "export type Fetcher = <T>" [.word "export", .word "type",
      .word "Fetcher", .mark '=', .mark '<', .word "T", .mark '>'] := fun _ ↦ rfl
  have hmethod : language.Reads "method: string, "
      [.word "method", .mark ':', .word "string", .mark ','] := fun _ ↦ rfl
  have hpath : language.Reads "path: string, "
      [.word "path", .mark ':', .word "string", .mark ','] := fun _ ↦ rfl
  have hbody : language.Spells "body?: unknown"
      ([.word "body", .mark '?', .mark ':'] ++ [.word "unknown"]) :=
    Language.spells_of_word fun _ ↦ rfl
  have hback : language.Reads " => Promise<T>;" [.mark '=', .mark '>', .word "Promise", .mark '<',
      .word "T", .mark '>', .mark ';'] := fun _ ↦ rfl
  have hopening : "(".toList = ['('] := rfl
  have hending : ")".toList = [')'] := rfl
  have hinner := (hmethod.append hpath).append_spells hbody
  have hread := (hfront.append (parentheses.reads hopening hending hinner)).append hback
  have hcode : "export type Fetcher = <T>" ++
      ("(" ++ ("method: string, " ++ "path: string, " ++ "body?: unknown") ++ ")") ++
        " => Promise<T>;" =
        "export type Fetcher = <T>(method: string, path: string, body?: unknown) => Promise<T>;" :=
      by
    decide +kernel
  rw [hcode] at hread
  have hblank : Declares "\n" [] := declares_nothing Language.reads_nil.spells.reads_line
  have hline := declares_statement hread.spells.reads_line (fun _ ↦ rfl) rfl
  rw [fetcherLines, ← List.singleton_append, unlines_append, unlines_singleton, unlines_singleton]
  exact hline.append hblank

def functionLines (m : ClientModule) : List String :=
  ["export function createClient(fetcher: Fetcher) \x7b", "  return \x7b"] ++
    m.groups.flatMap groupLines ++ ["  \x7d;", "\x7d"]

/-- The function of the client is declared, and makes the requests of its groups. -/
theorem exists_declares_function (h : ∀ g ∈ m.groups, g.Readable) :
    ∃ body, Declares (unlines m.functionLines) [.function "createClient" body] ∧
      client? body = some (m.groups.map fun g ↦ (g.key, g.requests)) := by
  choose! inner hgroups hrequests using fun g hg ↦ CallGroup.exists_inner (h g hg)
  have hindent : language.Reads "  " [] := fun _ ↦ rfl
  have hopening : "\x7b".toList = ['\x7b'] := rfl
  have hending : "\x7d".toList = ['\x7d'] := rfl
  have hreturn : language.Reads "  return " [.word "return"] := fun _ ↦ rfl
  have hend : language.Reads ";" [.mark ';'] := fun _ ↦ rfl
  have hname : language.Spells "export function createClient"
      ([.word "export", .word "function"] ++ [.word "createClient"]) :=
    Language.spells_of_word fun _ ↦ rfl
  have hparameter : language.Spells "fetcher: Fetcher"
      ([.word "fetcher", .mark ':'] ++ [.word "Fetcher"]) := Language.spells_of_word fun _ ↦ rfl
  have hleft : "(".toList = ['('] := rfl
  have hright : ")".toList = [')'] := rfl
  have hparameters := (parentheses.reads hleft hright hparameter).spells.reads_space
  have hfunction := hname.append_reads
    (Language.stopsAt_of_head rfl ⟨rfl, rfl⟩) (by decide) hparameters
  have hcode : "export function createClient" ++ ("(" ++ "fetcher: Fetcher" ++ ")" ++ " ") =
      "export function createClient(fetcher: Fetcher) " := by
    decide +kernel
  rw [hcode] at hfunction
  have hobject := braces.reads_block hopening hending hreturn
    ((Language.reads_flatMap hgroups).append hindent) hend.spells
  rw [List.append_nil] at hobject
  have hread := braces.reads_block hopening hending hfunction hobject Language.reads_nil.spells
  have hlines : unlines m.functionLines = "export function createClient(fetcher: Fetcher) " ++
      "\x7b" ++ "\n" ++ ("  return " ++ "\x7b" ++ "\n" ++
        (unlines (m.groups.flatMap groupLines) ++ "  ") ++ ("\x7d" ++ ";" ++ "\n")) ++
      ("\x7d" ++ "" ++ "\n") := by
    rw [functionLines, unlines_append, unlines_append]
    simp only [String.append_assoc]
    rfl
  rw [← hlines] at hread
  refine ⟨_, declares_statement hread (fun _ ↦ rfl) rfl, ?_⟩
  have hfields := entries?_flatMap (fun g hg ↦ (h g hg).key)
    fun g (_ : g ∈ m.groups) ↦ List.forall_mem_singleton.mpr
      (rfl : Piece.isMark ',' (.group '\x7b' (inner g)) = false)
  change (entries? (m.groups.flatMap fun g ↦ entryPieces g.key [.group '\x7b' (inner g)])).bind
    (·.mapM fun e ↦ (group? e.2).map (e.1, ·)) = _
  rw [hfields, Option.bind_some]
  refine mapM_of_forall fun g hg ↦ ?_
  change (requests? call? (inner g)).map (g.key, ·) = _
  rw [hrequests g hg]
  rfl

/-- The client declares its imports, a type and a function with all requests. -/
theorem exists_declares (h : m.Readable)
    (hheading : language.Reads (unlines (headingLines heading)) []) :
    ∃ body, Declares (m.render heading)
      (m.imports.map (fun i ↦ .importTypes i.names i.module) ++
        [.type "Fetcher", .function "createClient" body]) ∧
      client? body = some (m.groups.map fun g ↦ (g.key, g.requests)) := by
  obtain ⟨body, hfunction, hclient⟩ := exists_declares_function h.groups
  have himports : Declares (unlines m.importLines)
      (m.imports.map fun i ↦ .importTypes i.names i.module) :=
    declares_unlines fun i hi ↦
      TypeImport.declares (h.imports i hi).1 (h.imports i hi).2.1 (h.imports i hi).2.2
  have hblanks : Declares (unlines (if !m.imports.isEmpty then [""] else [])) [] := by
    split
    · exact declares_nothing Language.reads_nil.spells.reads_line
    · exact declares_nothing Language.reads_nil
  have hall := ((declares_nothing hheading).append himports).append
    (hblanks.append (declares_fetcherLines.append hfunction))
  have hlines : headingLines heading ++ m.importLines ++ m.middleLines ++
      m.groups.flatMap groupLines ++ ["  \x7d;", "\x7d"] =
      headingLines heading ++ m.importLines ++ ((if !m.imports.isEmpty then [""] else []) ++
        (fetcherLines ++ m.functionLines)) := by
    simp only [middleLines, fetcherLines, functionLines, List.append_assoc, List.cons_append,
      List.nil_append]
  rw [render_eq, hlines, unlines_append, unlines_append, unlines_append, unlines_append]
  exact ⟨body, hall, hclient⟩

end ClientModule

end Scaffold.TypeScript

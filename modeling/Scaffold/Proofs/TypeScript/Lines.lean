import Scaffold.Proofs.Artifact.Lines
import Scaffold.TypeScript.Client
import Scaffold.TypeScript.Hook
import Scaffold.TypeScript.Index

/-!
# The lines of the modules

Each module is written under a heading as a list of lines, most of them in blocks.
-/

namespace Scaffold.TypeScript

open Code

def blockLines (margin header close : String) (items : List String) : List String :=
  [margin ++ header] ++ items.map (margin ++ "  " ++ ·) ++ [margin ++ close]

theorem writes_blockLines (header close : String) (items : List String) :
    Writes (·.block header close fun code ↦ code.each items line)
      fun margin ↦ blockLines margin header close items := by
  -- Named first: compared at once, the two statements are unfolded down to characters.
  have hblock := writes_block header close (writes_eachLine items)
  exact hblock

def headingLines (heading : String) : List String := ["// " ++ heading, ""]

theorem writes_heading (heading : String) :
    Writes (fun code ↦ (code.comment "//" heading).blank)
      fun margin ↦ [margin ++ ("//" ++ " " ++ heading)] ++ [""] :=
  (writes_comment "//" heading).trans writes_blank

def Interface.lines (i : Interface) : List String :=
  blockLines "" s!"export interface {i.name} \x7b" "\x7d" (i.members.map Member.render)

theorem Interface.writes (i : Interface) : Writes (Interface.write · i) fun margin ↦
    blockLines margin s!"export interface {i.name} \x7b" "\x7d" (i.members.map Member.render) :=
  writes_blockLines _ _ _

namespace EntityModule

def updateLine (m : EntityModule) : String :=
  s!"export type {updateInput m.entity} = Partial<{m.input.name}>;"

def routeLines (m : EntityModule) : List String :=
  blockLines "" s!"export const {m.stem}Routes = \x7b" "\x7d as const;" (m.routes.map Route.render)

def lines (heading : String) (m : EntityModule) : List String :=
  headingLines heading ++ m.record.lines ++ [""] ++ m.input.lines ++ ["", m.updateLine, ""] ++
    m.routeLines

def sourceLines (stem : String) (r : Remote) : List String :=
  blockLines "" s!"export const {stem}Source = \x7b" "\x7d as const;"
    (s!"baseUrl: {quoteText r.baseUrl}," :: blockLines "" "endpoints: \x7b" "\x7d,"
      (Operation.all.map fun op ↦ s!"{op.name}: {quoteText (r.routes.ofOperation op)},"))

/-- The module of an entity in lines, with those on its source at the end. -/
theorem render_eq (heading : String) (m : EntityModule) :
    m.render heading = unlines (m.lines heading ++
      (m.remote.map fun r ↦ "" :: sourceLines m.stem r).getD []) := by
  have hlines := ((((((writes_heading heading).trans m.record.writes).trans writes_blank).trans
    m.input.writes).trans writes_blank).trans (writes_line m.updateLine)).trans writes_blank
  have hroutes := hlines.trans (writes_blockLines s!"export const {m.stem}Routes = \x7b"
    "\x7d as const;" (m.routes.map Route.render))
  rw [render]
  cases m.remote with
  | none =>
      refine hroutes.text_eq.trans ?_
      simp [lines, headingLines, Interface.lines, routeLines]
  | some r =>
      have hendpoints := writes_each fun op (_ : op ∈ Operation.all) ↦
        writes_line s!"{op.name}: {quoteText (r.routes.ofOperation op)},"
      have hsource := writes_blank.trans (writes_block s!"export const {m.stem}Source = \x7b"
        "\x7d as const;" ((writes_line s!"baseUrl: {quoteText r.baseUrl},").trans
          (writes_block "endpoints: \x7b" "\x7d," hendpoints)))
      have hmargin (s : String) : "    " ++ s = "  " ++ ("  " ++ s) :=
        @String.append_assoc "  " "  " s
      refine (hroutes.trans hsource).text_eq.trans (congrArg unlines ?_)
      simp [lines, headingLines, Interface.lines, routeLines, sourceLines, blockLines,
        ← List.map_eq_flatMap, hmargin]

theorem exists_render_eq (heading : String) (m : EntityModule) :
    ∃ more, m.render heading = unlines (m.lines heading ++ more) :=
  ⟨_, m.render_eq heading⟩

end EntityModule

namespace IndexModule

def exportLines (m : IndexModule) : List String :=
  m.modules.map fun module ↦ s!"export * from '{module}';"

def lastLines (m : IndexModule) : List String :=
  (if !m.modules.isEmpty then [""] else []) ++
    blockLines "" "export const config = \x7b" "\x7d as const;" m.configLines

theorem render_eq (heading : String) (m : IndexModule) :
    m.render heading = unlines (headingLines heading ++ m.exportLines ++ m.lastLines) := by
  have hexports := writes_each fun module (_ : module ∈ m.modules) ↦
    writes_line s!"export * from '{module}';"
  have hlast := (writes_when (!m.modules.isEmpty) writes_blank).trans
    (writes_blockLines "export const config = \x7b" "\x7d as const;" m.configLines)
  refine (((writes_heading heading).trans hexports).trans hlast).text_eq.trans ?_
  simp [headingLines, exportLines, lastLines, List.map_eq_flatMap]

end IndexModule

namespace HookModule

def lastLines (m : HookModule) : List String :=
  let create := createInput m.entity
  let update := updateInput m.entity
  ["", s!"export const {m.stem}Hooks = \x7b",
    "  " ++ s!"async beforeCreate(input: {create}): Promise<{create}> \x7b",
    "    return input;", "  \x7d,",
    "  " ++ s!"async beforeUpdate(id: string, input: {update}): Promise<{update}> \x7b",
    "    return input;", "  \x7d,",
    "  " ++ s!"async afterWrite(record: {m.entity}): Promise<void> \x7b\x7d,", "\x7d;"]

theorem writes_identity (header : String) : Writes (writeIdentity · header) fun margin ↦
    [margin ++ header] ++ [margin ++ "  " ++ "return input;"] ++ [margin ++ "\x7d,"] := by
  have hblock := writes_block header "\x7d," (writes_line "return input;")
  exact hblock

/-- The module with the hooks of an entity in lines. -/
theorem render_eq (heading : String) (m : HookModule) :
    m.render heading = unlines (headingLines heading ++ [m.types.render] ++ m.lastLines) := by
  let create := createInput m.entity
  let update := updateInput m.entity
  have hcreate := writes_identity s!"async beforeCreate(input: {create}): Promise<{create}> \x7b"
  have hupdate := writes_identity
    s!"async beforeUpdate(id: string, input: {update}): Promise<{update}> \x7b"
  have hwrite := writes_line s!"async afterWrite(record: {m.entity}): Promise<void> \x7b\x7d,"
  have hhooks := writes_block s!"export const {m.stem}Hooks = \x7b" "\x7d;"
    ((hcreate.trans hupdate).trans hwrite)
  have hmodule := (((writes_heading heading).trans (writes_line m.types.render)).trans
    writes_blank).trans hhooks
  refine hmodule.text_eq.trans ?_
  simp [lastLines, headingLines, create, update]

end HookModule

namespace ClientModule

def importLines (m : ClientModule) : List String := m.imports.map TypeImport.render

def groupLines (g : CallGroup) : List String :=
  blockLines "    " s!"{g.key}: \x7b" "\x7d," (g.calls.map Call.render)

def middleLines (m : ClientModule) : List String :=
  (if !m.imports.isEmpty then [""] else []) ++
    ["export type Fetcher = <T>(method: string, path: string, body?: unknown) => Promise<T>;", "",
      "export function createClient(fetcher: Fetcher) \x7b", "  return \x7b"]

/-- The client in lines. -/
theorem render_eq (heading : String) (m : ClientModule) :
    m.render heading = unlines (headingLines heading ++ m.importLines ++ m.middleLines ++
      m.groups.flatMap groupLines ++ ["  \x7d;", "\x7d"]) := by
  have hgroups := writes_each fun g (_ : g ∈ m.groups) ↦
    writes_blockLines s!"{g.key}: \x7b" "\x7d," (g.calls.map Call.render)
  have hfunction := writes_block "export function createClient(fetcher: Fetcher) \x7b" "\x7d"
    (writes_block "return \x7b" "\x7d;" hgroups)
  have hfetcher := writes_line
    "export type Fetcher = <T>(method: string, path: string, body?: unknown) => Promise<T>;"
  have hmodule := (((((writes_heading heading).trans
    (writes_eachLine (m.imports.map TypeImport.render))).trans
    (writes_when (!m.imports.isEmpty) writes_blank)).trans hfetcher).trans writes_blank).trans
    hfunction
  have hgroup : groupLines =
      fun g ↦ blockLines "    " s!"{g.key}: \x7b" "\x7d," (g.calls.map Call.render) := rfl
  refine hmodule.text_eq.trans ?_
  simp [headingLines, importLines, middleLines, hgroup, Function.comp_def]

end ClientModule

end Scaffold.TypeScript

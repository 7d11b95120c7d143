import Scaffold.TypeScript.Type

/-!
# The module of the interface

It exports the modules of all entities again, and the settings of the application.
-/

namespace Scaffold.TypeScript

structure IndexModule where
  /-- The modules that are exported again. -/
  modules : List String
  mode : Mode
  signIn : SignIn
  locales : Locales
  tenantField : Option String
  telemetry : Telemetry
deriving DecidableEq, Repr

namespace IndexModule

def ofBlueprint (b : Blueprint) : IndexModule where
  modules := b.records.map fun r ↦ "./" ++ r.singular
  mode := b.mode
  signIn := b.signIn
  locales := b.locales
  tenantField := if b.tenant.enabled then some b.tenant.field else none
  telemetry := b.telemetry

def configLines (m : IndexModule) : List String :=
  [s!"mode: {quoteText m.mode.name},",
    s!"auth: \x7b enabled: {flag m.signIn.enabled}, providers: [" ++
      quoteTexts m.signIn.providers ++ "] \x7d,",
    s!"defaultLocale: {quoteText m.locales.default},",
    s!"locales: [" ++ quoteTexts m.locales.all ++ "],"] ++
    (m.tenantField.map fun field ↦ s!"tenantField: {quoteText field},").toList ++
    [s!"observability: \x7b logging: {flag m.telemetry.logging}, " ++
      s!"metrics: {flag m.telemetry.metrics}, tracing: {flag m.telemetry.tracing} \x7d,"]

def render (heading : String) (m : IndexModule) : String :=
  let code := (({} : Code).comment "//" heading).blank
  let code := code.each m.modules fun code module ↦ code.line s!"export * from '{module}';"
  let code := code.when (!m.modules.isEmpty) Code.blank
  (code.block "export const config = \x7b" "\x7d as const;" fun code ↦
    code.each m.configLines Code.line).text

end IndexModule

end Scaffold.TypeScript

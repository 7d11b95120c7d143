import Scaffold.Artifact.File
import Scaffold.Pattern.Program
import Scaffold.Pipeline.Context

/-!
# Pipelines

A manifest is compiled in phases: it is brought into normal form, validated and made into a
blueprint, and then further phases may follow.  Around each phase run the hooks of plugins.  Phases
and hooks may change the context and a world of their own, of type `σ`, and may fail.  A failure
ends the run; after diagnostics that are errors, no further phase is started.
-/

namespace Scaffold

/-- Something that changes the context and the world, or fails.  The world keeps the changes. -/
abbrev Effect (σ : Type) := Context → σ → Except Reasons Context × σ

def Effect.pure {σ : Type} (f : Context → Context) : Effect σ := fun c world ↦ (.ok (f c), world)

structure Phase (σ : Type) where
  name : String
  description : String
  run : Effect σ

structure Plugin (σ : Type) where
  name : String
  before : String → Effect σ
  after : String → Effect σ

structure Pipeline (σ : Type) where
  lints : List Lint := Lint.builtIn
  /-- The phases after the built-in ones. -/
  phases : List (Phase σ) := []
  plugins : List (Plugin σ) := []

/-- A step of a run: a hook of a plugin, or a phase itself. -/
inductive Event where
  | before (plugin phase : String)
  | phase (name : String)
  | after (plugin phase : String)
deriving DecidableEq, Repr

structure Step (σ : Type) where
  event : Event
  effect : Effect σ

/-- What a run comes to: the context or the reasons of a failure, the world, and the events that
have taken place, the failing one included. -/
structure Outcome (σ : Type) where
  result : Except Reasons Context
  world : σ
  events : List Event := []

namespace Pipeline

variable {σ : Type}

def builtIn [Pattern.Checker] : Pipeline σ := { lints := Lint.builtIn }

/-! ## The phases -/

def normalizePhase : Phase σ :=
  ⟨"normalize", "Merge defaults into the manifest",
    .pure fun c ↦ { c with normal := some c.manifest.normalize }⟩

def validatePhase (lints : List Lint) : Phase σ :=
  ⟨"validate", "Check manifest integrity and collect diagnostics",
    .pure fun c ↦ { c with diagnostics := c.diagnostics ++ Lint.run lints c.current }⟩

def resolvePhase : Phase σ :=
  ⟨"resolve", "Derive tables, columns, keys and endpoints",
    .pure fun c ↦ { c with blueprint := some (match c.normal with
      | some m => .ofNormal m
      | none => .ofManifest c.manifest) }⟩

def allPhases (p : Pipeline σ) : List (Phase σ) :=
  [normalizePhase, validatePhase p.lints, resolvePhase] ++ p.phases

/-! ## Running -/

/-- The steps of a phase: the hooks before it, the phase, and the hooks after it. -/
def steps (p : Pipeline σ) (phase : Phase σ) : List (Step σ) :=
  (p.plugins.map fun plugin ↦ ⟨.before plugin.name phase.name, plugin.before phase.name⟩) ++
    [⟨.phase phase.name, phase.run⟩] ++
    p.plugins.map fun plugin ↦ ⟨.after plugin.name phase.name, plugin.after phase.name⟩

def runSteps (c : Context) (world : σ) (events : List Event) : List (Step σ) → Outcome σ
  | [] => ⟨.ok c, world, events⟩
  | step :: rest =>
      match step.effect c world with
      | (.ok c, world) => runSteps c world (events ++ [step.event]) rest
      | (.error reasons, world) => ⟨.error reasons, world, events ++ [step.event]⟩

/-- Runs groups of steps in order.  No group is started while the context has errors. -/
def runGroups (c : Context) (world : σ) (events : List Event) :
    List (List (Step σ)) → Outcome σ
  | [] => ⟨.ok c, world, events⟩
  | group :: rest =>
      if c.hasErrors then ⟨.ok c, world, events⟩
      else
        match runSteps c world events group with
        | ⟨.ok c, world, events⟩ => runGroups c world events rest
        | failed => failed

def run (p : Pipeline σ) (m : Manifest) (world : σ) : Outcome σ :=
  runGroups (.ofManifest m) world [] (p.allPhases.map p.steps)

end Pipeline

/-- A plugin that hands over a snapshot after each phase. -/
def snapshotPlugin {σ : Type} (keep : Snapshot → σ → Except Reasons Unit × σ) : Plugin σ where
  name := "snapshot"
  before _ := .pure id
  after phase := fun c world ↦
    match keep (.ofContext phase c) world with
    | (.ok (), world) => (.ok c, world)
    | (.error reasons, world) => (.error reasons, world)

end Scaffold

import Scaffold.Session.Basic

/-!
# What gets through to a template

The built-in phases compute the validation and the blueprint of a manifest, as the plain functions
do.  So a run is known for every way to call templates; for one that keeps a record of the calls,
it shows which templates are called, and with what.
-/

namespace Scaffold

def Manifest.compiled [Pattern.Checker] (m : Manifest) : Compiled := ⟨.ofManifest m, m.validate⟩

namespace Pipeline

variable {σ : Type}

/-! ## The built-in phases -/

theorem runGroups_pure (c : Context) (world : σ) (events : List Event) (e : Event)
    (f : Context → Context) (rest : List (List (Step σ))) :
    runGroups c world events ([⟨e, .pure f⟩] :: rest) =
      if c.hasErrors then ⟨.ok c, world, events⟩
      else runGroups (f c) world (events ++ [e]) rest := rfl

def checked [Pattern.Checker] (m : Manifest) : Context :=
  { manifest := m, normal := some m.normalize, diagnostics := Lint.run Lint.builtIn m.normalize }

theorem hasErrors_checked [Pattern.Checker] (m : Manifest) :
    (checked m).hasErrors = !m.validate.valid := by
  simp [checked, Context.hasErrors, Manifest.validate, Validation.ofDiagnostics]

/-- A manifest with errors is not made into a blueprint. -/
theorem run_builtIn [Pattern.Checker] (m : Manifest) (world : σ) :
    (builtIn : Pipeline σ).run m world =
      if m.validate.valid then
        ⟨.ok { checked m with blueprint := some (.ofManifest m) }, world,
          [.phase "normalize", .phase "validate", .phase "resolve"]⟩
      else ⟨.ok (checked m), world, [.phase "normalize", .phase "validate"]⟩ := by
  have hstart : (builtIn : Pipeline σ).run m world =
      runGroups (checked m) world [.phase "normalize", .phase "validate"]
        [(builtIn : Pipeline σ).steps resolvePhase] := rfl
  have hlast : (builtIn : Pipeline σ).steps resolvePhase =
      [⟨.phase "resolve", (resolvePhase : Phase σ).run⟩] := rfl
  rw [hstart, hlast, resolvePhase, runGroups_pure, hasErrors_checked]
  cases m.validate.valid <;> rfl

theorem compile_builtIn [Pattern.Checker] (m : Manifest) (world : σ) :
    (builtIn : Pipeline σ).compile m world =
      (if m.validate.valid then .ok m.compiled else .error (.invalid m.validate), world) := by
  have hchecked (b : Option Blueprint) :
      ({ checked m with blueprint := b } : Context).validation = m.validate := rfl
  rw [compile, run_builtIn]
  cases hvalid : m.validate.valid with
  | true => simp [Context.compiled, hchecked, hvalid, Manifest.compiled]
  | false =>
      have hnone : (checked m).validation = m.validate := rfl
      simp [Context.compiled, hnone, hvalid]

end Pipeline

/-! ## Runs -/

def recorded : Calling (StateM (List (Template × Blueprint))) :=
  fun t b calls ↦ (t.generate b, calls ++ [(t, b)])

theorem Template.validation_conclude (t : Template) (c : Compiled) (o : GenerateOptions) (d : Disk)
    (dryRun : Bool) (answer : Except Reasons (List GeneratedFile)) :
    (GenerationReport.mk dryRun (t.conclude c o d answer).1).validation = c.validation := by
  cases answer with
  | error reasons => rfl
  | ok files =>
      rw [conclude]
      rcases applyFiles o files d with ⟨d, _ | _⟩ <;> rfl

namespace Manifest

def concluded [Pattern.Checker] (m : Manifest) (t : Template) (o : GenerateOptions) (d : Disk)
    (answer : Except Reasons (List GeneratedFile)) : GenerationReport × Disk :=
  (t.conclude m.compiled o d answer).map (⟨o.dryRun, ·⟩) id

/-- With the built-in phases, a run is known once it is known what the template answers. -/
theorem generateByM_builtIn [Pattern.Checker] {M : Type → Type} [Monad M] [LawfulMonad M]
    (call : Calling M) (m : Manifest) (choose : Compiled → Except RunError Template)
    (o : GenerateOptions) (d : Disk) :
    m.generateByM call .builtIn choose o d =
      if m.validate.valid then
        match choose m.compiled with
        | .ok t => m.concluded t o d <$> call t (.ofManifest m)
        | .error e => pure (⟨o.dryRun, .error e⟩, d)
      else pure (⟨o.dryRun, .error (.invalid m.validate)⟩, d) := by
  rw [generateByM, Pipeline.compile_builtIn]
  cases m.validate.valid with
  | false => simp
  | true =>
      cases hchoose : choose m.compiled with
      | error e => simp [hchoose]
      | ok t =>
          simp only [hchoose, Template.renderM, ↓reduceIte, bind_pure_comp, Functor.map_map]
          rfl

/-- A run in which only a valid manifest gets through, to the template that is selected, as the same
run with a record of its calls shows. -/
structure Gated [Pattern.Checker] (m : Manifest) (selected : Except SelectionError Template)
    (o : GenerateOptions) (d : Disk) (run : GenerationReport × Disk)
    (traced : (GenerationReport × Disk) × List (Template × Blueprint)) : Prop where
  traced_eq : traced = (run, if m.validate.valid then
    (selected.toOption.map (·, Blueprint.ofManifest m)).toList else [])
  validation_eq : run.1.validation = m.validate
  of_invalid : m.validate.valid = false →
    run.2 = d ∧ run.1.success = false ∧ run.1.errors = m.validate.errors.map Diagnostic.display
  of_unselected : ∀ e, selected = .error e → m.validate.valid = true →
    run.2 = d ∧ run.1.success = false ∧ run.1.errors = [e.message]
  of_selected : ∀ t, selected = .ok t → m.validate.valid = true →
    run = m.concluded t o d (t.generate (.ofManifest m))

/-- A template is called exactly if the manifest is valid and the template has been found. -/
theorem gated_generateByM [Pattern.Checker] (m : Manifest)
    (choose : Compiled → Except RunError Template) {selected : Except SelectionError Template}
    (o : GenerateOptions) (d : Disk)
    (hchoose : choose m.compiled = selected.mapError (.selection m.validate)) :
    m.Gated selected o d (Id.run (m.generateByM Template.generate .builtIn choose o d))
      ((m.generateByM recorded .builtIn choose o d).run []) := by
  rw [generateByM_builtIn, generateByM_builtIn, hchoose]
  cases hvalid : m.validate.valid with
  | false =>
      refine ⟨?_, rfl, fun _ ↦ ⟨rfl, rfl, rfl⟩, by simp [hvalid], by simp [hvalid]⟩
      rw [hvalid]
      rfl
  | true =>
      cases selected with
      | error e =>
          refine ⟨?_, rfl, by simp [hvalid], ?_, nofun⟩
          · rw [hvalid]
            rfl
          · rintro _ ⟨⟩ -
            exact ⟨rfl, rfl, rfl⟩
      | ok t =>
          refine ⟨?_, t.validation_conclude m.compiled o d o.dryRun _, by simp [hvalid], nofun, ?_⟩
          · rw [hvalid]
            rfl
          · rintro _ ⟨⟩ -
            rfl

/-! ## Sessions -/

theorem valid_validate [Pattern.Checker] (m : Manifest) :
    m.validate.valid = m.validate.errors.isEmpty := by
  rw [Bool.eq_iff_iff]
  simp [validate, Validation.ofDiagnostics]

end Manifest

namespace Reply

theorem errors_validated (v : Validation) :
    (validated v).errors = if v.valid then none else some v.errors := by
  rw [validated]
  split <;> rfl

theorem errors_generated (r : GenerationReport) :
    (generated r).errors =
      if r.validation.errors.isEmpty then none else some r.validation.errors := by
  rw [generated]
  cases r.validation.errors.isEmpty with
  | false => rfl
  | true =>
      simp only [Bool.not_true, Bool.false_eq_true, ↓reduceIte]
      split
      · rfl
      · split <;> rfl

end Reply

theorem Session.perform_generate [Pattern.Checker] (s : Session) (o : GenerateOptions) (d : Disk) :
    s.perform (.generate o) d =
      ((.generated (s.manifest.generateFrom s.registry o d).1, s),
        (s.manifest.generateFrom s.registry o d).2) := rfl

/-- A template is called exactly once, with the blueprint, if the manifest is valid, and never
otherwise.  The report always has the validation of the manifest, and a session tells the same
errors whether it is to validate or to generate. -/
theorem Manifest.generation_gated [Pattern.Checker] (m : Manifest) (t : Template) (r : Registry)
    (o : GenerateOptions) (d : Disk) :
    m.Gated (.ok t) o d (m.generate t o d) ((m.generateM recorded t o d).run []) ∧
      m.Gated (r.select m.template) o d (m.generateFrom r o d)
        ((m.generateFromM recorded r o d).run []) ∧
      (Session.perform ⟨m, r⟩ (.generate o) d).2 = (m.generateFrom r o d).2 ∧
      (Session.perform ⟨m, r⟩ (.generate o) d).1.1.errors =
        (Session.perform ⟨m, r⟩ .validate d).1.1.errors ∧
      (Session.perform ⟨m, r⟩ .validate d).1.1.errors =
        if m.validate.valid then none else some m.validate.errors := by
  have hwith : m.Gated (.ok t) o d (m.generate t o d) ((m.generateM recorded t o d).run []) :=
    m.gated_generateByM (fun _ ↦ .ok t) o d rfl
  have hfrom : m.Gated (r.select m.template) o d (m.generateFrom r o d)
      ((m.generateFromM recorded r o d).run []) :=
    m.gated_generateByM
      (fun c ↦ (r.select c.blueprint.template).mapError (.selection c.validation)) o d rfl
  have hvalidate : (Session.perform ⟨m, r⟩ .validate d).1.1.errors =
      if m.validate.valid then none else some m.validate.errors := Reply.errors_validated m.validate
  have hgenerate : (Session.perform ⟨m, r⟩ (.generate o) d).1.1.errors =
      if m.validate.valid then none else some m.validate.errors := by
    rw [Session.perform_generate, Reply.errors_generated, hfrom.validation_eq, m.valid_validate]
  exact ⟨hwith, hfrom, by rw [Session.perform_generate],
    hgenerate.trans hvalidate.symm, hvalidate⟩

end Scaffold

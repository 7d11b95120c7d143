import Mathlib.Data.List.Basic
import Scaffold.Pipeline.Basic

/-!
# What takes place in a run

Hooks and phases may do anything to the context, and may fail.  What a run makes of them is said by
three relations: steps that complete one after the other, groups of steps that are started without
errors and complete, and the three ways in which a run of groups can end.  A run ends in one of
these ways, so the events that have taken place are known from what the steps did, and the other
way round.
-/

namespace Scaffold

def Context.Clear (c : Context) : Prop := ∀ d ∈ c.diagnostics, d.severity ≠ .error

theorem Context.hasErrors_eq_false_iff (c : Context) : c.hasErrors = false ↔ c.Clear := by
  simp [hasErrors, Clear, Diagnostic.isError]

theorem Context.hasErrors_eq_true_iff (c : Context) : c.hasErrors = true ↔ ¬ c.Clear := by
  rw [← hasErrors_eq_false_iff, Bool.not_eq_false]

/-- The outcome of a run before which other events have taken place. -/
def Outcome.after {σ : Type} (events : List Event) (o : Outcome σ) : Outcome σ :=
  { o with events := events ++ o.events }

namespace Pipeline

variable {σ : Type}

/-! ## Steps and groups that complete -/

/-- Steps that succeed one after the other and lead from one state to another. -/
inductive Completes : List (Step σ) → Context × σ → Context × σ → Prop
  | nil (s : Context × σ) : Completes [] s s
  | cons {step : Step σ} {rest : List (Step σ)} {c c' : Context} {world world' : σ}
      {s : Context × σ} (hstep : step.effect c world = (.ok c', world'))
      (hrest : Completes rest (c', world') s) : Completes (step :: rest) (c, world) s

/-- Groups each of which is started without errors and completes. -/
inductive Passes : List (List (Step σ)) → Context × σ → Context × σ → Prop
  | nil (s : Context × σ) : Passes [] s s
  | cons {group : List (Step σ)} {rest : List (List (Step σ))} {s s' s'' : Context × σ}
      (hclear : s.1.Clear) (hgroup : Completes group s s') (hrest : Passes rest s' s'') :
      Passes (group :: rest) s s''

/-- How a run of groups from a state can end: with all groups, before a group because of errors, or
at a step that fails. -/
inductive Ends (groups : List (List (Step σ))) (s : Context × σ) : Outcome σ → Prop
  | finished {c : Context} {world : σ} (hpasses : Passes groups s (c, world)) :
      Ends groups s ⟨.ok c, world, groups.flatten.map Step.event⟩
  | held {done rest : List (List (Step σ))} {group : List (Step σ)} {c : Context} {world : σ}
      (hgroups : groups = done ++ group :: rest) (hpasses : Passes done s (c, world))
      (herrors : ¬ c.Clear) : Ends groups s ⟨.ok c, world, done.flatten.map Step.event⟩
  | failed {done rest : List (List (Step σ))} {before after : List (Step σ)} {step : Step σ}
      {s' : Context × σ} {c : Context} {world world' : σ} {reasons : Reasons}
      (hgroups : groups = done ++ (before ++ step :: after) :: rest) (hpasses : Passes done s s')
      (hclear : s'.1.Clear) (hbefore : Completes before s' (c, world))
      (hstep : step.effect c world = (.error reasons, world')) :
      Ends groups s ⟨.error reasons, world', (done.flatten ++ before ++ [step]).map Step.event⟩

theorem Passes.append_inv {done rest : List (List (Step σ))} {s t : Context × σ}
    (h : Passes (done ++ rest) s t) : ∃ mid, Passes done s mid ∧ Passes rest mid t := by
  induction done generalizing s with
  | nil => exact ⟨s, .nil s, h⟩
  | cons group done ih =>
      cases h with
      | cons hclear hgroup hrest =>
          obtain ⟨mid, hdone, hrest⟩ := ih hrest
          exact ⟨mid, .cons hclear hgroup hdone, hrest⟩

/-- In front of every group that has passed, the groups before it have passed and there was no
error. -/
theorem Passes.exists_take {groups : List (List (Step σ))} {s t : Context × σ}
    (h : Passes groups s t) {i : Nat} (hi : i < groups.length) :
    ∃ mid, Passes (groups.take i) s mid ∧ mid.1.Clear := by
  rw [← List.take_append_drop i groups, List.drop_eq_getElem_cons hi] at h
  obtain ⟨mid, hdone, hrest⟩ := h.append_inv
  cases hrest with
  | cons hclear _ _ => exact ⟨mid, hdone, hclear⟩

/-! ## The events before a run -/

theorem runSteps_eq_after (c : Context) (world : σ) (events : List Event)
    (steps : List (Step σ)) :
    runSteps c world events steps = (runSteps c world [] steps).after events := by
  induction steps generalizing c world events with
  | nil => simp [runSteps, Outcome.after]
  | cons step rest ih =>
      rw [runSteps, runSteps]
      split
      · rw [ih, ih _ _ ([] ++ [step.event])]
        simp [Outcome.after]
      · simp [Outcome.after]

/-- What has taken place before is only put in front. -/
theorem runGroups_eq_after (c : Context) (world : σ) (events : List Event)
    (groups : List (List (Step σ))) :
    runGroups c world events groups = (runGroups c world [] groups).after events := by
  induction groups generalizing c world events with
  | nil => simp [runGroups, Outcome.after]
  | cons group rest ih =>
      rw [runGroups, runGroups, runSteps_eq_after]
      split
      · simp [Outcome.after]
      · rcases runSteps c world [] group with ⟨_ | c', world', taken⟩
        · rfl
        · simp only [Outcome.after]
          rw [ih, ih _ _ taken]
          simp [Outcome.after]

/-! ## Runs of steps -/

theorem runSteps_cons {step : Step σ} {c c' : Context} {world world' : σ}
    (h : step.effect c world = (.ok c', world')) (rest : List (Step σ)) :
    runSteps c world [] (step :: rest) =
      (runSteps c' world' [] rest).after [step.event] := by
  rw [runSteps, h]
  exact runSteps_eq_after c' world' [step.event] rest

theorem runSteps_append {done : List (Step σ)} {s t : Context × σ} (h : Completes done s t)
    (rest : List (Step σ)) :
    runSteps s.1 s.2 [] (done ++ rest) =
      (runSteps t.1 t.2 [] rest).after (done.map Step.event) := by
  induction h with
  | nil s => rfl
  | cons hstep _ ih =>
      rw [List.cons_append, runSteps_cons hstep, ih]
      rfl

/-- Steps either all succeed, or one of them is the first that fails. -/
theorem runSteps_cases (c : Context) (world : σ) (steps : List (Step σ)) :
    (∃ s, Completes steps (c, world) s) ∨
    ∃ before step after c' world' reasons world'', steps = before ++ step :: after ∧
      Completes before (c, world) (c', world') ∧
      step.effect c' world' = (.error reasons, world'') := by
  induction steps generalizing c world with
  | nil => exact .inl ⟨_, .nil _⟩
  | cons step rest ih =>
      rcases hstep : step.effect c world with ⟨reasons | c₁, world₁⟩
      · exact .inr ⟨[], step, rest, c, world, reasons, world₁, rfl, .nil _, hstep⟩
      · rcases ih c₁ world₁ with ⟨s, hrest⟩ |
          ⟨before, failing, after, c', world', reasons, world'', rfl, hbefore, hfails⟩
        · exact .inl ⟨s, .cons hstep hrest⟩
        · exact .inr ⟨step :: before, failing, after, c', world', reasons, world'', rfl,
            .cons hstep hbefore, hfails⟩

theorem runSteps_of_fails {before after : List (Step σ)} {step : Step σ} {s : Context × σ}
    {c : Context} {world world' : σ} {reasons : Reasons} (hbefore : Completes before s (c, world))
    (hstep : step.effect c world = (.error reasons, world')) :
    runSteps s.1 s.2 [] (before ++ step :: after) =
      ⟨.error reasons, world', (before ++ [step]).map Step.event⟩ := by
  rw [runSteps_append hbefore, runSteps, hstep, List.map_append]
  rfl

/-! ## Runs of groups -/

theorem runGroups_cons {s t : Context × σ} {group : List (Step σ)} (hclear : s.1.Clear)
    (hgroup : Completes group s t) (rest : List (List (Step σ))) :
    runGroups s.1 s.2 [] (group :: rest) =
      (runGroups t.1 t.2 [] rest).after (group.map Step.event) := by
  have hrun := runSteps_append hgroup []
  rw [List.append_nil] at hrun
  rw [runGroups, (s.1.hasErrors_eq_false_iff).mpr hclear, hrun]
  simp only [runSteps, Outcome.after, Bool.false_eq_true, ↓reduceIte, List.append_nil]
  rw [runGroups_eq_after]
  rfl

theorem runGroups_append {done : List (List (Step σ))} {s t : Context × σ} (h : Passes done s t)
    (rest : List (List (Step σ))) :
    runGroups s.1 s.2 [] (done ++ rest) =
      (runGroups t.1 t.2 [] rest).after (done.flatten.map Step.event) := by
  induction h with
  | nil s => rfl
  | cons hclear hgroup _ ih =>
      rw [List.cons_append, runGroups_cons hclear hgroup, ih]
      simp [Outcome.after]

/-- After groups that have passed, a run goes on with the next one. -/
theorem runGroups_eq_of_passes {groups : List (List (Step σ))} {s t : Context × σ} {i : Nat}
    (h : Passes (groups.take i) s t) (hi : i < groups.length) :
    runGroups s.1 s.2 [] groups = (runGroups t.1 t.2 [] (groups[i] :: groups.drop (i + 1))).after
      ((groups.take i).flatten.map Step.event) := by
  have hrun := runGroups_append h (groups.drop i)
  rwa [List.take_append_drop, List.drop_eq_getElem_cons hi] at hrun

theorem runGroups_of_fails {before after : List (Step σ)} {step : Step σ} {s : Context × σ}
    {c : Context} {world world' : σ} {reasons : Reasons} (hclear : s.1.Clear)
    (hbefore : Completes before s (c, world))
    (hstep : step.effect c world = (.error reasons, world')) (rest : List (List (Step σ))) :
    runGroups s.1 s.2 [] ((before ++ step :: after) :: rest) =
      ⟨.error reasons, world', (before ++ [step]).map Step.event⟩ := by
  rw [runGroups, (s.1.hasErrors_eq_false_iff).mpr hclear, runSteps_of_fails hbefore hstep]
  rfl

/-- A group that completes is put in front of what ends the rest. -/
theorem Ends.cons {group : List (Step σ)} {rest : List (List (Step σ))} {s s' : Context × σ}
    {out : Outcome σ} (hclear : s.1.Clear) (hgroup : Completes group s s')
    (h : Ends rest s' out) : Ends (group :: rest) s (out.after (group.map Step.event)) := by
  cases h with
  | finished hpasses =>
      have hends := Ends.finished (.cons hclear hgroup hpasses)
      simpa [Outcome.after] using hends
  | held hgroups hpasses herrors =>
      have hends := Ends.held (congrArg (group :: ·) hgroups) (.cons hclear hgroup hpasses) herrors
      simpa [Outcome.after] using hends
  | failed hgroups hpasses hclear' hbefore hstep =>
      have hends := Ends.failed (congrArg (group :: ·) hgroups) (.cons hclear hgroup hpasses)
        hclear' hbefore hstep
      simpa [Outcome.after] using hends

/-- Every run of groups ends in one of the three ways. -/
theorem ends_runGroups (c : Context) (world : σ) (groups : List (List (Step σ))) :
    Ends groups (c, world) (runGroups c world [] groups) := by
  induction groups generalizing c world with
  | nil => exact .finished (.nil _)
  | cons group rest ih =>
      by_cases hclear : c.Clear
      · rcases runSteps_cases c world group with ⟨⟨c', world'⟩, hgroup⟩ |
          ⟨before, step, after, c', world', reasons, world'', rfl, hbefore, hstep⟩
        · rw [runGroups_cons (s := (c, world)) hclear hgroup]
          exact .cons hclear hgroup (ih c' world')
        · rw [runGroups_of_fails (s := (c, world)) hclear hbefore hstep]
          exact .failed rfl (.nil (c, world)) hclear hbefore hstep
      · rw [runGroups, (c.hasErrors_eq_true_iff).mpr hclear]
        exact .held rfl (.nil _) hclear

/-! ## What the events tell -/

namespace Ends

variable {groups : List (List (Step σ))} {s : Context × σ} {out : Outcome σ}

theorem events_isPrefix (h : Ends groups s out) :
    out.events <+: groups.flatten.map Step.event := by
  cases h with
  | finished hpasses => exact List.prefix_rfl
  | held hgroups hpasses herrors =>
      subst hgroups
      rw [List.flatten_append, List.map_append]
      exact List.prefix_append _ _
  | @failed done rest before after step _ _ _ _ _ hgroups hpasses hclear hbefore hstep =>
      subst hgroups
      refine (?_ : done.flatten ++ before ++ [step] <+: _).map Step.event
      exact ⟨after ++ rest.flatten, by simp⟩

theorem of_clear {c : Context} (h : Ends groups s out) (hresult : out.result = .ok c)
    (hclear : c.Clear) :
    out.events = groups.flatten.map Step.event ∧ Passes groups s (c, out.world) := by
  cases h with
  | finished hpasses =>
      cases hresult
      exact ⟨rfl, hpasses⟩
  | held hgroups hpasses herrors =>
      cases hresult
      exact (herrors hclear).elim
  | failed => cases hresult

/-- Something takes place where the first group is not empty. -/
theorem events_ne_nil {group : List (Step σ)} (h : Ends (group :: groups) s out)
    (hclear : s.1.Clear) (hgroup : group ≠ []) : out.events ≠ [] := by
  cases h with
  | finished hpasses => simp [hgroup]
  | @held done _ _ _ _ hgroups hpasses herrors =>
      cases done with
      | nil =>
          cases hpasses
          exact (herrors hclear).elim
      | cons first done =>
          obtain ⟨rfl, -⟩ := List.cons.inj hgroups
          simp [hgroup]
  | failed => simp

section

variable {k : Nat} (hsize : ∀ group ∈ groups, group.length = k)

include hsize

theorem length_flatten_take {i : Nat} (hi : i ≤ groups.length) :
    (groups.take i).flatten.length = i * k := by
  have hlengths : (groups.take i).map List.length = List.replicate i k := by
    refine List.eq_replicate_iff.mpr ⟨by simp [hi], fun n hn ↦ ?_⟩
    obtain ⟨group, hgroup, rfl⟩ := List.mem_map.mp hn
    exact hsize group (List.mem_of_mem_take hgroup)
  rw [List.length_flatten, hlengths, List.sum_replicate_nat]

theorem length_flatten_of_append {done rest : List (List (Step σ))} (h : groups = done ++ rest) :
    done.flatten.length = done.length * k := by
  have hlength := length_flatten_take hsize (i := done.length) (by simp [h])
  rwa [h, List.take_left] at hlength

theorem failed_of_not_dvd (h : Ends groups s out) (hlength : ¬ k ∣ out.events.length) :
    ∃ reasons, out.result = .error reasons := by
  cases h with
  | finished hpasses =>
      refine (hlength ?_).elim
      rw [List.length_map, length_flatten_of_append hsize (List.append_nil groups).symm]
      exact Nat.dvd_mul_left k _
  | held hgroups hpasses herrors =>
      refine (hlength ?_).elim
      rw [List.length_map, length_flatten_of_append hsize hgroups]
      exact Nat.dvd_mul_left k _
  | failed => exact ⟨_, rfl⟩

/-- A group of which some event has taken place was started after the groups before it, without
errors. -/
theorem exists_passes (h : Ends groups s out) {i : Nat} (hi : i < groups.length)
    (hlength : i * k < out.events.length) :
    ∃ t, Passes (groups.take i) s t ∧ t.1.Clear := by
  cases h with
  | finished hpasses => exact hpasses.exists_take hi
  | @held done rest group _ _ hgroups hpasses herrors =>
      rw [List.length_map, length_flatten_of_append hsize hgroups] at hlength
      have hlt : i < done.length := Nat.lt_of_mul_lt_mul_right hlength
      rw [hgroups, List.take_append_of_le_length (Nat.le_of_lt hlt)]
      exact hpasses.exists_take hlt
  | @failed done rest before after step t _ _ _ _ hgroups hpasses hclear hbefore hstep =>
      have hgroup : before.length + 1 ≤ k := by
        rw [← hsize (before ++ step :: after) (by simp [hgroups])]
        simp
      simp only [List.length_map, List.length_append, List.length_singleton,
        length_flatten_of_append hsize hgroups] at hlength
      have hle : i < done.length + 1 := by
        refine Nat.lt_of_mul_lt_mul_right (a := k) ?_
        rw [Nat.succ_mul]
        omega
      rcases Nat.lt_succ_iff_lt_or_eq.mp hle with hlt | rfl
      · rw [hgroups, List.take_append_of_le_length (Nat.le_of_lt hlt)]
        exact hpasses.exists_take hlt
      · rw [hgroups, List.take_left]
        exact ⟨t, hpasses, hclear⟩

end

end Ends

/-! ## Pipelines -/

/-- What takes place around a phase: the hooks before it in the order of the plugins, the phase, and
the hooks after it. -/
def eventsOf (p : Pipeline σ) (phase : String) : List Event :=
  (p.plugins.map fun plugin ↦ .before plugin.name phase) ++ [.phase phase] ++
    p.plugins.map fun plugin ↦ .after plugin.name phase

/-- All that can take place, in order. -/
def agenda (p : Pipeline σ) : List Event :=
  (["normalize", "validate", "resolve"] ++ p.phases.map Phase.name).flatMap p.eventsOf

def groups (p : Pipeline σ) : List (List (Step σ)) := p.allPhases.map p.steps

def groupSize (p : Pipeline σ) : Nat := 2 * p.plugins.length + 1

theorem events_steps (p : Pipeline σ) (phase : Phase σ) :
    (p.steps phase).map Step.event = p.eventsOf phase.name := by
  simp [steps, eventsOf, Function.comp_def]

theorem events_groups (p : Pipeline σ) : p.groups.flatten.map Step.event = p.agenda := by
  have hnames : ["normalize", "validate", "resolve"] ++ p.phases.map Phase.name =
      p.allPhases.map Phase.name := rfl
  rw [agenda, hnames, groups, List.map_flatten, List.map_map, List.flatMap_map, List.flatMap_def]
  exact congrArg List.flatten (List.map_congr_left fun phase _ ↦ p.events_steps phase)

theorem length_of_mem_groups (p : Pipeline σ) : ∀ group ∈ p.groups, group.length = p.groupSize := by
  intro group hgroup
  obtain ⟨phase, -, rfl⟩ := List.mem_map.mp hgroup
  simp [steps, groupSize]
  omega

/-- What the outcome of a run from a state has to do with what the steps of the pipeline do. -/
structure Traced (p : Pipeline σ) (s : Context × σ) (out : Outcome σ) : Prop where
  events_isPrefix : out.events <+: p.agenda
  /-- A group is started exactly if those before it have passed and there is no error then. -/
  started_iff : ∀ i < p.groups.length, i * p.groupSize < out.events.length ↔
    ∃ t, Passes (p.groups.take i) s t ∧ t.1.Clear
  /-- Within a group the events stop only at a failure. -/
  failed_inside : ¬ p.groupSize ∣ out.events.length → ∃ reasons, out.result = .error reasons
  /-- A failure is that of the last event, and no event that takes place fails without it. -/
  failed_iff : ∀ reasons, out.result = .error reasons ↔
    ∃ i t before step after c world, Passes (p.groups.take i) s t ∧ t.1.Clear ∧
      p.groups[i]? = some (before ++ step :: after) ∧ Completes before t (c, world) ∧
      step.effect c world = (.error reasons, out.world) ∧
      out.events = ((p.groups.take i).flatten ++ before ++ [step]).map Step.event
  /-- Without errors in the end, every group has passed. -/
  passed_of_clear : ∀ c, out.result = .ok c → c.Clear →
    out.events = p.agenda ∧ Passes p.groups s (c, out.world)

theorem exists_of_failed {groups : List (List (Step σ))} {s : Context × σ} {out : Outcome σ}
    (h : Ends groups s out) {reasons : Reasons} (hresult : out.result = .error reasons) :
    ∃ i t before step after c world, Passes (groups.take i) s t ∧ t.1.Clear ∧
      groups[i]? = some (before ++ step :: after) ∧ Completes before t (c, world) ∧
      step.effect c world = (.error reasons, out.world) ∧
      out.events = ((groups.take i).flatten ++ before ++ [step]).map Step.event := by
  cases h with
  | finished => cases hresult
  | held => cases hresult
  | @failed done rest before after step t c world _ _ hgroups hpasses hclear hbefore hstep =>
      cases hresult
      subst hgroups
      refine ⟨done.length, t, before, step, after, c, world, ?_, hclear, ?_, hbefore, hstep, ?_⟩
      · rwa [List.take_left]
      · simp
      · rw [List.take_left]

/-- The events of a run are the first ones of the agenda.  A phase with its hooks is started exactly
if the phases before it have been completed and the context has no error at that moment; inside, the
events stop only at one that fails, and the run comes to that failure; and a run that ends without
errors has gone through all phases. -/
theorem run_traced (p : Pipeline σ) (m : Manifest) (world : σ) :
    p.Traced (.ofManifest m, world) (p.run m world) := by
  have hends := ends_runGroups (.ofManifest m) world p.groups
  refine ⟨?_, fun i hi ↦ ⟨hends.exists_passes p.length_of_mem_groups hi, ?_⟩,
    hends.failed_of_not_dvd p.length_of_mem_groups,
    fun reasons ↦ ⟨exists_of_failed hends, ?_⟩, fun c hresult hclear ↦ ?_⟩
  · rw [← p.events_groups]
    exact hends.events_isPrefix
  · rintro ⟨t, hpasses, hclear⟩
    -- the run goes on with this group, and there is some event in every group
    have hne : p.groups[i] ≠ [] := by
      have hsize := p.length_of_mem_groups p.groups[i] (List.getElem_mem hi)
      exact List.ne_nil_of_length_pos (by rw [hsize, groupSize]; omega)
    have hmore := (ends_runGroups t.1 t.2 (p.groups[i] :: p.groups.drop (i + 1))).events_ne_nil
      hclear hne
    have hlength := List.length_pos_iff.mpr hmore
    have hrun : p.run m world = _ := runGroups_eq_of_passes hpasses hi
    rw [hrun, Outcome.after, List.length_append, List.length_map,
      Ends.length_flatten_take p.length_of_mem_groups (Nat.le_of_lt hi)]
    omega
  · rintro ⟨i, t, before, step, after, c, world', hpasses, hclear, hgroup, hbefore, hstep, -⟩
    obtain ⟨hi, hgroup⟩ := List.getElem?_eq_some_iff.mp hgroup
    have hrun : p.run m world = _ := runGroups_eq_of_passes hpasses hi
    rw [hgroup, runGroups_of_fails hclear hbefore hstep] at hrun
    exact congrArg Outcome.result hrun
  · rw [← p.events_groups]
    exact hends.of_clear hresult hclear

end Pipeline

end Scaffold

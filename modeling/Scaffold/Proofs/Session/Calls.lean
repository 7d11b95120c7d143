import Mathlib.Data.List.Nodup
import Scaffold.Session.Basic

/-!
# Calls one after the other

A request changes the manifest of a session by `Request.change` and in no other way, so that facts
about a whole run of calls come down to the few edits of entities.  Names of entities stay distinct,
and a reply never says anything else about the manifest than what the session holds afterwards.
-/

namespace Scaffold

open Json

/-! ## Edits -/

namespace Manifest

theorem hasEntity_iff (m : Manifest) (name : String) :
    m.hasEntity name = true ↔ name ∈ m.entityNames := by
  simp [hasEntity, entityNames]

theorem name_patched (e : Entity) (p : EntityPatch) : (e.patched p).name = e.name := rfl

theorem map_name_modifyFirst (test : Entity → Bool) (p : EntityPatch) (entities : List Entity) :
    (modifyFirst test (·.patched p) entities).map (·.name) = entities.map (·.name) := by
  induction entities with
  | nil => rfl
  | cons e rest ih =>
      rw [modifyFirst]
      split
      · simp only [List.map_cons, name_patched]
      · simp only [List.map_cons, ih]

theorem map_name_eraseP (name : String) (entities : List Entity) :
    (entities.eraseP (·.name == name)).map (·.name) = (entities.map (·.name)).erase name := by
  rw [List.erase_eq_eraseP', List.eraseP_map]
  rfl

variable {m m' : Manifest} {e : Entity} {name : String} {p : EntityPatch}

theorem entityNames_addEntity (h : m.addEntity e = .ok m') :
    e.name ∉ m.entityNames ∧ m'.entityNames = m.entityNames ++ [e.name] := by
  rw [addEntity] at h
  split at h
  · cases h
  · next hnew =>
      cases h
      refine ⟨fun hmem ↦ hnew ((m.hasEntity_iff e.name).mpr hmem), ?_⟩
      simp [entityNames]

theorem entityNames_updateEntity (h : m.updateEntity name p = .ok m') :
    m'.entityNames = m.entityNames := by
  rw [updateEntity] at h
  split at h
  · cases h
    exact map_name_modifyFirst _ p m.entities
  · cases h

theorem entityNames_removeEntity (h : m.removeEntity name = .ok m') :
    m'.entityNames = m.entityNames.erase name := by
  rw [removeEntity] at h
  split at h
  · cases h
    exact map_name_eraseP name m.entities
  · cases h

end Manifest

/-! ## Requests -/

namespace Tool

theorem ofName?_name (t : Tool) : ofName? t.name = some t := by
  cases t <;> decide

theorem name_injective : Function.Injective name := fun t t' heq ↦
  Option.some.inj (by rw [← ofName?_name t, heq, ofName?_name])

theorem mem_of_name_mem {t : Tool} {tools : List Tool} (h : t.name ∈ tools.map name) :
    t ∈ tools :=
  (List.mem_map_of_injective name_injective).mp h

end Tool

namespace Request

def tool : Request → Tool
  | .addEntity _ => .addEntity
  | .updateEntity _ _ => .updateEntity
  | .removeEntity _ => .removeEntity
  | .setDatabase _ => .setDatabase
  | .setAuth _ => .setAuth
  | .setMode _ => .setMode
  | .listEntities => .listEntities
  | .getEntity _ => .getEntity
  | .validate => .validate
  | .generate _ => .generate

def change (m : Manifest) : Request → Except EditError Manifest
  | .addEntity e => m.addEntity e
  | .updateEntity name p => m.updateEntity name p
  | .removeEntity name => m.removeEntity name
  | .setDatabase database => .ok (m.withDatabase database)
  | .setAuth auth => .ok (m.withAuth auth)
  | .setMode mode => .ok (m.withMode mode)
  | .listEntities | .getEntity _ | .validate | .generate _ => .ok m

theorem tool_eq_of_ofTool {t : Tool} {args : Value} {r : Request} (h : ofTool t args = .ok r) :
    r.tool = t := by
  cases t <;> simp only [ofTool, bind, Except.bind, pure, Except.pure, Functor.map, Except.map] at h
  all_goals
    repeat' split at h
    all_goals cases h
    all_goals rfl

theorem name_tool_of_ofCall {name : String} {args : Value} {r : Request}
    (h : ofCall name args = .ok r) : r.tool.name = name := by
  rw [ofCall] at h
  split at h
  · next t ht =>
      rw [tool_eq_of_ofTool h]
      simpa using List.find?_some ht
  · cases h

/-- A request that succeeds keeps the names of entities distinct. -/
theorem nodup_change {m m' : Manifest} {r : Request} (h : r.change m = .ok m')
    (hm : m.entityNames.Nodup) : m'.entityNames.Nodup := by
  cases r with
  | addEntity e =>
      obtain ⟨hnew, heq⟩ := Manifest.entityNames_addEntity h
      rw [heq, ← List.concat_eq_append]
      exact hm.concat hnew
  | updateEntity name p =>
      rw [Manifest.entityNames_updateEntity h]
      exact hm
  | removeEntity name =>
      rw [Manifest.entityNames_removeEntity h]
      exact hm.erase name
  | setDatabase | setAuth | setMode | listEntities | getEntity | validate | generate =>
      cases h
      exact hm

end Request

/-! ## Replies -/

namespace Session

variable {s : Session} {r : Request} {d : Disk}

theorem edited_of_success {result : Except EditError Manifest} {reply : Manifest → Reply}
    (h : (s.edited result reply).1.success = true) :
    result = .ok (s.edited result reply).2.manifest := by
  cases result with
  | ok m => rfl
  | error e => cases h

theorem edited_of_failure {result : Except EditError Manifest} {reply : Manifest → Reply}
    (hreply : ∀ m, (reply m).success = true) (h : (s.edited result reply).1.success = false) :
    (s.edited result reply).2.manifest = s.manifest := by
  cases result with
  | ok m => exact (Bool.false_ne_true (h.symm.trans (hreply m))).elim
  | error e => rfl

theorem success_authSet (a : Auth) : (Reply.authSet a).success = true := by
  rw [Reply.authSet]
  split <;> rfl

/-- A request that is answered with success has been carried out. -/
theorem change_of_success [Pattern.Checker] (h : (s.perform r d).1.1.success = true) :
    r.change s.manifest = .ok (s.perform r d).1.2.manifest := by
  cases r with
  | addEntity | updateEntity | removeEntity => exact edited_of_success h
  | setDatabase | setAuth | setMode | listEntities | getEntity | validate | generate => rfl

/-- A request that is answered with a failure has changed nothing. -/
theorem manifest_of_failure [Pattern.Checker] (h : (s.perform r d).1.1.success = false) :
    (s.perform r d).1.2.manifest = s.manifest := by
  cases r with
  | addEntity | updateEntity | removeEntity => exact edited_of_failure (fun _ ↦ rfl) h
  | setDatabase | setMode => cases h
  | setAuth a => exact (Bool.false_ne_true (h.symm.trans (success_authSet a))).elim
  | listEntities | getEntity | validate | generate => rfl

/-- A request that only asks changes nothing. -/
theorem manifest_of_question [Pattern.Checker]
    (hasks : r.tool ∈ [.listEntities, .getEntity, .validate, .generate]) :
    (s.perform r d).1.2.manifest = s.manifest := by
  cases r with
  | listEntities | getEntity | validate | generate => rfl
  | addEntity | updateEntity | removeEntity | setDatabase | setAuth | setMode =>
      simp [Request.tool] at hasks

def listingOf (m : Manifest) : Value :=
  .object [("entities", .array (m.entityNames.map .string))]

/-- Requests that list entities give the listing of the session as it is afterwards. -/
theorem data_of_listing [Pattern.Checker]
    (hlists : r.tool ∈ [.addEntity, .removeEntity, .listEntities])
    (h : (s.perform r d).1.1.success = true) :
    (s.perform r d).1.1.data = some (listingOf (s.perform r d).1.2.manifest) := by
  have hedited : ∀ (result : Except EditError Manifest) (message : String),
      (s.edited result (.listing message)).1.success = true →
      (s.edited result (.listing message)).1.data =
        some (listingOf (s.edited result (.listing message)).2.manifest) := by
    intro result message hsuccess
    cases result with
    | ok m => rfl
    | error e => cases hsuccess
  cases r with
  | addEntity | removeEntity => exact hedited _ _ h
  | listEntities => rfl
  | updateEntity | setDatabase | setAuth | setMode | getEntity | validate | generate =>
      simp [Request.tool] at hlists

/-! ## Runs -/

structure Call where
  tool : String
  args : Value

def run (s : Session) (d : Disk) : List Call → Session × Disk
  | [] => (s, d)
  | c :: calls =>
      let after := s.call c.tool c.args d
      run after.1.2 after.2 calls

/-- A call is either refused and has no effect, or it is understood as a request. -/
theorem call_cases [Pattern.Checker] (s : Session) (tool : String) (args : Value) (d : Disk) :
    (s.call tool args d).1.1.success = false ∧ (s.call tool args d).1.2 = s ∨
      ∃ r, Request.ofCall tool args = .ok r ∧ s.call tool args d = s.perform r d := by
  unfold call
  split
  · next r hr => exact .inr ⟨r, hr, rfl⟩
  · exact .inl ⟨rfl, rfl⟩

theorem nodup_perform [Pattern.Checker] (hs : s.manifest.entityNames.Nodup) :
    (s.perform r d).1.2.manifest.entityNames.Nodup := by
  cases hsuccess : (s.perform r d).1.1.success with
  | true => exact Request.nodup_change (change_of_success hsuccess) hs
  | false => rwa [manifest_of_failure hsuccess]

theorem nodup_call [Pattern.Checker] (tool : String) (args : Value)
    (hs : s.manifest.entityNames.Nodup) :
    (s.call tool args d).1.2.manifest.entityNames.Nodup := by
  rcases s.call_cases tool args d with ⟨-, hsame⟩ | ⟨r, -, hr⟩
  · rwa [hsame]
  · rw [hr]
    exact nodup_perform hs

theorem nodup_run (calls : List Call) (hs : s.manifest.entityNames.Nodup) :
    (s.run d calls).1.manifest.entityNames.Nodup := by
  induction calls generalizing s d with
  | nil => exact hs
  | cons c calls ih => exact ih (nodup_call c.tool c.args hs)

example :
    let add : Call := ⟨"add_entity", .object [("entity", .object [("name", .string "Post")])]⟩
    (run {} {} [add, add, ⟨"list_entities", .null⟩]).1.manifest.entityNames = ["Post"] := by
  decide +kernel

/-- After any calls on a session that starts empty, entities have distinct names, and the next call
is told truly: if it fails, or only asks, the manifest stays as it is; if it succeeds, its request
has been carried out; and a list of entities in its reply is the one that the session now has. -/
theorem call_after_run [Pattern.Checker] (registry : Registry) (d : Disk) (calls : List Call)
    (c : Call) :
    let before := run ⟨{}, registry⟩ d calls
    let after := before.1.call c.tool c.args before.2
    before.1.manifest.entityNames.Nodup ∧
      (after.1.1.success = false → after.1.2.manifest = before.1.manifest) ∧
      (c.tool ∈ ["list_entities", "get_entity", "validate", "generate"] →
        after.1.2.manifest = before.1.manifest) ∧
      (after.1.1.success = true →
        ∃ r, Request.ofCall c.tool c.args = .ok r ∧
          r.change before.1.manifest = .ok after.1.2.manifest) ∧
      (after.1.1.success = true → c.tool ∈ ["add_entity", "remove_entity", "list_entities"] →
        after.1.1.data = some (listingOf after.1.2.manifest)) := by
  intro before after
  have hstart : (⟨{}, registry⟩ : Session).manifest.entityNames.Nodup := List.nodup_nil
  refine ⟨nodup_run calls hstart, ?_⟩
  rcases before.1.call_cases c.tool c.args before.2 with ⟨hrefused, hsame⟩ | ⟨r, hr, hcall⟩
  · have hfailed : after.1.1.success ≠ true := by simp [after, hrefused]
    have hmanifest : after.1.2.manifest = before.1.manifest := congrArg manifest hsame
    exact ⟨fun _ ↦ hmanifest, fun _ ↦ hmanifest, fun h ↦ (hfailed h).elim,
      fun h ↦ (hfailed h).elim⟩
  · have hname := Request.name_tool_of_ofCall hr
    simp only [after, hcall, ← hname]
    refine ⟨manifest_of_failure, fun hasks ↦ manifest_of_question (Tool.mem_of_name_mem hasks),
      fun h ↦ ⟨r, ?_, change_of_success h⟩,
      fun h hlists ↦ data_of_listing (Tool.mem_of_name_mem hlists) h⟩
    rw [hname, hr]

end Session

end Scaffold

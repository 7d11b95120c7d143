import Scaffold.Proofs.Session.Calls

/-!
# Requests in either order

An edit looks for one name and acts on the first entity that has it, so that it goes through
exactly if the name is there, or is not there.  Edits under another name keep that, wherever they
stand in the list and however often names are repeated, and settings have nothing to do with names.
So requests that do not concern the same thing can be exchanged, and whoever made them is told the
same.
-/

namespace Scaffold

/-! ## Lists -/

section

variable {α : Type} {test other : α → Bool} {f g : α → α}

theorem modifyFirst_of_forall_not {l : List α} (h : ∀ a ∈ l, test a = false) :
    modifyFirst test f l = l := by
  induction l with
  | nil => rfl
  | cons a l ih =>
      obtain ⟨ha, hl⟩ := List.forall_mem_cons.mp h
      rw [modifyFirst, if_neg (by simp [ha]), ih hl]

/-- Of two elements that pass different tests, it does not matter which is changed first. -/
theorem modifyFirst_comm (hapart : ∀ a, test a = true → other a = false)
    (hf : ∀ a, other (f a) = other a) (hg : ∀ a, test (g a) = test a) (l : List α) :
    modifyFirst other g (modifyFirst test f l) = modifyFirst test f (modifyFirst other g l) := by
  induction l with
  | nil => rfl
  | cons a l ih =>
      cases htest : test a with
      | true =>
          have hother := hapart a htest
          simp [modifyFirst, htest, hother, hf]
      | false =>
          cases hother : other a with
          | true => simp [modifyFirst, htest, hother, hg]
          | false => simp [modifyFirst, htest, hother, ih]

/-- Changing one element and taking another one away can be done in either order. -/
theorem eraseP_modifyFirst (hapart : ∀ a, test a = true → other a = false)
    (hf : ∀ a, other (f a) = other a) (l : List α) :
    (modifyFirst test f l).eraseP other = modifyFirst test f (l.eraseP other) := by
  induction l with
  | nil => rfl
  | cons a l ih =>
      cases htest : test a with
      | true =>
          have hother := hapart a htest
          simp [modifyFirst, htest, hother, hf]
      | false =>
          cases hother : other a with
          | true => simp [modifyFirst, htest, hother]
          | false => simp [modifyFirst, htest, hother, ih]

theorem modifyFirst_append_singleton {x : α} (hx : test x = false) (l : List α) :
    modifyFirst test f (l ++ [x]) = modifyFirst test f l ++ [x] := by
  induction l with
  | nil => simp [modifyFirst, hx]
  | cons a l ih =>
      rw [List.cons_append, modifyFirst, modifyFirst, ih]
      split <;> rfl

end

/-! ## What a request makes of a manifest -/

namespace Manifest

theorem hasEntity_eq_false_iff {m : Manifest} {name : String} :
    m.hasEntity name = false ↔ ∀ e ∈ m.entities, (e.name == name) = false := by
  simp [hasEntity]

theorem hasEntity_congr {m m' : Manifest} {name : String}
    (h : name ∈ m'.entityNames ↔ name ∈ m.entityNames) : m'.hasEntity name = m.hasEntity name := by
  rw [Bool.eq_iff_iff, hasEntity_iff, hasEntity_iff]
  exact h

end Manifest

namespace EditError

/-- The manifest to go on with, which is the old one if an edit fails. -/
def goOn (m : Manifest) : Except EditError Manifest → Manifest
  | .ok m' => m'
  | .error _ => m

def ofResult? : Except EditError Manifest → Option EditError
  | .ok _ => none
  | .error e => some e

end EditError

namespace Request

def next (r : Request) (m : Manifest) : Manifest := EditError.goOn m (r.change m)

def fault? (r : Request) (m : Manifest) : Option EditError := EditError.ofResult? (r.change m)

section

variable (m : Manifest) (name : String) (p : EntityPatch) (e : Entity)

theorem next_updateEntity : (updateEntity name p).next m =
    { m with entities := modifyFirst (·.name == name) (·.patched p) m.entities } := by
  cases hname : m.hasEntity name with
  | true => simp [next, EditError.goOn, change, Manifest.updateEntity, hname]
  | false =>
      -- nobody has the name, so that nothing is changed in the list either
      rw [modifyFirst_of_forall_not (Manifest.hasEntity_eq_false_iff.mp hname)]
      simp [next, EditError.goOn, change, Manifest.updateEntity, hname]

theorem next_removeEntity : (removeEntity name).next m =
    { m with entities := m.entities.eraseP (·.name == name) } := by
  cases hname : m.hasEntity name with
  | true => simp [next, EditError.goOn, change, Manifest.removeEntity, hname]
  | false =>
      have hnone := Manifest.hasEntity_eq_false_iff.mp hname
      rw [List.eraseP_of_forall_not fun e he ↦ by simp [hnone e he]]
      simp [next, EditError.goOn, change, Manifest.removeEntity, hname]

theorem next_addEntity : (addEntity e).next m =
    if m.hasEntity e.name then m else { m with entities := m.entities ++ [e] } := by
  cases hname : m.hasEntity e.name <;>
    simp [next, EditError.goOn, change, Manifest.addEntity, hname]

theorem fault?_updateEntity : (updateEntity name p).fault? m =
    if m.hasEntity name then none else some (.missing name) := by
  cases hname : m.hasEntity name <;>
    simp [fault?, EditError.ofResult?, change, Manifest.updateEntity, hname]

theorem fault?_removeEntity : (removeEntity name).fault? m =
    if m.hasEntity name then none else some (.missing name) := by
  cases hname : m.hasEntity name <;>
    simp [fault?, EditError.ofResult?, change, Manifest.removeEntity, hname]

theorem fault?_addEntity : (addEntity e).fault? m =
    if m.hasEntity e.name then some (.taken e.name) else none := by
  cases hname : m.hasEntity e.name <;>
    simp [fault?, EditError.ofResult?, change, Manifest.addEntity, hname]

end

/-! ## Names that stay -/

section

variable {m : Manifest} {name : String}

theorem hasEntity_next_updateEntity (m : Manifest) (name other : String) (p : EntityPatch) :
    ((updateEntity other p).next m).hasEntity name = m.hasEntity name := by
  refine Manifest.hasEntity_congr ?_
  rw [next_updateEntity, Manifest.entityNames, Manifest.map_name_modifyFirst]
  rfl

theorem hasEntity_next_removeEntity {other : String} (hne : name ≠ other) :
    ((removeEntity other).next m).hasEntity name = m.hasEntity name := by
  refine Manifest.hasEntity_congr ?_
  rw [next_removeEntity, Manifest.entityNames, Manifest.map_name_eraseP]
  exact List.mem_erase_of_ne hne

theorem hasEntity_next_addEntity {e : Entity} (hne : name ≠ e.name) :
    ((addEntity e).next m).hasEntity name = m.hasEntity name := by
  refine Manifest.hasEntity_congr ?_
  rw [next_addEntity]
  split
  · rfl
  · simp [Manifest.entityNames, hne]

end

/-! ## Independence -/

/-- Whether two requests make the same of every manifest in either order, and neither fails because
of the other or goes through because of it. -/
structure Independent (r r' : Request) : Prop where
  next_next : ∀ m, r'.next (r.next m) = r.next (r'.next m)
  fault_left : ∀ m, r.fault? (r'.next m) = r.fault? m
  fault_right : ∀ m, r'.fault? (r.next m) = r'.fault? m

section

variable {a b : String} (p q : EntityPatch)

theorem beq_name_apart (hne : a ≠ b) (e : Entity) (h : (e.name == a) = true) :
    (e.name == b) = false := by
  have ha : e.name = a := by simpa using h
  simpa [ha] using hne

theorem beq_name_patched (name : String) (e : Entity) :
    ((e.patched p).name == name) = (e.name == name) := rfl

theorem independent_updateEntity (hne : a ≠ b) :
    Independent (updateEntity a p) (updateEntity b q) where
  next_next m := by
    simp only [next_updateEntity]
    rw [modifyFirst_comm (beq_name_apart hne) (beq_name_patched p b) (beq_name_patched q a)]
  fault_left m := by rw [fault?_updateEntity, fault?_updateEntity, hasEntity_next_updateEntity]
  fault_right m := by rw [fault?_updateEntity, fault?_updateEntity, hasEntity_next_updateEntity]

theorem independent_updateEntity_removeEntity (hne : a ≠ b) :
    Independent (updateEntity a p) (removeEntity b) where
  next_next m := by
    simp only [next_updateEntity, next_removeEntity]
    rw [eraseP_modifyFirst (beq_name_apart hne) (beq_name_patched p b)]
  fault_left m := by rw [fault?_updateEntity, fault?_updateEntity, hasEntity_next_removeEntity hne]
  fault_right m := by rw [fault?_removeEntity, fault?_removeEntity, hasEntity_next_updateEntity]

theorem independent_updateEntity_addEntity {e : Entity} (hne : a ≠ e.name) :
    Independent (updateEntity a p) (addEntity e) where
  next_next m := by
    rw [next_addEntity, next_addEntity, hasEntity_next_updateEntity]
    split
    · rfl
    · simp only [next_updateEntity]
      rw [modifyFirst_append_singleton (by simpa using hne.symm)]
  fault_left m := by rw [fault?_updateEntity, fault?_updateEntity, hasEntity_next_addEntity hne]
  fault_right m := by rw [fault?_addEntity, fault?_addEntity, hasEntity_next_updateEntity]

theorem independent_removeEntity (hne : a ≠ b) :
    Independent (removeEntity a) (removeEntity b) where
  next_next m := by
    simp only [next_removeEntity]
    rw [List.eraseP_comm]
    intro e _
    by_cases ha : (e.name == a) = true
    · exact .inr (by simp [beq_name_apart hne e ha])
    · exact .inl ha
  fault_left m := by rw [fault?_removeEntity, fault?_removeEntity, hasEntity_next_removeEntity hne]
  fault_right m := by
    rw [fault?_removeEntity, fault?_removeEntity, hasEntity_next_removeEntity hne.symm]

end

def EditsEntity (r : Request) : Prop := r.tool ∈ [.addEntity, .updateEntity, .removeEntity]

def ReplacesSetting (r : Request) : Prop := r.tool ∈ [.setDatabase, .setAuth, .setMode]

variable {r r' : Request}

theorem EditsEntity.cases (h : r.EditsEntity) :
    (∃ e, r = addEntity e) ∨ (∃ name p, r = updateEntity name p) ∨
      ∃ name, r = removeEntity name := by
  cases r <;> simp [EditsEntity, tool] at h ⊢

theorem ReplacesSetting.cases (h : r.ReplacesSetting) :
    (∃ database, r = setDatabase database) ∨ (∃ auth, r = setAuth auth) ∨
      ∃ mode, r = setMode mode := by
  cases r <;> simp [ReplacesSetting, tool] at h ⊢

section

variable (hr : r.ReplacesSetting)

include hr

theorem fault?_setting (m : Manifest) : r.fault? m = none := by
  obtain ⟨_, rfl⟩ | ⟨_, rfl⟩ | ⟨_, rfl⟩ := hr.cases <;> rfl

theorem entities_next_setting (m : Manifest) : (r.next m).entities = m.entities := by
  obtain ⟨_, rfl⟩ | ⟨_, rfl⟩ | ⟨_, rfl⟩ := hr.cases <;> rfl

theorem next_setting_withEntities (m : Manifest) (entities : List Entity) :
    r.next { m with entities } = { r.next m with entities } := by
  obtain ⟨_, rfl⟩ | ⟨_, rfl⟩ | ⟨_, rfl⟩ := hr.cases <;> rfl

theorem hasEntity_next_setting (m : Manifest) (name : String) :
    (r.next m).hasEntity name = m.hasEntity name := by
  rw [Manifest.hasEntity, entities_next_setting hr, Manifest.hasEntity]

/-- A setting is no entity, and what replaces it keeps the list of them. -/
theorem independent_setting_edit (hr' : r'.EditsEntity) : Independent r r' where
  next_next m := by
    obtain ⟨e, rfl⟩ | ⟨name, p, rfl⟩ | ⟨name, rfl⟩ := hr'.cases
    · rw [next_addEntity, next_addEntity, hasEntity_next_setting hr, entities_next_setting hr]
      split
      · rfl
      · exact (next_setting_withEntities hr m _).symm
    · rw [next_updateEntity, next_updateEntity, entities_next_setting hr]
      exact (next_setting_withEntities hr m _).symm
    · rw [next_removeEntity, next_removeEntity, entities_next_setting hr]
      exact (next_setting_withEntities hr m _).symm
  fault_left m := by rw [fault?_setting hr, fault?_setting hr]
  fault_right m := by
    obtain ⟨e, rfl⟩ | ⟨name, p, rfl⟩ | ⟨name, rfl⟩ := hr'.cases
    · rw [fault?_addEntity, fault?_addEntity, hasEntity_next_setting hr]
    · rw [fault?_updateEntity, fault?_updateEntity, hasEntity_next_setting hr]
    · rw [fault?_removeEntity, fault?_removeEntity, hasEntity_next_setting hr]

theorem independent_settings (hr' : r'.ReplacesSetting) (hne : r.tool ≠ r'.tool) :
    Independent r r' where
  next_next m := by
    obtain ⟨_, rfl⟩ | ⟨_, rfl⟩ | ⟨_, rfl⟩ := hr.cases <;>
      obtain ⟨_, rfl⟩ | ⟨_, rfl⟩ | ⟨_, rfl⟩ := hr'.cases <;> simp [tool] at hne
    all_goals rfl
  fault_left m := by rw [fault?_setting hr, fault?_setting hr]
  fault_right m := by rw [fault?_setting hr', fault?_setting hr']

end

def Changes (r : Request) : Prop := r.EditsEntity ∨ r.ReplacesSetting

end Request

/-! ## Sessions -/

/-- What a reply says about the request itself: whether it succeeded, the message and the errors,
without the data that describes the manifest afterwards. -/
def Reply.verdict (r : Reply) : Bool × String × Option (List Diagnostic) :=
  (r.success, r.message, r.errors)

namespace Session

variable {r : Request}

section

variable {s s' : Session} {result result' : Except EditError Manifest} {reply : Manifest → Reply}

theorem edited_snd :
    (s.edited result reply).2 = s.withManifest (EditError.goOn s.manifest result) := by
  cases result <;> rfl

theorem success_edited (hreply : ∀ m, (reply m).success = true) :
    (s.edited result reply).1.success = (EditError.ofResult? result).isNone := by
  cases result with
  | ok m => exact hreply m
  | error e => rfl

/-- Edits that fail for the same reason get the same verdict. -/
theorem verdict_edited_congr (hreply : ∀ m m', (reply m).verdict = (reply m').verdict)
    (h : EditError.ofResult? result = EditError.ofResult? result') :
    (s.edited result reply).1.verdict = (s'.edited result' reply).1.verdict := by
  cases result with
  | ok m =>
      cases result' with
      | ok m' => exact hreply m m'
      | error e => cases h
  | error e =>
      cases result' with
      | ok m => cases h
      | error e' =>
          cases h
          rfl

end

/-- A request to change the manifest does that and nothing else. -/
theorem perform_of_changes [Pattern.Checker] (s : Session) (d : Disk) (hr : r.Changes) :
    (s.perform r d).1.2 = s.withManifest (r.next s.manifest) ∧ (s.perform r d).2 = d := by
  rcases hr with hr | hr
  · obtain ⟨_, rfl⟩ | ⟨_, _, rfl⟩ | ⟨_, rfl⟩ := hr.cases <;> exact ⟨edited_snd, rfl⟩
  · obtain ⟨_, rfl⟩ | ⟨_, rfl⟩ | ⟨_, rfl⟩ := hr.cases <;> exact ⟨rfl, rfl⟩

theorem success_perform [Pattern.Checker] (s : Session) (d : Disk) (hr : r.Changes) :
    (s.perform r d).1.1.success = (r.fault? s.manifest).isNone := by
  rcases hr with hr | hr
  · obtain ⟨_, rfl⟩ | ⟨_, _, rfl⟩ | ⟨_, rfl⟩ := hr.cases <;> exact success_edited fun _ ↦ rfl
  · obtain ⟨_, rfl⟩ | ⟨a, rfl⟩ | ⟨_, rfl⟩ := hr.cases
    · rfl
    · exact success_authSet a
    · rfl

/-- The verdict on a request is known once it is known why it fails, if it does. -/
theorem verdict_perform_congr [Pattern.Checker] {s s' : Session} (d d' : Disk) (hr : r.Changes)
    (h : r.fault? s.manifest = r.fault? s'.manifest) :
    (s.perform r d).1.1.verdict = (s'.perform r d').1.1.verdict := by
  rcases hr with hr | hr
  · obtain ⟨_, rfl⟩ | ⟨_, _, rfl⟩ | ⟨_, rfl⟩ := hr.cases <;>
      exact verdict_edited_congr (fun _ _ ↦ rfl) h
  · obtain ⟨_, rfl⟩ | ⟨_, rfl⟩ | ⟨_, rfl⟩ := hr.cases <;> rfl

end Session

namespace Request

/-- Whether two requests can be made in either order on every session: in the end the session, with
the order of its entities, and the disk are the same, and each request has got the same verdict. -/
def Commutes [Pattern.Checker] (r r' : Request) : Prop :=
  ∀ (s : Session) (d : Disk),
    let first := s.perform r d
    let last := first.1.2.perform r' first.2
    let first' := s.perform r' d
    let last' := first'.1.2.perform r first'.2
    last.1.2 = last'.1.2 ∧ last.2 = last'.2 ∧
      first.1.1.verdict = last'.1.1.verdict ∧ last.1.1.verdict = first'.1.1.verdict

theorem Independent.commutes [Pattern.Checker] {r r' : Request} (h : Independent r r')
    (hr : r.Changes) (hr' : r'.Changes) : Commutes r r' := by
  intro s d
  obtain ⟨hsession, hdisk⟩ := s.perform_of_changes d hr
  obtain ⟨hsession', hdisk'⟩ := s.perform_of_changes d hr'
  simp only [hsession, hdisk, hsession', hdisk']
  refine ⟨?_, ?_, ?_, ?_⟩
  · rw [(Session.perform_of_changes _ d hr').1, (Session.perform_of_changes _ d hr).1]
    exact congrArg s.withManifest (h.next_next s.manifest)
  · rw [(Session.perform_of_changes _ d hr').2, (Session.perform_of_changes _ d hr).2]
  · exact Session.verdict_perform_congr d d hr (h.fault_left s.manifest).symm
  · exact Session.verdict_perform_congr d d hr' (h.fault_right s.manifest)

/-- What is added last under a new name is what is removed under that name. -/
theorem next_removeEntity_addEntity {m : Manifest} {e : Entity} (h : m.hasEntity e.name = false) :
    (removeEntity e.name).next ((addEntity e).next m) = m := by
  have hnone := Manifest.hasEntity_eq_false_iff.mp h
  rw [next_addEntity, if_neg (by simp [h]), next_removeEntity,
    List.eraseP_append_right _ fun e' he' ↦ by simp [hnone e' he']]
  simp

theorem fault?_addEntity_eq_none {m : Manifest} {e : Entity} :
    (addEntity e).fault? m = none ↔ m.hasEntity e.name = false := by
  rw [fault?_addEntity]
  cases m.hasEntity e.name <;> simp

/-- Requests about different entities, about an entity and a setting, or about different settings
can be made in either order, on any session and with the same verdicts; and an entity that could be
added can be removed again, which restores the session. -/
theorem independent_requests_commute [Pattern.Checker] :
    (∀ a b p q, a ≠ b → Commutes (updateEntity a p) (updateEntity b q)) ∧
    (∀ a b p, a ≠ b → Commutes (updateEntity a p) (removeEntity b)) ∧
    (∀ a e p, a ≠ e.name → Commutes (updateEntity a p) (addEntity e)) ∧
    (∀ a b, a ≠ b → Commutes (removeEntity a) (removeEntity b)) ∧
    (∀ r r', r.ReplacesSetting → r'.EditsEntity → Commutes r r') ∧
    (∀ r r', r.ReplacesSetting → r'.ReplacesSetting → r.tool ≠ r'.tool → Commutes r r') ∧
    ∀ (s : Session) (d : Disk) (e : Entity),
      let added := s.perform (addEntity e) d
      let removed := added.1.2.perform (removeEntity e.name) added.2
      added.1.1.success = true →
        removed.1.1.success = true ∧ removed.1.2 = s ∧ removed.2 = d := by
  have hadd (e : Entity) : (addEntity e).Changes := .inl (by simp [EditsEntity, tool])
  have hupdate (a : String) (p : EntityPatch) : (updateEntity a p).Changes :=
    .inl (by simp [EditsEntity, tool])
  have hremove (a : String) : (removeEntity a).Changes := .inl (by simp [EditsEntity, tool])
  refine ⟨?_, ?_, ?_, ?_, ?_, ?_, ?_⟩
  · intro a b p q hne
    exact (independent_updateEntity p q hne).commutes (hupdate a p) (hupdate b q)
  · intro a b p hne
    exact (independent_updateEntity_removeEntity p hne).commutes (hupdate a p) (hremove b)
  · intro a e p hne
    exact (independent_updateEntity_addEntity p hne).commutes (hupdate a p) (hadd e)
  · intro a b hne
    exact (independent_removeEntity hne).commutes (hremove a) (hremove b)
  · intro r r' hr hr'
    exact (independent_setting_edit hr hr').commutes (.inr hr) (.inl hr')
  · intro r r' hr hr' hne
    exact (independent_settings hr hr' hne).commutes (.inr hr) (.inr hr')
  · intro s d e added removed hsuccess
    have hnew : s.manifest.hasEntity e.name = false := by
      rw [s.success_perform d (hadd e)] at hsuccess
      exact fault?_addEntity_eq_none.mp (by simpa using hsuccess)
    obtain ⟨hadded, hdisk⟩ := s.perform_of_changes d (hadd e)
    have hthere : ((addEntity e).next s.manifest).hasEntity e.name = true := by
      rw [next_addEntity, if_neg (by simp [hnew])]
      simp [Manifest.hasEntity]
    simp only [removed, added, hadded, hdisk]
    obtain ⟨hremoved, hdisk'⟩ :=
      (s.withManifest ((addEntity e).next s.manifest)).perform_of_changes d (hremove e.name)
    refine ⟨?_, ?_, hdisk'⟩
    · rw [Session.success_perform _ d (hremove e.name), fault?_removeEntity]
      simp [Session.withManifest, hthere]
    · rw [hremoved]
      exact congrArg s.withManifest (next_removeEntity_addEntity hnew)

end Request

end Scaffold

import Scaffold.Diagnosis.Diagnostic
import Scaffold.Manifest.Patch

/-!
# Editing manifests

The changes that a session makes to the entities of a manifest.  Where several entities have the
same name, the first is meant.
-/

namespace Scaffold

/-- Why an entity cannot be changed. -/
inductive EditError where
  | taken (name : String)
  | missing (name : String)
deriving DecidableEq, Repr

def EditError.diagnostic : EditError → Diagnostic
  | .taken name =>
      ⟨.duplicateEntity, name, s!"entity '{name}' already exists",
        some "use update_entity to change an existing entity"⟩
  | .missing name => ⟨.entityNotFound, name, s!"entity '{name}' does not exist", none⟩

/-- Changes the first element that passes the test. -/
def modifyFirst {α : Type} (test : α → Bool) (f : α → α) : List α → List α
  | [] => []
  | a :: rest => if test a then f a :: rest else a :: modifyFirst test f rest

namespace Manifest

def addEntity (m : Manifest) (e : Entity) : Except EditError Manifest :=
  if m.hasEntity e.name then .error (.taken e.name)
  else .ok { m with entities := m.entities ++ [e] }

def updateEntity (m : Manifest) (name : String) (p : EntityPatch) : Except EditError Manifest :=
  if m.hasEntity name then
    .ok { m with entities := modifyFirst (·.name == name) (·.patched p) m.entities }
  else .error (.missing name)

def removeEntity (m : Manifest) (name : String) : Except EditError Manifest :=
  if m.hasEntity name then .ok { m with entities := m.entities.eraseP (·.name == name) }
  else .error (.missing name)

end Manifest

end Scaffold

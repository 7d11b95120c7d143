import Scaffold.Generation.Basic
import Scaffold.Manifest.Define
import Scaffold.Session.Edit
import Scaffold.Session.Reply
import Scaffold.Session.Request
import Scaffold.Template.Standard

/-!
# Sessions

A session holds a manifest that is built up by calls, and the templates that it can be generated
with.  Calls that fail leave the manifest as it is.
-/

namespace Scaffold

open Json

structure Session where
  manifest : Manifest := {}
  registry : Registry := Standard.registry

namespace Reply

def names (key : String) (names : List String) : String × Value :=
  (key, .array (names.map .string))

def listing (message : String) (m : Manifest) : Reply :=
  (done message).withData (.object [names "entities" m.entityNames])

def updated (name : String) (m : Manifest) : Reply :=
  let e := (m.entity? name).getD { name }
  (done s!"updated entity '{name}'").withData <|
    .object [("entity", .string name), names "fields" (Assoc.keys e.fields),
      names "relations" (Assoc.keys e.relations)]

def shown (name : String) (m : Manifest) : Reply :=
  match m.entity? name with
  | some e => (done s!"entity '{name}'").withData e.toJson
  | none => rejected (EditError.missing name).diagnostic

def authSet (a : Auth) : Reply :=
  if a.isEnabled then
    done ("auth enabled with providers [" ++ ", ".intercalate a.providers ++ "]")
  else done "auth disabled"

def modeSet (mode : Mode) : Reply :=
  (done "mode updated").withData (.object [("mode", .string mode.name)])

def validated (v : Validation) : Reply :=
  let warnings := Value.object [("warnings", .array (v.warnings.map Diagnostic.toJson))]
  if v.valid then (done "manifest is valid").withData warnings
  else
    ((refused s!"manifest has {v.errors.length} error(s)").withData warnings).withErrors v.errors

def generated (r : GenerationReport) : Reply :=
  let errors := r.validation.errors
  if !errors.isEmpty then
    (refused s!"manifest has {errors.length} error(s), nothing generated").withErrors errors
  else if !r.success then
    (refused ("generation failed: " ++ "; ".intercalate r.errors)).withData r.toJson
  else if r.dryRun then
    (done s!"would generate {r.files.length} file(s)").withData r.toJson
  else
    (done s!"generated {r.files.length} file(s), {r.applied.written.length} written").withData
      r.toJson

end Reply

namespace Session

def withManifest (s : Session) (m : Manifest) : Session := { s with manifest := m }

/-- Goes on with a changed manifest, or stays with the old one and says why. -/
def edited (s : Session) (result : Except EditError Manifest) (reply : Manifest → Reply) :
    Reply × Session :=
  match result with
  | .ok m => (reply m, s.withManifest m)
  | .error e => (.rejected e.diagnostic, s)

/-- Does what is requested.  Only generating files touches the disk. -/
def perform [Pattern.Checker] (s : Session) (r : Request) (d : Disk) : (Reply × Session) × Disk :=
  let m := s.manifest
  match r with
  | .addEntity e => (s.edited (m.addEntity e) (.listing s!"added entity '{e.name}'"), d)
  | .updateEntity name p => (s.edited (m.updateEntity name p) (.updated name), d)
  | .removeEntity name =>
      (s.edited (m.removeEntity name) (.listing s!"removed entity '{name}'"), d)
  | .setDatabase database =>
      ((.done s!"database set to {database.kind.name}", s.withManifest (m.withDatabase database)),
        d)
  | .setAuth auth => ((.authSet auth, s.withManifest (m.withAuth auth)), d)
  | .setMode mode => ((.modeSet mode, s.withManifest (m.withMode mode)), d)
  | .listEntities => ((.listing s!"{m.entities.length} entities" m, s), d)
  | .getEntity name => ((.shown name m, s), d)
  | .validate => ((.validated m.validate, s), d)
  | .generate options =>
      let (report, d) := m.generateFrom s.registry options d
      ((.generated report, s), d)

def call [Pattern.Checker] (s : Session) (tool : String) (args : Value) (d : Disk) :
    (Reply × Session) × Disk :=
  match Request.ofCall tool args with
  | .ok r => s.perform r d
  | .error e => ((.refused e.message, s), d)

end Session

end Scaffold

import Scaffold.Manifest.Decode

/-!
# Patches

A patch is a partial change of an entity.  Fields and relations are merged by name: what is listed
for removal is dropped, what the patch defines replaces or is added, all else stays.
-/

namespace Scaffold

open Data

structure EntityPatch where
  fields : Assoc Field := {}
  removeFields : List String := []
  relations : Assoc Relation := {}
  removeRelations : List String := []
  behaviors : Behaviors := {}
  protection : Option Protection := none
  source : Option Source := none
  table : Option String := none
deriving DecidableEq, BEq, Repr

namespace EntityPatch

def isEmpty (p : EntityPatch) : Bool := p == {}

def slots (o : Origin) : List (Slot EntityPatch) :=
  [.defaulted "fields" (uniqueMap o (decodeField o)) fun p v ↦ { p with fields := v },
    .defaulted "removeFields" (list o (text o)) fun p v ↦ { p with removeFields := v },
    .defaulted "relations" (uniqueMap o (decodeRelation o)) fun p v ↦ { p with relations := v },
    .defaulted "removeRelations" (list o (text o)) fun p v ↦ { p with removeRelations := v },
    .optional "behaviors" (decodeBehaviors o) fun p v ↦ { p with behaviors := v.getD {} },
    .optional "protected" (decodeProtection o) fun p v ↦ { p with protection := v },
    .optional "source" (decodeSource o) fun p v ↦ { p with source := v },
    .optional "table" (text o) fun p v ↦ { p with table := v }]

end EntityPatch

def decodePatch (o : Origin) : Tree → Decoded EntityPatch :=
  record o "RawEntityPatch" (EntityPatch.slots o) {}

/-- The entity with the patch merged in.  What is replaced keeps its place and what is new comes
last. -/
def Entity.patched (e : Entity) (p : EntityPatch) : Entity :=
  { e with
    fields := (e.fields.eraseAll p.removeFields).insertAll p.fields
    relations := (e.relations.eraseAll p.removeRelations).insertAll p.relations
    behaviors := p.behaviors.orElse e.behaviors
    protection := p.protection <|> e.protection
    source := p.source <|> e.source
    table := p.table <|> e.table }

end Scaffold

import Scaffold.Manifest.Document
import Scaffold.Proofs.Json.Values
import Scaffold.Proofs.Manifest.Agreement

/-!
# Entities from texts and from values

An entity or a patch may be decoded while its text is read, or from the value of the text.  Every
decoder of a manifest's parts agrees with itself on the two, so that the same entities and patches
are accepted.  An object that repeats a key is the exception: the value keeps one of the two
members, and the text is refused.
-/

namespace Scaffold

open Data

/-! ## The two readers -/

theorem decodeText_eq_ok {α : Type} {decode : Tree → Decoded α} {source : String} {a : α} :
    decodeText decode source = .ok a ↔
      decode (Json.Document.read source).root = .ok a ∧
        (Json.Document.read source).trailing = none := by
  simp only [decodeText, bind_eq_ok, pure, Except.pure, Except.ok.injEq]
  constructor
  · rintro ⟨_, hroot, _, htrailing, rfl⟩
    exact ⟨hroot, noFault_eq_ok.mp htrailing⟩
  · rintro ⟨hroot, htrailing⟩
    exact ⟨a, hroot, (), noFault_eq_ok.mpr htrailing, rfl⟩

/-- Decoders that agree give the same for a text and for its value. -/
theorem Data.Consistent.text_iff_value {α : Type} {decode decode' : Tree → Decoded α}
    (h : Consistent .textAndValue decode decode') {source : String} {v : Json.Value}
    (hread : Json.Value.ofText source = .ok v)
    (hkeys : (Json.Document.read source).root.keysDistinct = true) (a : α) :
    decodeText decode source = .ok a ↔ decode' v.toTree = .ok a := by
  obtain ⟨htree, htrailing⟩ := decodeText_eq_ok.mp hread
  have halike := Json.Value.alike_of_ofTree (token_eq_ok.mp htree) hkeys
  rw [decodeText_eq_ok, and_iff_left htrailing]
  exact (h _ _ halike).eq_ok_iff a

-- That an entity names itself is asked by the one reader behind the decoder, by the other in it.
theorem Entity.ofJson_eq_ok {source : String} {e : Entity} :
    Entity.ofJson source = .ok e ↔
      ∃ d, decodeText (decodeEntityDraft .jsonText) source = .ok d ∧ d.named = .ok e := by
  rw [Entity.ofJson, bind_eq_ok]
  refine exists_congr fun draft ↦ ?_
  rw [readJsonAs, mapError_eq_ok]
  refine and_congr_right fun _ ↦ ?_
  cases draft.named with
  | ok entity => simp [pure, Except.pure]
  | error e => simp [throw, throwThe, MonadExceptOf.throw]

theorem Entity.ofValue_eq_ok {v : Json.Value} {e : Entity} :
    Entity.ofValue v = .ok e ↔
      ∃ d, decodeEntityDraft .jsonValue v.toTree = .ok d ∧ d.named = .ok e := by
  rw [Entity.ofValue, readValueAs, mapError_eq_ok, decodeEntity, bind_eq_ok]
  simp only [settled_eq_ok]

/-- A text whose objects do not repeat keys is accepted as an entity exactly if its value is, and as
a patch exactly if its value is; what is read is the same. -/
theorem ofJson_iff_ofValue_of_keysDistinct {source : String} {v : Json.Value}
    (hread : Json.Value.ofText source = .ok v)
    (hkeys : (Json.Document.read source).root.keysDistinct = true) :
    (∀ e, Entity.ofJson source = .ok e ↔ Entity.ofValue v = .ok e) ∧
      ∀ p, EntityPatch.ofJson source = .ok p ↔ EntityPatch.ofValue v = .ok p := by
  constructor
  · intro e
    rw [Entity.ofJson_eq_ok, Entity.ofValue_eq_ok]
    refine exists_congr fun d ↦ and_congr_left' ?_
    exact consistent_decodeEntityDraft.text_iff_value hread hkeys d
  · intro p
    rw [EntityPatch.ofJson, EntityPatch.ofValue, readJsonAs, readValueAs, mapError_eq_ok,
      mapError_eq_ok]
    exact consistent_decodePatch.text_iff_value hread hkeys p

/-- A rule with its value in front, another as a list, and a relation as a list whose first item
names its kind by an object. -/
def listedPost : String :=
  "\x7b\"name\":\"Post\",\"fields\":\x7b\"rank\":\x7b\"type\":\"number\",\"validations\":" ++
    "[\x7b\"value\":1,\"rule\":\"min\"\x7d,[\"max\",5e0]]\x7d\x7d," ++
    "\"relations\":\x7b\"tags\":[\x7b\"belongsToMany\":null\x7d,\"Tag\",null,null]\x7d\x7d"

def retabledPost : String := "[\x7b\x7d,[\"rank\"],\x7b\x7d,[],null,null,null,\"posts\"]"

theorem ofJson_iff_ofValue_listedPost :
    (∃ v e, Json.Value.ofText listedPost = .ok v ∧
      Entity.ofJson listedPost = .ok e ∧ Entity.ofValue v = .ok e) ∧
    ∃ v p, Json.Value.ofText retabledPost = .ok v ∧
      EntityPatch.ofJson retabledPost = .ok p ∧ EntityPatch.ofValue v = .ok p := by
  constructor
  · have haccepted : ((Json.Value.ofText listedPost).isOk && (Entity.ofJson listedPost).isOk &&
        (Json.Document.read listedPost).root.keysDistinct) = true := by
      decide +kernel
    simp only [Bool.and_eq_true] at haccepted
    obtain ⟨⟨hvalue, hentity⟩, hkeys⟩ := haccepted
    obtain ⟨v, hv⟩ := exists_ok_of_isOk hvalue
    obtain ⟨e, he⟩ := exists_ok_of_isOk hentity
    exact ⟨v, e, hv, he, ((ofJson_iff_ofValue_of_keysDistinct hv hkeys).1 e).mp he⟩
  · obtain ⟨v, hv⟩ := exists_ok_of_isOk (x := Json.Value.ofText retabledPost) (by decide +kernel)
    obtain ⟨p, hp⟩ := exists_ok_of_isOk (x := EntityPatch.ofJson retabledPost) (by decide +kernel)
    have hboth := ofJson_iff_ofValue_of_keysDistinct hv (by decide +kernel)
    exact ⟨v, p, hv, hp, (hboth.2 p).mp hp⟩

-- The value keeps the second of two names, and the text is refused.
example :
    (Entity.ofJson "\x7b\"name\":\"A\",\"name\":\"B\"\x7d").isOk = false ∧
      (Json.Value.ofText "\x7b\"name\":\"A\",\"name\":\"B\"\x7d").toOption.any
        (fun v ↦ (Entity.ofValue v).isOk) = true := by
  decide +kernel

end Scaffold

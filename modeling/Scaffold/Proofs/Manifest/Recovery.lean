import Scaffold.Proofs.Json.Doubles
import Scaffold.Proofs.Manifest.Decoded
import Scaffold.Proofs.Manifest.Extent

/-!
# Numbers that a document gave back

A document that was written from a manifest and is decoded as the same manifest has given back each
of its numbers.  Every decoder of a part that can hold a number is taken backwards: from what it
made of the part to what it read for the numbers in it.
-/

namespace Scaffold

open Data Json

variable {α σ : Type} {o : Origin}

/-! ## Values all of whose numbers are read back -/

def Json.Value.ReadBack (v : Value) : Prop := ∀ x, .float x ∈ v.numerals → ReadsBack x

theorem readBack_array {vs : List Value} : (Value.array vs).ReadBack ↔ ∀ v ∈ vs, v.ReadBack := by
  induction vs with
  | nil => simp [Value.ReadBack, Value.numerals, Value.itemNumerals]
  | cons v vs ih =>
      rw [List.forall_mem_cons, ← ih]
      simp only [Value.ReadBack, Value.numerals, Value.itemNumerals, List.mem_append, or_imp,
        forall_and]

theorem readBack_object {ms : List (String × Value)} :
    (Value.object ms).ReadBack ↔ ∀ e ∈ ms, e.2.ReadBack := by
  induction ms with
  | nil => simp [Value.ReadBack, Value.numerals, Value.memberNumerals]
  | cons e ms ih =>
      rw [List.forall_mem_cons, ← ih]
      simp only [Value.ReadBack, Value.numerals, Value.memberNumerals, List.mem_append, or_imp,
        forall_and]

/-- A value without numbers. -/
theorem readBack_of_within {k : Nat} {v : Value} (h : Within (fun _ ↦ False) k v) :
    v.ReadBack := by
  induction h with
  | null | bool | string => intro x hx; cases hx
  | integer h | float h => exact h.elim
  | array _ ih => exact readBack_array.mpr ih
  | object _ ih => exact readBack_object.mpr ih

theorem readBack_string (s : String) : (Value.string s).ReadBack :=
  readBack_of_within (k := 0) (.string s)

theorem readBack_members {k : Nat} {ms : List (String × Value)}
    (h : ∀ e ∈ ms, Within (fun _ ↦ False) k e.2) : ∀ e ∈ ms, e.2.ReadBack :=
  fun e he ↦ readBack_of_within (h e he)

theorem exists_of_mem_member? {key : String} {value : Option α} {encode : α → Value}
    {e : String × Value} (h : e ∈ member? key value encode) :
    ∃ a, value = some a ∧ e = (key, encode a) := by
  cases value with
  | none => cases h
  | some a => exact ⟨a, rfl, List.mem_singleton.mp h⟩

theorem eq_of_mem_mapMember? {key : String} {m : Assoc α} {encode : α → Value}
    {e : String × Value} (h : e ∈ mapMember? key encode m) : e = (key, encodeMap encode m) := by
  unfold mapMember? at h
  split at h
  · cases h
  · exact List.mem_singleton.mp h

/-- Where the decoder gives back what the value was written from, the numbers of the value are read
back. -/
def Recovers (decode : Tree → Decoded α) (v : Value) (a : α) : Prop :=
  ∀ t, Holds WrittenNumber t v → decode t = .ok a → v.ReadBack

theorem Recovers.nullable {decode : Tree → Decoded α} {v : Value} {a : α}
    (h : Recovers decode v a) : Recovers (nullable decode) v (some a) := by
  intro t ht hread
  rcases nullable_eq_ok hread with hnone | ⟨b, hsome, hb⟩
  · cases hnone
  · cases hsome
    exact h t ht hb

/-! ## Lists and maps -/

/-- Items that are decoded one by one are those of the list that holds their values. -/
theorem walkItems_recovered {N : Tree → Numeral → Prop} {decode : Tree → Decoded α}
    {items : Items} {vs : List Value} (hitems : ItemsHold N items vs) {read result : List α}
    (h : walkItems (fun read t ↦ (· :: read) <$> decode t) read items = .ok result) :
    ∃ xs, result = xs.reverse ++ read ∧
      List.Forall₂ (fun v x ↦ ∃ t, Holds N t v ∧ decode t = .ok x) vs xs := by
  induction vs generalizing items read with
  | nil =>
      cases hitems
      cases h
      exact ⟨[], rfl, .nil⟩
  | cons v vs ih =>
      cases hitems with
      | more stop early ht hrest =>
          rw [walkItems] at h
          obtain ⟨read', hread, h⟩ := bind_eq_ok.mp h
          obtain ⟨x, hx, rfl⟩ := map_eq_ok.mp (placed_eq_ok.mp hread)
          obtain ⟨xs, rfl, hxs⟩ := ih hrest h
          exact ⟨x :: xs, by simp, .cons ⟨_, ht, hx⟩ hxs⟩

/-- A list is decoded item by item. -/
theorem list_recovered {N : Tree → Numeral → Prop} {decode : Tree → Decoded α} {t : Tree}
    {vs : List Value} (ht : Holds N t (.array vs)) {xs : List α} (h : list o decode t = .ok xs) :
    List.Forall₂ (fun v x ↦ ∃ t, Holds N t v ∧ decode t = .ok x) vs xs := by
  cases ht with
  | array p hn hitems =>
      obtain ⟨-, -, h⟩ := bind_eq_ok.mp h
      obtain ⟨read, hwalk, h⟩ := bind_eq_ok.mp h
      obtain ⟨ys, rfl, hys⟩ := walkItems_recovered hitems hwalk
      cases h
      simpa using hys

theorem recovers_list {decode : Tree → Decoded α} {encode : α → Value} {xs : List α}
    (hdecode : ∀ x ∈ xs, Recovers decode (encode x) x) :
    Recovers (list o decode) (.array (xs.map encode)) xs := by
  intro t ht h
  have hitems := List.forall₂_same.mp (List.forall₂_map_left_iff.mp (list_recovered ht h))
  refine readBack_array.mpr (List.forall_mem_map.mpr fun x hx ↦ ?_)
  obtain ⟨t', ht', hx'⟩ := hitems x hx
  exact hdecode x hx t' ht' hx'

/-- Members that are decoded one by one are the entries of the map that holds their values. -/
theorem walkMembers_recovered {N : Tree → Numeral → Prop} {decode : Tree → Decoded α}
    {step : Assoc α → String → Except ShapeError (Tree → Decoded (Assoc α))}
    (hstep : ∀ read key look t result, step read key = .ok look → look t = .ok result →
      ∃ a, decode t = .ok a ∧ result.entries = read.entries ++ [(key, a)])
    {members : Members} {ms : List (String × Value)} (hmembers : MembersHold N members ms)
    {read result : Assoc α} (h : walkMembers step read members = .ok result) :
    ∃ xs, result.entries = read.entries ++ xs ∧
      List.Forall₂ (fun e x ↦ e.1 = x.1 ∧ ∃ t, Holds N t e.2 ∧ decode t = .ok x.2) ms xs := by
  induction ms generalizing members read with
  | nil =>
      cases hmembers
      cases h
      exact ⟨[], (List.append_nil _).symm, .nil⟩
  | cons e ms ih =>
      cases hmembers with
      | @more _ _ _ key t v _ _ ht hrest =>
          obtain ⟨_, look, _, ⟨⟩, hlook, hread, hwalk⟩ := walkMembers_more h
          obtain ⟨a, ha, hadded⟩ := hstep read key look t _ hlook hread
          obtain ⟨xs, hresult, hxs⟩ := ih hrest hwalk
          exact ⟨(key, a) :: xs, by rw [hresult, hadded, List.append_assoc]; rfl,
            .cons ⟨rfl, t, ht, ha⟩ hxs⟩

/-- A map is recovered from its canonical value if its values are. -/
theorem recovers_uniqueMap {decode : Tree → Decoded α} {encode : α → Value} {m : Assoc α}
    (hdecode : ∀ e ∈ m.entries, Recovers decode (encode e.2) e.2) :
    Recovers (uniqueMap o decode) (encodeMap encode m) m := by
  intro t ht h
  cases ht with
  | object p hn hmembers =>
      obtain ⟨-, -, h⟩ := bind_eq_ok.mp h
      obtain ⟨xs, hall, hxs⟩ := walkMembers_recovered (fun read key look t result hlook hread ↦ by
        split at hlook
        case isTrue => cases hlook
        case isFalse hnew =>
            cases hlook
            obtain ⟨a, ha, rfl⟩ := map_eq_ok.mp hread
            exact ⟨a, ha, Assoc.entries_insert (mt Assoc.contains_iff.mpr hnew) a⟩) hmembers h
      obtain rfl : xs = m.entries := hall.symm
      have hentries := List.forall₂_same.mp (List.forall₂_map_left_iff.mp hxs)
      refine readBack_object.mpr (List.forall_mem_map.mpr fun e he ↦ ?_)
      obtain ⟨-, t', ht', he'⟩ := hentries e he
      exact hdecode e he t' ht' he'

/-! ## Records -/

theorem member_recovered {N : Tree → Numeral → Prop} {slots : List (Slot σ)} {key : String}
    {presence : Presence} {decode : Tree → Decoded α} {put : σ → α → σ} {part : σ → α}
    (hslot : slots.find? (·.key == key) = some ⟨key, presence, fun t s ↦ put s <$> decode t⟩)
    (hput : ∀ s a, part (put s a) = a) (hothers : OnlyChangedBy slots key part) {init r : σ}
    {members : Members} {ms : List (String × Value)}
    (hmembers : MembersHold N members ms) (h : recordMembers slots init members = .ok r)
    {v : Value} (hmem : (key, v) ∈ ms) : ∃ t, Holds N t v ∧ decode t = .ok (part r) := by
  obtain ⟨t, hentry, ht⟩ := hmembers.exists_mem hmem
  exact ⟨t, ht, decode_of_recordMembers hslot hput hothers hentry h⟩

/-! ## Fields -/

theorem recovers_double (x : Double) : Recovers (double o) (.float x) x := by
  intro t ht h y hy
  obtain rfl : y = x := by simpa [Value.numerals] using hy
  cases ht with
  | float ht =>
      obtain ⟨p, q, value, rfl, hvalue⟩ := ht
      obtain ⟨n, hn, h⟩ := bind_eq_ok.mp h
      obtain ⟨z, rfl, hz⟩ := hvalue n (token_eq_ok.mp hn)
      cases h
      exact hz

/-- A literal is recovered from its canonical value. -/
theorem recovers_literal (l : Literal) : Recovers (decodeLiteral o) l.toJson l := by
  intro t ht h x hx
  cases l with
  | text | flag | integer => simp [Literal.toJson, Value.numerals] at hx
  | float y =>
      obtain rfl : x = y := by simpa [Literal.toJson, Value.numerals] using hx
      cases ht with
      | float ht =>
          obtain ⟨p, q, value, rfl, hvalue⟩ := ht
          obtain ⟨-, -, h⟩ := bind_eq_ok.mp h
          cases value with
          | error f => cases h
          | ok n =>
              obtain ⟨z, rfl, hz⟩ := hvalue n rfl
              cases h
              exact hz

/-- A rule with a bound is recovered from its canonical value. -/
theorem recovers_bound {rule : Double → Rule} (name : String)
    (hform : (ruleForms.lookup name).getD .pattern = .bound rule)
    (hname : name ∈ ruleForms.map Prod.fst) (hinj : Function.Injective rule) (x : Double) :
    Recovers (decodeRule o) (.object [("rule", .string name), ("value", .float x)]) (rule x) := by
  intro t ht h
  cases ht with
  | object p hn hmembers =>
      cases hmembers with
      | @more _ _ _ _ tname _ _ _ htname hrest =>
          cases hrest with
          | @more _ _ _ _ tvalue _ _ _ htvalue hdone =>
              cases hdone
              obtain ⟨-, -, h⟩ := bind_eq_ok.mp h
              obtain ⟨progress, hwalk, h⟩ := bind_eq_ok.mp h
              obtain ⟨_, _, _, ⟨⟩, ⟨⟩, hnamed, hwalk₁⟩ := walkMembers_more hwalk
              obtain ⟨form, hform', rfl⟩ := map_eq_ok.mp hnamed
              -- the name comes first, so that the number is read as the bound of this rule
              have hdecodes : ruleForm o tname = .ok (.bound rule) := by
                cases htname
                rw [← hform]
                exact decodes_ruleForm hname _ (.string _ _ name)
              cases hdecodes.symm.trans hform'
              obtain ⟨_, _, _, ⟨⟩, ⟨⟩, hvalued, hwalk₂⟩ := walkMembers_more hwalk₁
              obtain ⟨_, hvalue, rfl⟩ := map_eq_ok.mp hvalued
              obtain ⟨y, hy, rfl⟩ := map_eq_ok.mp hvalue
              cases hwalk₂
              have heq : rule y = rule x := Except.ok.inj h
              rw [hinj heq] at hy
              have hx := recovers_double x tvalue htvalue hy
              exact readBack_object.mpr (List.forall_mem_cons.mpr
                ⟨readBack_string name, List.forall_mem_singleton.mpr hx⟩)

theorem recovers_rule (r : Rule) : Recovers (decodeRule o) r.toJson r := by
  cases r with
  | min bound => exact recovers_bound "min" rfl (by decide) (fun _ _ ↦ Rule.min.inj) bound
  | max bound => exact recovers_bound "max" rfl (by decide) (fun _ _ ↦ Rule.max.inj) bound
  | email | url | integer | positive | regex =>
      intro t ht h x hx
      simp [Rule.toJson, Value.numerals, Value.memberNumerals] at hx

/-- The members of a field that hold no numbers are left aside. -/
theorem readBack_field {f : Field}
    (hdefault : ∀ l, f.default = some l → l.toJson.ReadBack)
    (hrules : f.rules ≠ [] → (Value.array (f.rules.map Rule.toJson)).ReadBack) :
    f.toJson.ReadBack := by
  refine readBack_object.mpr ?_
  simp only [List.forall_mem_append]
  refine ⟨⟨⟨⟨readBack_members (within_kind (k := 0) f.kind),
    readBack_members (within_member? (k := 0) fun b _ ↦ .bool b)⟩,
    readBack_members (within_member? (k := 0) fun b _ ↦ .bool b)⟩, ?_⟩, ?_⟩
  · cases hvalue : f.default with
    | none => simp [member?]
    | some l => simpa [member?] using hdefault l hvalue
  · cases hvalue : f.rules with
    | nil => simp [listMember?]
    | cons r rules => simpa [listMember?, hvalue] using hrules

/-- A field is recovered from its canonical value. -/
theorem recovers_field (f : Field) : Recovers (decodeField o) f.toJson f := by
  intro t ht h
  obtain ⟨d, hd, hsettle⟩ := decodeField_eq_ok h
  obtain ⟨hdefault, hrules⟩ := settle_eq_ok hsettle
  obtain ⟨p, n, members, rfl, hmembers⟩ := ht.eq_object
  obtain ⟨-, -, hd⟩ := bind_eq_ok.mp hd
  refine readBack_field (fun l hl ↦ ?_) fun hne ↦ ?_
  · obtain ⟨t, ht, hread⟩ := member_recovered (v := l.toJson) rfl (fun _ _ ↦ rfl)
      default_onlyChangedBy hmembers hd (by simp [hl, member?])
    rw [← hdefault, hl] at hread
    exact (recovers_literal l).nullable t ht hread
  · obtain ⟨t, ht, hread⟩ := member_recovered (v := .array (f.rules.map Rule.toJson)) rfl
      (fun _ _ ↦ rfl) rules_onlyChangedBy hmembers hd (by simp [hne, listMember?])
    -- The list has as many rules as the field, so no shorthand has added one.
    have hlength : f.rules.length = d.rules.length := by
      simpa using (list_recovered ht hread).length_eq
    have hshorthands : d.shorthands = [] := by
      rw [hrules, List.length_append] at hlength
      exact List.length_eq_zero_iff.mp (by omega)
    rw [hshorthands, List.append_nil] at hrules
    rw [← hrules] at hread
    exact recovers_list (fun r _ ↦ recovers_rule r) t ht hread

/-! ## Relations, entities and the manifest -/

theorem recovers_fields (m : Assoc Field) :
    Recovers (uniqueMap o (decodeField o)) (encodeMap Field.toJson m) m :=
  recovers_uniqueMap fun e _ ↦ recovers_field e.2

theorem recovers_pivot (p : Pivot) :
    Recovers (record o "RawPivot" (pivotSlots o) {}) p.toJson p := by
  intro t ht h
  obtain ⟨start, n, members, rfl, hmembers⟩ := ht.eq_object
  obtain ⟨-, -, h⟩ := bind_eq_ok.mp h
  refine readBack_object.mpr (List.forall_mem_append.mpr
    ⟨readBack_members (within_member? (k := 0) fun s _ ↦ .string s),
      fun e he ↦ ?_⟩)
  obtain rfl := eq_of_mem_mapMember? he
  obtain ⟨t, ht, hread⟩ := member_recovered rfl (fun _ _ ↦ rfl) pivotFields_onlyChangedBy hmembers
    h (List.mem_append_right _ he)
  exact recovers_fields p.fields t ht hread

/-- A relation is recovered from its canonical value. -/
theorem recovers_relation (r : Relation) : Recovers (decodeRelation o) r.toJson r := by
  intro t ht h
  obtain ⟨start, n, members, rfl, hmembers⟩ := ht.eq_object
  obtain ⟨-, -, h⟩ := bind_eq_ok.mp h
  refine readBack_object.mpr ?_
  simp only [List.forall_mem_append, List.forall_mem_cons]
  refine ⟨⟨⟨⟨readBack_string _, readBack_string _, by simp⟩,
    readBack_members (within_member? (k := 0) fun s _ ↦ .string s)⟩,
    fun e he ↦ ?_⟩, ?_⟩
  · obtain ⟨p, hp, rfl⟩ := exists_of_mem_member? he
    obtain ⟨t, ht, hread⟩ := member_recovered rfl (fun _ _ ↦ rfl) pivot_onlyChangedBy hmembers h
      (List.mem_append_left _ (List.mem_append_right _ he))
    rw [hp] at hread
    exact (recovers_pivot p).nullable t ht hread
  · cases r.external with
    | false => simp
    | true => simpa using readBack_of_within (k := 0) (.bool true)

/-- An entity is recovered from its canonical value. -/
theorem recovers_entity (e : Entity) : Recovers (decodeEntity o) e.toJson e := by
  intro t ht h
  obtain ⟨d, hd, h⟩ := bind_eq_ok.mp h
  have hnamed := EntityDraft.eq_of_named (settled_eq_ok.mp h)
  have hfields : d.entity.fields = e.fields := by rw [hnamed]
  have hrelations : d.entity.relations = e.relations := by rw [hnamed]
  obtain ⟨start, n, members, rfl, hmembers⟩ := ht.eq_object
  obtain ⟨-, -, hd⟩ := bind_eq_ok.mp hd
  refine readBack_object.mpr ?_
  simp only [List.forall_mem_append, List.forall_mem_cons]
  refine ⟨⟨⟨⟨⟨readBack_string _,
    readBack_members (within_member? (k := 0) fun s _ ↦ .string s)⟩,
    ?_, fun r hr ↦ ?_⟩,
    readBack_members (within_behaviors_member (k := 0) _)⟩,
    readBack_members (within_member? (k := 1) fun p _ ↦ within_protection p)⟩,
    readBack_members (within_member? (k := 2) fun s _ ↦ within_source s)⟩
  · obtain ⟨t, ht, hread⟩ := member_recovered rfl (fun _ _ ↦ rfl) entityFields_onlyChangedBy
      hmembers hd (v := encodeMap Field.toJson e.fields) (by simp)
    rw [hfields] at hread
    exact recovers_fields e.fields t ht hread
  · obtain rfl := eq_of_mem_mapMember? hr
    obtain ⟨t, ht, hread⟩ := member_recovered rfl (fun _ _ ↦ rfl) entityRelations_onlyChangedBy
      hmembers hd (v := encodeMap Relation.toJson e.relations) (by simp [hr])
    rw [hrelations] at hread
    exact recovers_uniqueMap (fun r _ ↦ recovers_relation r.2) t ht hread

theorem recovers_entities (es : List Entity) :
    Recovers (decodeEntities o) (.array (es.map Entity.toJson)) es := by
  intro t ht h
  cases ht with
  | array p hn hitems =>
      exact recovers_list (o := o) (fun e _ ↦ recovers_entity e) _ (.array p hn hitems) h

/-- A manifest that comes out of its own canonical document had numbers that are read back. -/
theorem recovers_manifest (m : Manifest) : Recovers (decodeManifest o) m.toJson m := by
  intro t ht h
  obtain ⟨start, n, members, rfl, hmembers⟩ := ht.eq_object
  obtain ⟨-, -, h⟩ := bind_eq_ok.mp h
  obtain ⟨t, ht, hread⟩ := member_recovered rfl (fun _ _ ↦ rfl) entities_onlyChangedBy
    hmembers h (v := .array (m.entities.map Entity.toJson)) (by simp)
  refine readBack_object.mpr ?_
  simp only [List.forall_mem_append, List.forall_mem_cons]
  exact ⟨⟨⟨⟨⟨⟨⟨⟨⟨recovers_entities m.entities t ht hread,
    readBack_members (within_member? (k := 1) fun d _ ↦ within_database d)⟩,
    readBack_members (within_member? (k := 2) fun a _ ↦ within_auth a)⟩,
    readBack_members (within_member? (k := 0) fun m _ ↦ .string _)⟩,
    readBack_members (within_member? (k := 2) fun l _ ↦ within_localization l)⟩,
    readBack_members (within_member? (k := 1) fun t _ ↦ within_tenancy t)⟩,
    readBack_members (within_member? (k := 1) fun s _ ↦ within_observability s)⟩,
    readBack_members (within_member? (k := 2) fun d _ ↦ within_defaults d)⟩,
    readBack_members (within_member? (k := 2) fun s _ ↦ within_source s)⟩,
    readBack_members (within_member? (k := 0) fun s _ ↦ .string s)⟩

end Scaffold
